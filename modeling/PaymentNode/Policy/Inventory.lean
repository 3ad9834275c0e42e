import PaymentNode.Ledger.Policy

/-!
# Inventory — the assets an admission row may name

`resolveDirectPolicyAsset` finds the asset an admission row means: a merchant token or its native fee on
the x402 rail, reviewed WBTC under its two mechanisms, a supplemental token on the direct rail, else a
row of the frozen inventory.  Whichever of them answers, the asset is one of `policyAssets`, where a
network has one family and one name and an identity occurs once.

What the address libraries and the swap route codec do is a parameter.
-/

namespace PaymentNode.Allowlist

inductive CandidateKind
  | native
  | token
deriving DecidableEq, Repr

/-- A swap mechanism an owner admits: a route, or a legacy full pin with its remaining fields. -/
structure SwapAdmissionMechanism where
  protocolFamily : String
  chain : String
  routerProgramIdentity : String
  auxiliaryContractProgramIdentities : List String
  legacyPin : Option String
deriving DecidableEq, Repr

inductive AllowlistAdmissionMechanismPin
  | pin (value : Mechanism)
  | swap (value : SwapAdmissionMechanism)
deriving DecidableEq, Repr

structure BridgeAlternative extends AssetMechanismOption where
  recipients : Option (List String)
deriving DecidableEq, Repr

/-- `mechanisms` of an admission row, whose shape says which rail it was written for. -/
inductive AdmissionMechanisms
  | bridge (alternatives : List BridgeAlternative)
  | swap (routes : List SwapAdmissionMechanism)
deriving DecidableEq, Repr

structure AllowlistPolicyAdmissionInput where
  chain : String
  kind : CandidateKind
  identifier : Option String
  rail : AssetPolicyRail
  maximumPerTransferAtomic : Option ℕ
  dailyLimitAtomic : ℕ
  mechanism : Option AllowlistAdmissionMechanismPin
  recipient : Option String
  recipients : Option (List String)
  mechanisms : Option AdmissionMechanisms
deriving DecidableEq, Repr

/-- The identity a row names; a native row with an identifier or a token row without one names none. -/
def AllowlistPolicyAdmissionInput.asset? (row : AllowlistPolicyAdmissionInput) : Option Asset :=
  match row.kind, row.identifier with
  | .native, none => some .native
  | .token, some identifier => some (.token identifier)
  | _, _ => none

/-- The libraries the policy code calls: `none` where one throws. -/
structure PolicyLibraries where
  getAddress : String → Option String
  solanaAddress : String → Option String
  tronAddress : String → Option String
  validateSwapAdmissionMechanism : SwapAdmissionMechanism → Bool
  swapRouteDigest : SwapAdmissionMechanism → String
  uniswapWbtcRouteDigest : String

def zeroEvmAddress : String := "0x0000000000000000000000000000000000000000"

structure CandidateAsset where
  chain : String
  family : AssetPolicyChainFamily
  networkName : String
  asset : Asset
  symbol : String
  decimals : ℕ
deriving DecidableEq, Repr

structure CandidateNetwork where
  chain : String
  family : AssetPolicyChainFamily
  name : String
deriving DecidableEq, Repr

structure AllowlistInventory where
  version : String
  sha256 : String
  networks : List CandidateNetwork
  assets : List CandidateAsset
  inventorySha256 : String

structure DatasetToken where
  identifier : String
  symbol : String
  decimals : ℕ

structure DatasetChain where
  chain : String
  family : AssetPolicyChainFamily
  name : String
  symbol : String
  decimals : ℕ
  verifiedTokenDeployments : List DatasetToken

/-- The networks of `data/allowlist/2026-09-17/dataset.json`. -/
def datasetChains : List DatasetChain :=
  [⟨"eip155:1", .evm, "Ethereum", "ETH", 18,
      [⟨"0xA0b86991c6218b36c1d19D4a2e9Eb0cE3606eB48", "USDC", 6⟩,
       ⟨"0xdAC17F958D2ee523a2206206994597C13D831ec7", "USDT", 6⟩]⟩,
   ⟨"eip155:8453", .evm, "Base", "ETH", 18,
      [⟨"0x833589fCD6eDb6E08f4c7C32D4f71b54bdA02913", "USDC", 6⟩]⟩,
   ⟨"eip155:42161", .evm, "Arbitrum One", "ETH", 18,
      [⟨"0xaf88d065e77c8cC2239327C5EDb3A432268e5831", "USDC", 6⟩]⟩,
   ⟨"eip155:10", .evm, "OP Mainnet", "ETH", 18,
      [⟨"0x0b2C639c533813f4Aa9D7837CAf62653d097Ff85", "USDC", 6⟩]⟩,
   ⟨"eip155:137", .evm, "Polygon PoS", "POL", 18,
      [⟨"0x3c499c542cEF5E3811e1192ce70d8cC03d5c3359", "USDC", 6⟩]⟩,
   ⟨"eip155:56", .evm, "BNB Smart Chain", "BNB", 18, []⟩,
   ⟨"eip155:43114", .evm, "Avalanche C-Chain", "AVAX", 18,
      [⟨"0xB97EF9Ef8734C71904D8002F8b6Bc66Dd9c48a6E", "USDC", 6⟩,
       ⟨"0x9702230A8Ea53601f5cD2dc00fDBc13d4dF4A8c7", "USDT", 6⟩]⟩,
   ⟨"eip155:130", .evm, "Unichain", "ETH", 18,
      [⟨"0x078D782b760474a361dDA0AF3839290b0EF57AD6", "USDC", 6⟩]⟩,
   ⟨"eip155:59144", .evm, "Linea", "ETH", 18,
      [⟨"0x176211869cA2b568f2A7D4EE941E073a821EE1ff", "USDC", 6⟩]⟩,
   ⟨"eip155:143", .evm, "Monad", "MON", 18,
      [⟨"0x754704Bc059F8C67012fEd69BC8A327a5aafb603", "USDC", 6⟩]⟩,
   ⟨"eip155:1329", .evm, "Sei EVM", "SEI", 18,
      [⟨"0xe15fC38F6D8c56aF07bbCBe3BAf5708A2Bf42392", "USDC", 6⟩]⟩,
   ⟨"tron:00000000000000001ebf88508a03865c71d452e25f4d51194196a1d22b6653dc", .tron, "TRON", "TRX", 6,
      [⟨"TR7NHqjeKQxGTCi8q8ZY4pL8otSzgjLj6t", "USDT", 6⟩]⟩,
   ⟨"solana:5eykt4UsFv8P8NJdTREpY1vzqKqZKvdpKuc147dw2N9d", .solana, "Solana", "SOL", 9,
      [⟨"EPjFWdd5AufqSSqeM2qN1xzybapC8G4wEGGkZwyTDt1v", "USDC", 6⟩,
       ⟨"Es9vMFrzaCERmJfrF4H2FYD4KCoNkY11McCe8BenwNYB", "USDT", 6⟩]⟩]

def DatasetChain.network (c : DatasetChain) : CandidateNetwork := ⟨c.chain, c.family, c.name⟩

def DatasetChain.candidates (c : DatasetChain) : List CandidateAsset :=
  ⟨c.chain, c.family, c.name, .native, c.symbol, c.decimals⟩ ::
    c.verifiedTokenDeployments.map fun t =>
      ⟨c.chain, c.family, c.name, .token t.identifier, t.symbol, t.decimals⟩

/-- The inventory this release ships; its own digest is left open. -/
def loadAllowlistInventory (inventorySha256 : String) : AllowlistInventory where
  version := "2026-09-17.market-cap-top-10.1"
  sha256 := "2af4736e081f2981d775c8cee72015152dfabe1315b035f87f506500b08625f0"
  networks := datasetChains.map DatasetChain.network
  assets := datasetChains.flatMap DatasetChain.candidates
  inventorySha256 := inventorySha256

variable (libs : PolicyLibraries)

/-- The spelling a family's own library gives an address. -/
def PolicyLibraries.spelling : AssetPolicyChainFamily → String → Option String
  | .evm => libs.getAddress
  | .solana => libs.solanaAddress
  | .tron => libs.tronAddress

/-- A deployment identity that is its own canonical spelling. -/
def canonicalToken (family : AssetPolicyChainFamily) (raw : String) : Result String :=
  if libs.spelling family raw = some raw ∧ raw ≠ zeroEvmAddress then .ok raw
  else .error ⟨.other, "Token identity must be the exact canonical deployment identifier."⟩

section

variable (row : AllowlistPolicyAdmissionInput)

def resolveAllowlistAsset
    (inventory : AllowlistInventory) : Result CandidateAsset :=
  match inventory.networks.find? fun n => n.chain = row.chain with
  | none => .error ⟨.other, "The exact network identity is absent from the frozen allowlist inventory."⟩
  | some network =>
    match row.kind, row.identifier with
    | .native, some _ => .error ⟨.other, "Native identity requires an omitted identifier."⟩
    | .native, none =>
      match inventory.assets.find? fun a => a.chain = row.chain ∧ a.asset = .native with
      | none => .error ⟨.other, "The frozen allowlist dataset is missing from the installation."⟩
      | some asset => .ok asset
    | .token, none =>
      .error ⟨.other, "Token identity requires the exact canonical deployment identifier."⟩
    | .token, some raw => do
      let identifier ← canonicalToken libs network.family raw
      match inventory.assets.find? fun a => a.chain = row.chain ∧ a.asset = .token identifier with
      | none =>
        .error ⟨.other, "The exact token deployment is absent from the frozen allowlist inventory."⟩
      | some asset => .ok asset

structure MerchantAssetPin where
  chain : String
  networkName : String
  token : String
  symbol : String
  decimals : ℕ

def megaethUsdm : MerchantAssetPin :=
  ⟨"eip155:4326", "MegaETH", "0xFAfDdbb3FC7688494971a79cc65DCa3EF82079E7", "USDm", 18⟩

def merchantAssetPins : List MerchantAssetPin := [megaethUsdm]

/-- USDm as version 1 operations read it. -/
def legacyMerchantAsset : MerchantAssetPin :=
  ⟨"eip155:4326", "MegaETH", "0xFAfDdbb3FC7688494971a79cc65DCa3EF82079E7", "USDm", 18⟩

def legacyMerchantMechanism : Mechanism :=
  ⟨"x402engine-erc20-transfer-proof", "megaeth-usdm-crypto-price-v1"⟩

def merchantAssetMechanism (asset : MerchantAssetPin) : Mechanism :=
  ⟨"x402-erc20-transfer-proof", asset.chain ++ "/" ++ asset.token⟩

def candidate (pin : MerchantAssetPin) : CandidateKind → CandidateAsset
  | .token => ⟨pin.chain, .evm, pin.networkName, .token pin.token, pin.symbol, pin.decimals⟩
  | .native => ⟨pin.chain, .evm, pin.networkName, .native, "ETH", 18⟩

def merchantPin (mechanism : AllowlistAdmissionMechanismPin) : Option MerchantAssetPin :=
  if mechanism = .pin legacyMerchantMechanism then some legacyMerchantAsset
  else merchantAssetPins.find? fun entry => mechanism = .pin (merchantAssetMechanism entry)

def merchantPolicyAsset : Option CandidateAsset :=
  match row.rail, row.mechanisms, row.mechanism with
  | .x402, none, some mechanism =>
    match merchantPin mechanism with
    | none => none
    | some pin =>
      if row.chain ≠ pin.chain then none
      else if row.asset? = some .native then some (candidate pin .native)
      else if row.asset? = some (.token pin.token) then some (candidate pin .token)
      else none
  | _, _, _ => none

def canonicalWbtcPolicyAssets : List CandidateAsset :=
  [⟨"eip155:1", .evm, "Ethereum", .token "0x2260FAC5E5542a773Aa44fBCfeDf7C193bc2C599", "WBTC", 8⟩,
   ⟨"eip155:42161", .evm, "Arbitrum One", .token "0x2f2a2543B76A4166549F7aaB2e75Bef0aefC5B0f", "WBTC", 8⟩]

/-- The digest throws on a mechanism the route codec refuses. -/
def sameSwapRoute : AllowlistAdmissionMechanismPin → Bool
  | .pin _ => false
  | .swap m => libs.validateSwapAdmissionMechanism m && libs.swapRouteDigest m = libs.uniswapWbtcRouteDigest

def reviewedWbtcPolicyAsset :
    Option CandidateAsset :=
  if row.kind ≠ .token ∨ row.mechanisms.isSome then none
  else
    match canonicalWbtcPolicyAssets.find? fun a => a.chain = row.chain ∧ row.asset? = some a.asset with
    | none => none
    | some asset =>
      if row.rail = .bridge ∧ row.mechanism = some (.pin ⟨"lifi", "across-v4"⟩) then some asset
      else if row.rail = .swap ∧ row.chain = "eip155:1" ∧ row.mechanism.any (sameSwapRoute libs) then
        some asset
      else none

def directEvmSupplementalAssets : List CandidateAsset :=
  [⟨"eip155:1", .evm, "Ethereum", .token "0xC02aaA39b223FE8D0A0e5C4F27eAD9083C756Cc2", "WETH", 18⟩,
   ⟨"eip155:8453", .evm, "Base", .token "0x4200000000000000000000000000000000000006", "WETH", 18⟩,
   ⟨"eip155:42161", .evm, "Arbitrum One", .token "0xFd086bC7CD5C481DCC9C85ebE478A1C0b69FCbb9", "USDT0", 6⟩]

def directEvmSupplementalAsset :
    Option CandidateAsset :=
  match row.rail, row.kind, row.identifier with
  | .direct, .token, some identifier =>
    if row.chain.startsWith "eip155:" ∧ libs.getAddress identifier = some identifier then
      directEvmSupplementalAssets.find? fun a => a.chain = row.chain ∧ a.asset = .token identifier
    else none
  | _, _, _ => none

/-- Only a direct policy admission can resolve a supplemental identity. -/
def resolveDirectPolicyAsset
    (inventory : AllowlistInventory) : Result CandidateAsset :=
  match merchantPolicyAsset row, reviewedWbtcPolicyAsset libs row, directEvmSupplementalAsset libs row with
  | some merchant, _, _ => .ok merchant
  | none, some wbtc, _ => .ok wbtc
  | none, none, some asset => .ok asset
  | none, none, none => resolveAllowlistAsset libs row inventory

end

/-- The chain family of a CAIP-2 network identity used in policies. -/
def policyChainFamily (chain : String) : Option AssetPolicyChainFamily :=
  if chain.startsWith "eip155:" then some .evm
  else if chain.startsWith "solana:" then some .solana
  else if chain.startsWith "tron:" then some .tron
  else none

section Resolved

/-- Every asset a resolver can answer with. -/
def policyAssets : List CandidateAsset :=
  datasetChains.flatMap DatasetChain.candidates ++ directEvmSupplementalAssets ++ canonicalWbtcPolicyAssets ++
    [candidate megaethUsdm .token, candidate megaethUsdm .native]

theorem policyAssets_network : ∀ a ∈ policyAssets, ∀ b ∈ policyAssets, a.chain = b.chain →
    a.family = b.family ∧ a.networkName = b.networkName := by
  decide +kernel

theorem policyAssets_unique : ∀ a ∈ policyAssets, ∀ b ∈ policyAssets, a.chain = b.chain → a.asset = b.asset →
    a = b := by
  decide +kernel

theorem policyAssets_family : ∀ a ∈ policyAssets, policyChainFamily a.chain = some a.family := by
  decide +kernel

variable {libs : PolicyLibraries} {row : AllowlistPolicyAdmissionInput} {asset : CandidateAsset}
  {inventorySha256 : String}

theorem merchantPin_eq {mechanism : AllowlistAdmissionMechanismPin} {pin : MerchantAssetPin}
    (h : merchantPin mechanism = some pin) : pin = megaethUsdm := by
  unfold merchantPin at h
  split at h
  · exact (Option.some.inj h).symm
  · simpa [merchantAssetPins] using List.mem_of_find?_eq_some h

/-- A listed asset, under the network and the identity the row names. -/
abbrev ListedFor (row : AllowlistPolicyAdmissionInput) (asset : CandidateAsset) : Prop :=
  asset ∈ policyAssets ∧ asset.chain = row.chain ∧ row.asset? = some asset.asset

theorem merchantPolicyAsset_some (h : merchantPolicyAsset row = some asset) :
    ListedFor row asset := by
  unfold merchantPolicyAsset at h
  split at h
  · rename_i mechanism _ _ _
    split at h
    · cases h
    · rename_i pin hpin
      have hmember : ∀ kind, candidate pin kind ∈ policyAssets := by
        rw [merchantPin_eq hpin]
        intro kind
        cases kind <;> simp [policyAssets]
      split at h
      · cases h
      rename_i hchain
      have hchain : pin.chain = row.chain := (not_not.mp hchain).symm
      split at h
      · rename_i hnative
        cases h
        exact ⟨hmember .native, hchain, hnative⟩
      · split at h
        · rename_i htoken
          cases h
          exact ⟨hmember .token, hchain, htoken⟩
        · cases h
  · cases h

theorem reviewedWbtcPolicyAsset_some (h : reviewedWbtcPolicyAsset libs row = some asset) :
    ListedFor row asset := by
  unfold reviewedWbtcPolicyAsset at h
  split at h
  · cases h
  split at h
  · cases h
  rename_i found hfound
  have hmatches := List.find?_some hfound
  have hmem := List.mem_of_find?_eq_some hfound
  have hasset : found = asset := by
    split at h
    · exact Option.some.inj h
    · split at h
      · exact Option.some.inj h
      · cases h
  subst hasset
  simp only [decide_eq_true_eq] at hmatches
  exact ⟨by simp [policyAssets, hmem], hmatches⟩

theorem directEvmSupplementalAsset_some (h : directEvmSupplementalAsset libs row = some asset) :
    ListedFor row asset := by
  unfold directEvmSupplementalAsset at h
  split at h
  · rename_i identifier hrail hkind hidentifier
    split at h
    · have hmatches := List.find?_some h
      have hmem := List.mem_of_find?_eq_some h
      simp only [decide_eq_true_eq] at hmatches
      refine ⟨by simp [policyAssets, hmem], hmatches.1, ?_⟩
      rw [hmatches.2]
      simp [AllowlistPolicyAdmissionInput.asset?, hkind, hidentifier]
    · cases h
  · cases h

theorem canonicalToken_ok {family : AssetPolicyChainFamily} {raw identifier : String}
    (h : canonicalToken libs family raw = .ok identifier) : identifier = raw := by
  unfold canonicalToken at h
  split at h
  · exact (Except.ok.inj h).symm
  · cases h

theorem resolveAllowlistAsset_ok
    (h : resolveAllowlistAsset libs row (loadAllowlistInventory inventorySha256) = .ok asset) :
    ListedFor row asset := by
  have hfound : ∀ identity, (loadAllowlistInventory inventorySha256).assets.find?
      (fun a => a.chain = row.chain ∧ a.asset = identity) = some asset → row.asset? = some identity →
      ListedFor row asset := by
    intro identity hfind hnamed
    have hmatches := List.find?_some hfind
    have hmem : asset ∈ datasetChains.flatMap DatasetChain.candidates := List.mem_of_find?_eq_some hfind
    simp only [decide_eq_true_eq] at hmatches
    exact ⟨List.mem_append_left _ (List.mem_append_left _ (List.mem_append_left _ hmem)), hmatches.1,
      hmatches.2 ▸ hnamed⟩
  unfold resolveAllowlistAsset at h
  split at h
  · cases h
  split at h
  · cases h
  · rename_i hkind hidentifier
    split at h
    · cases h
    · rename_i found hfind
      cases h
      exact hfound .native hfind (by simp [AllowlistPolicyAdmissionInput.asset?, hkind, hidentifier])
  · cases h
  · rename_i raw hkind hidentifier
    rcases bind_ok.mp h with ⟨identifier, hcanonical, h⟩
    split at h
    · cases h
    · rename_i found hfind
      cases h
      rw [canonicalToken_ok hcanonical] at hfind
      exact hfound (.token raw) hfind (by simp [AllowlistPolicyAdmissionInput.asset?, hkind, hidentifier])

-- The asset a row resolves to is a listed one, under the network and the identity the row names.
theorem resolveDirectPolicyAsset_ok
    (h : resolveDirectPolicyAsset libs row (loadAllowlistInventory inventorySha256) = .ok asset) :
    ListedFor row asset := by
  unfold resolveDirectPolicyAsset at h
  split at h
  · rename_i merchant _ _ hmerchant
    cases h
    exact merchantPolicyAsset_some hmerchant
  · rename_i wbtc _ _ hwbtc
    cases h
    exact reviewedWbtcPolicyAsset_some hwbtc
  · rename_i found _ _ hfound
    cases h
    exact directEvmSupplementalAsset_some hfound
  · exact resolveAllowlistAsset_ok h

end Resolved
end PaymentNode.Allowlist
