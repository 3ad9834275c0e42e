import PaymentNode.Policy.Overlay

/-!
# Registry — the sealed registry with all its fields, its validator and its evaluator

A registry row carries, beside the caps the evaluator applies, the mechanism pins, the alternatives and the
recipient lists of each rail.  `validateAssetPolicyRegistry` checks every row and the digest over the whole
body, and `evaluateAssetPolicy` reads only what passed it.  The window, the rail, the caps and the bridge
alternative of a spend are decided by the functions of `Ledger/Policy`, on the fields those read.
-/

namespace PaymentNode.Allowlist

structure AssetPolicyRow where
  asset : Asset
  symbol : String
  decimals : ℕ
  rails : AssetPolicyRail → Bool
  caps : Option AssetAtomicCaps
  railCaps : AssetPolicyRail → Option AssetAtomicCaps
  mechanismPins : AssetPolicyRail → Option AllowlistAdmissionMechanismPin
  bridgeOptions : Option (List BridgeAlternative)
  swapOptions : Option (List SwapAdmissionMechanism)
  gaslessRecipient : Option String
  recipients : AssetPolicyRail → Option (List String)

structure AssetPolicyChain where
  chain : String
  family : AssetPolicyChainFamily
  name : String
  assets : List AssetPolicyRow

structure UnsignedAssetPolicyRegistry where
  schemaVersion : AssetPolicyRegistrySchema
  registryVersion : String
  publishedAt : Instant
  effectiveDate : ℤ
  effectiveAt : Option Instant
  expiresAt : Option Instant
  chains : List AssetPolicyChain

structure AssetPolicyRegistry extends UnsignedAssetPolicyRegistry where
  policyDigest : String

/-- The digests of the policy code: each is a domain hash over the canonical text of a value. -/
structure PolicyHashes where
  policyDigest : UnsignedAssetPolicyRegistry → String
  overlayDigest : AllowlistPolicyOverlayV2Input → String
  profileHash : String → String

/-- The fields of a row the evaluator reads. -/
def AssetPolicyRow.plain (row : AssetPolicyRow) : PaymentNode.AssetPolicyRow where
  asset := row.asset
  rails := row.rails
  caps := row.caps
  railCaps := row.railCaps
  bridgeOptions := row.bridgeOptions.map fun options => options.map BridgeAlternative.toAssetMechanismOption

def AssetPolicyChain.plain (chain : AssetPolicyChain) : PaymentNode.AssetPolicyChain :=
  ⟨chain.chain, chain.family, chain.assets.map AssetPolicyRow.plain⟩

def AssetPolicyRegistry.plain (registry : AssetPolicyRegistry) : PaymentNode.AssetPolicyRegistry where
  schemaVersion := registry.schemaVersion
  registryVersion := registry.registryVersion
  effectiveDate := registry.effectiveDate
  effectiveAt := registry.effectiveAt
  expiresAt := registry.expiresAt
  chains := registry.chains.map AssetPolicyChain.plain
  policyDigest := registry.policyDigest

def policyRails : List AssetPolicyRail := [.direct, .gasless, .x402, .bridge, .swap]

section Text

/-- A letter or digit, then at most 63 of letters, digits, blanks, dots, brackets, slashes and hyphens. -/
def isChainName (s : String) : Bool :=
  match s.toList with
  | [] => false
  | c :: rest => c.isAlphanum && rest.length ≤ 63 && rest.all fun d => d.isAlphanum || " .()/-".toList.contains d

/-- `^[A-Za-z0-9][A-Za-z0-9._-]{0,15}$` -/
def isSymbol (s : String) : Bool :=
  match s.toList with
  | [] => false
  | c :: rest => c.isAlphanum && rest.length ≤ 15 && rest.all fun d => d.isAlphanum || "._-".toList.contains d

/-- `^[a-f0-9]{64}$` -/
def isSha256 (s : String) : Bool :=
  s.toList.length = 64 && s.toList.all fun c => c.isDigit || ('a' ≤ c && c ≤ 'f')

/-- `[1-9A-HJ-NP-Za-km-z]` -/
def isBase58 (c : Char) : Bool := c.isAlphanum && !"0OIl".toList.contains c

def decimalValue (digits : List Char) : ℕ :=
  digits.foldl (fun value c => 10 * value + (c.toNat - '0'.toNat)) 0

def networkReference (label : String) (value : String) : Option (List Char) :=
  if label.toList.isPrefixOf value.toList then some (value.toList.drop label.toList.length) else none

def canonicalChain (libs : PolicyLibraries) (family : AssetPolicyChainFamily) (value : String) : Bool :=
  match family with
  | .evm =>
    match networkReference "eip155:" value with
    | some (c :: rest) =>
      c.isDigit && c ≠ '0' && rest.length ≤ 77 && rest.all Char.isDigit && decimalValue (c :: rest) ≤ maxUint256
    | _ => false
  | .solana =>
    match networkReference "solana:" value with
    | some key =>
      32 ≤ key.length && key.length ≤ 44 && key.all isBase58 &&
        libs.solanaAddress (String.ofList key) = some (String.ofList key)
    | none => false
  | .tron =>
    match networkReference "tron:" value with
    | some block => block.length = 64 && block.all fun c => c.isDigit || ('a' ≤ c && c ≤ 'f')
    | none => false

end Text

variable (libs : PolicyLibraries)

section

variable (family : AssetPolicyChainFamily)

/-- An EVM identity is its own checksum spelling; the other families answer with their own spelling. -/
def canonicalTokenIdentifier (value : String) :
    Result String :=
  match libs.spelling family value with
  | none => invalid "Token identity must be a canonical contract or mint address."
  | some canonical =>
    if family = .evm ∧ (canonical = zeroEvmAddress ∨ canonical ≠ value) then
      invalid "Token identity must be a canonical contract or mint address."
    else .ok canonical

def validateCaps (value : Option AssetAtomicCaps) : Result Unit :=
  match value with
  | none => invalid "Asset atomic caps are invalid."
  | some caps => do
    let maximum ← positiveAtomic (some caps.maximumPerTransferAtomic)
    let daily ← positiveAtomic (some caps.dailyLimitAtomic)
    if daily < maximum then invalid "The per-transfer cap cannot exceed the daily cap." else .ok ()

def validateRailCaps (rails : AssetPolicyRail → Bool) (value : AssetPolicyRail → Option AssetAtomicCaps) :
    Result Unit :=
  let admitted := policyRails.filter fun rail => rails rail
  if admitted = [] ∨ ∃ rail ∈ policyRails, (value rail).isSome ≠ rails rail then
    invalid "Per-rail caps must exist for exactly the admitted rails."
  else do
    let _ ← admitted.mapM fun rail => validateCaps (value rail)
    .ok ()

def validateMechanismPin (rail : AssetPolicyRail)
    (value : Option AllowlistAdmissionMechanismPin) : Result Unit :=
  match rail, value with
  | _, none => .ok ()
  | .direct, some _ => invalid "Asset mechanism pins are invalid."
  | .swap, some pin => do
    let _ ← swapMechanismPin libs pin
    .ok ()
  | _, some pin => do
    let _ ← mechanismPin pin
    .ok ()

def validateMechanismPins (pins : AssetPolicyRail → Option AllowlistAdmissionMechanismPin) :
    Result Unit := do
  let _ ← policyRails.mapM fun rail => validateMechanismPin libs rail (pins rail)
  .ok ()

/-- Two to sixteen distinct admitted swap routes in place of the single pin. -/
def validateSwapOptions (admitted : Bool) (single : Option AllowlistAdmissionMechanismPin)
    (value : List SwapAdmissionMechanism) : Result Unit :=
  if ¬ admitted ∨ single.isSome ∨ value.length < 2 ∨ 16 < value.length then
    invalid "Swap mechanism alternatives are invalid."
  else do
    let options ← value.mapM fun option => swapMechanismPin libs (.swap option)
    if ¬ (options.map libs.swapRouteDigest).Nodup then
      invalid "Swap mechanism alternatives contain a duplicate route."
    else .ok ()

/-- One bridge alternative beside those already read. -/
def validateBridgeOption (railCap : Option AssetAtomicCaps) (option : BridgeAlternative) :
    Result Unit :=
  if option.recipients.any fun recipients => ¬ recipientPinList libs recipients none then
    invalid "Bridge mechanism alternative is invalid."
  else do
    validateMechanismPin libs .bridge (some (.pin option.toMechanism))
    let cap ← positiveAtomic (some option.maximumPerTransferAtomic)
    if (railCap.map (·.maximumPerTransferAtomic)).any fun maximum => maximum < cap then
      invalid "Bridge mechanism cap exceeds rail cap."
    else .ok ()

def validateBridgeOptions (schema : AssetPolicyRegistrySchema) (row : AssetPolicyRow)
    (options : List BridgeAlternative) : Result Unit :=
  if schema ≠ .v2 ∨ ¬ row.rails .bridge ∨ options.length < 2 ∨ 16 < options.length ∨
      (row.mechanismPins .bridge).isSome then
    invalid "Bridge mechanism alternatives are invalid."
  else do
    let _ ← options.mapM fun option => validateBridgeOption libs (row.railCaps .bridge) option
    if ¬ (options.map (·.toMechanism)).Nodup then invalid "Bridge mechanism alternative is duplicated."
    else .ok ()

/-- Recipient lists stand on admitted pin rails, and not on a bridge row with alternatives. -/
def rowRecipientPinsValid (row : AssetPolicyRow) : Bool :=
  policyRails.all fun rail =>
    match row.recipients rail with
    | none => true
    | some recipients =>
      isRecipientPinRail rail && row.rails rail && !(decide (rail = .bridge) && row.bridgeOptions.isSome) &&
        recipientPinList libs recipients (if rail = .bridge then none else some family)

def validateIdentity : Asset → Result Unit
  | .native => .ok ()
  | .token identifier => do
    let canonical ← canonicalTokenIdentifier libs family identifier
    if canonical ≠ identifier then invalid "A token must use its canonical contract or mint address." else .ok ()

def gaslessProvider (row : AssetPolicyRow) : Option String :=
  (row.mechanismPins .gasless).bind AllowlistAdmissionMechanismPin.provider?

def validateGaslessRecipient (row : AssetPolicyRow)
    (recipient : String) : Result Unit :=
  if family ≠ .evm ∨ ¬ row.rails .gasless ∨
      (gaslessProvider row ≠ some "local" ∧ gaslessProvider row ≠ some coinbaseAgenticWallet) ∨
      libs.getAddress recipient ≠ some recipient ∨ recipient = zeroEvmAddress then
    invalid "A gasless recipient pin must be one canonical EVM address."
  else .ok ()

/-- A check of an optional field. -/
def checkPresent {α : Type} (check : α → Result Unit) : Option α → Result Unit
  | none => .ok ()
  | some value => check value

def validateAsset (schema : AssetPolicyRegistrySchema)
    (row : AssetPolicyRow) : Result Unit :=
  if ¬ isSymbol row.symbol ∨ 255 < row.decimals ∨
      (schema = .v2 ∧ row.caps.isSome) ∨ (schema = .v1 ∧ ∃ rail ∈ policyRails, (row.railCaps rail).isSome) then
    invalid "An asset policy asset row is invalid."
  else do
    validateIdentity libs family row.asset
    match schema with
    | .v2 => validateRailCaps row.rails row.railCaps
    | .v1 => validateCaps row.caps
    validateMechanismPins libs row.mechanismPins
    checkPresent (validateGaslessRecipient libs family row) row.gaslessRecipient
    checkPresent (validateSwapOptions libs (row.rails .swap) (row.mechanismPins .swap)) row.swapOptions
    checkPresent (validateBridgeOptions libs schema row) row.bridgeOptions
    if ¬ rowRecipientPinsValid libs family row then invalid "Asset recipient pins are invalid."
    else if row.rails .swap ≠ ((row.mechanismPins .swap).isSome || row.swapOptions.isSome) then
      invalid "Swap admission requires exactly one immutable swap mechanism pin."
    else .ok ()

def validateChainAsset (schema : AssetPolicyRegistrySchema) (chain : AssetPolicyChain)
    (row : AssetPolicyRow) : Result Unit := do
  validateAsset libs chain.family schema row
  if row.gaslessRecipient.isSome ∧ chain.chain ≠ "eip155:1" ∧ chain.chain ≠ "eip155:8453" then
    invalid "A gasless recipient pin requires Ethereum or Base."
  else if gaslessProvider row = some coinbaseAgenticWallet ∧
      (chain.chain ≠ "eip155:8453" ∨ row.gaslessRecipient.isNone) then
    invalid "Coinbase gasless admission requires Base and one exact recipient."
  else .ok ()

def validateChain (schema : AssetPolicyRegistrySchema) (chain : AssetPolicyChain) :
    Result Unit :=
  if ¬ isChainName chain.name ∨ ¬ canonicalChain libs chain.family chain.chain ∨ chain.assets = [] ∨
      256 < chain.assets.length then
    invalid "An asset policy chain row is invalid."
  else do
    let _ ← chain.assets.mapM fun row => validateChainAsset libs schema chain row
    if ¬ (chain.assets.map AssetPolicyRow.asset).Nodup then
      invalid "An asset policy chain contains a duplicate asset identity."
    else .ok ()

def validateRegistryBody (value : UnsignedAssetPolicyRegistry) : Result Unit :=
  if ¬ isVersionName value.registryVersion then invalid "The asset policy registry metadata is invalid."
  else if value.effectiveAt.any fun effectiveAt => effectiveAt.day ≠ value.effectiveDate then
    invalid "Registry effective instant is invalid."
  else if value.expiresAt.any fun expiresAt =>
      match value.effectiveAt with
      | none => decide (expiresAt.day ≤ value.effectiveDate)
      | some effectiveAt => decide (expiresAt ≤ effectiveAt) then
    invalid "Registry expiry instant is invalid."
  else if value.chains = [] ∨ 64 < value.chains.length then
    invalid "The asset policy registry must contain a bounded, non-empty chain list."
  else do
    let _ ← value.chains.mapM fun chain => validateChain libs value.schemaVersion chain
    if ¬ (value.chains.map AssetPolicyChain.chain).Nodup then
      invalid "The asset policy registry contains a duplicate chain identity."
    else .ok ()

def assetPolicyDigest (hashes : PolicyHashes) (value : UnsignedAssetPolicyRegistry) :
    Result String := do
  validateRegistryBody libs value
  .ok (hashes.policyDigest value)

def validateAssetPolicyRegistry (hashes : PolicyHashes) (value : AssetPolicyRegistry) :
    Result AssetPolicyRegistry := do
  validateRegistryBody libs value.toUnsignedAssetPolicyRegistry
  if ¬ isSha256 value.policyDigest ∨
      hashes.policyDigest value.toUnsignedAssetPolicyRegistry ≠ value.policyDigest then
    invalid "The asset policy registry digest is invalid."
  else .ok value

def sealAssetPolicyRegistry (hashes : PolicyHashes) (value : UnsignedAssetPolicyRegistry) :
    Result AssetPolicyRegistry := do
  let policyDigest ← assetPolicyDigest libs hashes value
  validateAssetPolicyRegistry libs hashes ⟨value, policyDigest⟩

/-- What the evaluator answers: the applied caps and the whole registry row, the other rails' fields included. -/
structure AssetPolicyAdmission extends PaymentNode.AssetPolicyAdmission where
  effectiveDate : ℤ
  family : AssetPolicyChainFamily
  row : AssetPolicyRow

/-- The row identity a spend means under the chain's own spelling. -/
def requestedAsset : Asset → Result Asset
  | .native => .ok .native
  | .token identifier => (canonicalTokenIdentifier libs family identifier).map .token

end

def evaluateAssetPolicy (hashes : PolicyHashes) (value : AssetPolicyRegistry)
    (input : AssetPolicyEvaluationInput) : Result AssetPolicyAdmission := do
  let registry ← validateAssetPolicyRegistry libs hashes value
  evaluateWindow registry.plain input
  match registry.chains.find? fun c => c.chain = input.chain with
  | none => blocked "The network is not listed in the asset policy registry."
  | some chain => do
    let asset ← requestedAsset libs chain.family input.asset
    match chain.assets.find? fun r => r.asset = asset with
    | none => blocked "The asset is not listed for this network."
    | some row => do
      let admission ← evaluateRow registry.plain input row.plain
      .ok ⟨admission, registry.effectiveDate, chain.family, row⟩

end PaymentNode.Allowlist
