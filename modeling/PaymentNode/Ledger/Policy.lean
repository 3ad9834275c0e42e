import PaymentNode.Basic

/-!
# Policy — the fail-closed asset policy evaluator

`evaluateAssetPolicy` decides one proposed spend against a sealed registry: the effective window, the
network row, the asset row, the rail, the bridge mechanism and the two caps.  The registry is the typed
value `validateAssetPolicyRegistry` hands on; address canonicalisation belongs to the wallet libraries
and is a parameter.
-/

namespace PaymentNode

inductive AssetPolicyRail
  | direct
  | gasless
  | x402
  | bridge
  | swap
deriving DecidableEq, Repr

inductive AssetPolicyChainFamily
  | evm
  | solana
  | tron
deriving DecidableEq, Repr

inductive AssetPolicyRegistrySchema
  | v1
  | v2
deriving DecidableEq, Repr

/-- An asset: the native coin, or a token under its contract or mint address. -/
inductive Asset
  | native
  | token (identifier : String)
deriving DecidableEq, Repr

structure AssetAtomicCaps where
  maximumPerTransferAtomic : ℕ
  dailyLimitAtomic : ℕ
deriving DecidableEq, Repr

structure Mechanism where
  provider : String
  reference : String
deriving DecidableEq, Repr

structure AssetMechanismOption extends Mechanism where
  maximumPerTransferAtomic : ℕ
deriving DecidableEq, Repr

structure AssetPolicyRow where
  asset : Asset
  rails : AssetPolicyRail → Bool
  caps : Option AssetAtomicCaps
  railCaps : AssetPolicyRail → Option AssetAtomicCaps
  bridgeOptions : Option (List AssetMechanismOption)

structure AssetPolicyChain where
  chain : String
  family : AssetPolicyChainFamily
  assets : List AssetPolicyRow

structure AssetPolicyRegistry where
  schemaVersion : AssetPolicyRegistrySchema
  registryVersion : String
  effectiveDate : ℤ
  effectiveAt : Option Instant
  expiresAt : Option Instant
  chains : List AssetPolicyChain
  policyDigest : String

structure AssetPolicyEvaluationInput where
  chain : String
  asset : Asset
  rail : AssetPolicyRail
  mechanism : Option Mechanism
  amountAtomic : ℕ
  dailyUsageAtomic : ℕ
  asOfDate : ℤ
  asOf : Option Instant

structure AssetPolicyAdmission where
  policyDigest : String
  registryVersion : String
  chain : String
  asset : Asset
  rail : AssetPolicyRail
  caps : AssetAtomicCaps
  amountAtomic : ℕ
  dailyUsageAtomic : ℕ
  dailyRemainingAtomic : ℕ
deriving DecidableEq, Repr

def maxUint256 : ℕ := 2 ^ 256 - 1

/-- The wallet libraries' address checks: an account or a token that is its own canonical spelling. -/
structure Addresses where
  canonicalAccount : String → String → Bool
  canonicalTokenIdentifier : AssetPolicyChainFamily → String → Bool

variable (registry : AssetPolicyRegistry)

/-- The cap pair the registry applies to a rail of an asset row. -/
def AssetPolicyRegistry.capsFor (row : AssetPolicyRow)
    (rail : AssetPolicyRail) : Option AssetAtomicCaps :=
  match registry.schemaVersion with
  | .v2 => row.railCaps rail
  | .v1 => row.caps

/-- The rows of the registry a spend is evaluated against. -/
def AssetPolicyRegistry.row? (chain : String) (asset : Asset) :
    Option AssetPolicyRow :=
  (registry.chains.find? fun c => c.chain = chain).bind fun c => c.assets.find? fun r => r.asset = asset

/-- The registry's daily limit for one rail of one asset, where it admits the pair at all. -/
def AssetPolicyRegistry.dailyLimit? (chain : String) (asset : Asset)
    (rail : AssetPolicyRail) : Option ℕ :=
  ((registry.row? chain asset).bind fun row => registry.capsFor row rail).map
    AssetAtomicCaps.dailyLimitAtomic

def canonicalAsset (addresses : Addresses) (family : AssetPolicyChainFamily) : Asset → Bool
  | .native => true
  | .token identifier => addresses.canonicalTokenIdentifier family identifier

/-- The exact-instant boundaries, checked only where the registry carries one. -/
def evaluateWindow (input : AssetPolicyEvaluationInput) :
    Result Unit :=
  if input.asOfDate < registry.effectiveDate then
    blocked "The asset policy registry is not effective on the requested date."
  else if registry.effectiveAt.isNone ∧ registry.expiresAt.isNone then .ok ()
  else
    match input.asOf with
    | none => invalid "Policy evaluation requires an exact instant matching the requested UTC date."
    | some asOf =>
      if asOf.day ≠ input.asOfDate then
        invalid "Policy evaluation requires an exact instant matching the requested UTC date."
      else if registry.effectiveAt.any fun at' => asOf < at' then
        blocked "The asset policy registry is not yet effective."
      else if registry.expiresAt.any fun at' => at' ≤ asOf then
        blocked "The asset policy registry has expired."
      else .ok ()

/-- The bridge alternative the spend names; the other rails have none. -/
def selectMechanism (row : AssetPolicyRow) (input : AssetPolicyEvaluationInput) :
    Result (Option AssetMechanismOption) :=
  match input.rail, row.bridgeOptions with
  | .bridge, some options =>
    match input.mechanism with
    | none => blocked "An exact bridge mechanism is required by the asset policy."
    | some mechanism =>
      match options.find? fun option => option.toMechanism = mechanism with
      | none => blocked "The bridge mechanism is not admitted by the asset policy."
      | some option => .ok (some option)
  | _, _ => .ok none

/-- The two caps, on the spend itself and on the day it joins. -/
def evaluateCaps (input : AssetPolicyEvaluationInput)
    (caps : AssetAtomicCaps) (perTransfer : ℕ) : Result AssetPolicyAdmission :=
  if perTransfer < input.amountAtomic then
    blocked "The transfer exceeds the asset policy per-transfer cap."
  else if caps.dailyLimitAtomic < input.dailyUsageAtomic ∨
      caps.dailyLimitAtomic < input.dailyUsageAtomic + input.amountAtomic then
    blocked "The transfer exceeds the asset policy daily cap."
  else .ok {
    policyDigest := registry.policyDigest
    registryVersion := registry.registryVersion
    chain := input.chain
    asset := input.asset
    rail := input.rail
    caps := ⟨perTransfer, caps.dailyLimitAtomic⟩
    amountAtomic := input.amountAtomic
    dailyUsageAtomic := input.dailyUsageAtomic
    dailyRemainingAtomic := caps.dailyLimitAtomic - input.dailyUsageAtomic - input.amountAtomic }

def evaluateRow (input : AssetPolicyEvaluationInput)
    (row : AssetPolicyRow) : Result AssetPolicyAdmission :=
  if ¬ row.rails input.rail then
    blocked "The selected rail is not admitted for this network and asset."
  else
    match registry.capsFor row input.rail with
    | none => invalid "The asset policy registry lacks caps for the admitted rail."
    | some caps =>
      if input.amountAtomic = 0 ∨ maxUint256 < input.amountAtomic then
        invalid "Transfer amount is invalid."
      else if maxUint256 < input.dailyUsageAtomic then invalid "Daily usage is invalid."
      else do
        let selected ← selectMechanism row input
        evaluateCaps registry input caps
          ((selected.map (·.maximumPerTransferAtomic)).getD caps.maximumPerTransferAtomic)

def evaluateAssetPolicy (addresses : Addresses) (registry : AssetPolicyRegistry)
    (input : AssetPolicyEvaluationInput) : Result AssetPolicyAdmission := do
  evaluateWindow registry input
  match registry.chains.find? fun c => c.chain = input.chain with
  | none => blocked "The network is not listed in the asset policy registry."
  | some chain =>
    if ¬ canonicalAsset addresses chain.family input.asset then
      invalid "Token identity must be a canonical contract or mint address."
    else
      match chain.assets.find? fun r => r.asset = input.asset with
      | none => blocked "The asset is not listed for this network."
      | some row => evaluateRow registry input row

-- What an admission says: the spend's own identity and amount, admitted under the registry's daily limit
-- together with the usage it was evaluated on.
theorem evaluateAssetPolicy_admitted {addresses : Addresses} {registry : AssetPolicyRegistry}
    {input : AssetPolicyEvaluationInput} {admission : AssetPolicyAdmission}
    (h : evaluateAssetPolicy addresses registry input = .ok admission) :
    admission.chain = input.chain ∧ admission.asset = input.asset ∧
      admission.amountAtomic = input.amountAtomic ∧
      admission.policyDigest = registry.policyDigest ∧
      admission.registryVersion = registry.registryVersion ∧
      (0 < input.amountAtomic ∧ input.amountAtomic ≤ maxUint256) ∧
      ∃ limit, registry.dailyLimit? input.chain input.asset input.rail = some limit ∧
        input.dailyUsageAtomic + input.amountAtomic ≤ limit := by
  unfold evaluateAssetPolicy at h
  obtain ⟨_, _, h⟩ := bind_ok.mp h
  split at h
  · simp at h
  rename_i chain hchain
  obtain ⟨_, h⟩ := invalid_guard.mp h
  split at h
  · simp at h
  rename_i row hrow
  unfold evaluateRow at h
  obtain ⟨_, h⟩ := blocked_guard.mp h
  split at h
  · simp at h
  rename_i caps hcaps
  obtain ⟨hamount, h⟩ := invalid_guard.mp h
  obtain ⟨_, h⟩ := invalid_guard.mp h
  obtain ⟨selected, _, h⟩ := bind_ok.mp h
  unfold evaluateCaps at h
  obtain ⟨_, h⟩ := blocked_guard.mp h
  obtain ⟨hdaily, h⟩ := blocked_guard.mp h
  have hlimit : registry.dailyLimit? input.chain input.asset input.rail
      = some caps.dailyLimitAtomic := by
    simp [AssetPolicyRegistry.dailyLimit?, AssetPolicyRegistry.row?, hchain, hrow, hcaps]
  cases h
  refine ⟨rfl, rfl, rfl, rfl, rfl, ?_, caps.dailyLimitAtomic, hlimit, ?_⟩ <;> omega

end PaymentNode
