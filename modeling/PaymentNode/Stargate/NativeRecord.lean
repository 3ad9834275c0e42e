import Mathlib.Data.List.Chain

/-!
# NativeRecord — the journal record of a native Stargate transfer

`StargateNativeOperation` is the record with every field the executor and the journal read.  `validateRecord` is
the check of every record that is read or written, `validateAdvance` the check of a record against the one it
replaces, and `accepts` both of them, as `save` makes them.  Amounts are the numbers their decimal texts spell.
-/

namespace PaymentNode

inductive StargateErrorCode
  | invalidInput
  | operationBlocked
  | rpcProtocol
  | rpcAmbiguous
  | chainMismatch
  | reprepareRequired
  | stateCorrupt
  | other
deriving DecidableEq, Repr

structure StargateError where
  code : StargateErrorCode
  reason : String
deriving DecidableEq, Repr

abbrev StargateResult (α : Type) := Except StargateError α

inductive StargateFinalityTag
  | safe
  | finalized
deriving DecidableEq, Repr

structure StargateChainFinalityPolicy where
  chainId : ℕ
  blockTag : StargateFinalityTag
deriving DecidableEq, Repr

structure StargateRouteFinalityPolicy where
  version : String
  source : StargateChainFinalityPolicy
  destination : StargateChainFinalityPolicy
deriving DecidableEq, Repr

inductive StargatePolicyProvenance
  | pinnedV2
  | other
deriving DecidableEq, Repr

inductive StargateNativeSchema
  | v2
  | v3
deriving DecidableEq, Repr

inductive StargateNativePhase
  | prepared
  | approved
  | submissionStarted
  | submitted
  | observed
  | unknownFinality
  | failedConfirmedRevert
deriving DecidableEq, Repr

structure StargateNativePolicyBinding where
  policyDigest : String
  policyRevision : ℕ
  provider : String
  reference : String
deriving DecidableEq, Repr

structure StargateNativeTransition where
  phase : StargateNativePhase
  at' : ℤ
  reason : String
deriving DecidableEq, Repr

structure StargateNativeEnvelope where
  chainId : ℕ
  sender : String
  target : String
  data : String
  value : ℕ
  nonce : ℕ
  gasLimit : ℕ
  maxFeePerGas : ℕ
  maxPriorityFeePerGas : ℕ
deriving DecidableEq, Repr

structure StargateRoute where
  sourceChainId : ℕ
  sourceEid : ℕ
  sourcePool : String
  destinationChainId : ℕ
  destinationEid : ℕ
  destinationPool : String
  asset : String
deriving DecidableEq, Repr

structure StargateBlock where
  number : ℕ
  hash : String
deriving DecidableEq, Repr

structure StargateQuote where
  route : StargateRoute
  amountSent : ℕ
  minimumOutput : ℕ
  nativeMessageFee : ℕ
  block : StargateBlock
deriving DecidableEq, Repr

structure StargateSourceReceipt where
  transactionHash : String
  block : StargateBlock
  finality : StargateFinalityTag
  guid : String
  amountSent : ℕ
  amountReceived : ℕ
  gasUsed : Option ℕ
  effectiveGasPrice : Option ℕ
deriving DecidableEq, Repr

structure StargateOftReceived where
  emitter : String
  sourceTransactionHash : String
  guid : String
  sourceEid : ℕ
  destinationTransactionHash : String
  logIndex : ℕ
  block : StargateBlock
  finality : StargateFinalityTag
  recipient : String
  amountReceived : ℕ
deriving DecidableEq, Repr

structure StargateBalanceDelta where
  block : StargateBlock
  finality : StargateFinalityTag
  recipient : String
  balanceBefore : ℕ
  balanceAfter : ℕ
  delta : ℕ
deriving DecidableEq, Repr

inductive StargateDestinationEvidence
  | oftReceived (e : StargateOftReceived)
  | balanceDelta (e : StargateBalanceDelta)
deriving DecidableEq, Repr

structure StargateNativeOperation where
  schemaVersion : StargateNativeSchema
  operationId : String
  profile : String
  profileHash : String
  idempotencyHash : String
  policy : Option StargateNativePolicyBinding
  owner : String
  recipient : String
  amount : ℕ
  maxNativeDebit : ℕ
  finalityPolicy : StargateRouteFinalityPolicy
  finalityPolicyProvenance : StargatePolicyProvenance
  quote : StargateQuote
  sourceCodeHash : String
  destinationCodeHash : String
  destinationBalanceBefore : ℕ
  destinationBalanceBlock : StargateBlock
  envelope : StargateNativeEnvelope
  totalValue : ℕ
  maximumDebit : ℕ
  preparedAt : ℤ
  expiresAt : ℤ
  phase : StargateNativePhase
  transitions : List StargateNativeTransition
  transactionHash : Option String
  guid : Option String
  sourceReceipt : Option StargateSourceReceipt
  destinationEvidence : Option StargateDestinationEvidence
deriving DecidableEq, Repr

def stargateTagByChain : ℕ → Option StargateFinalityTag
  | 1 | 10 | 130 | 8453 | 42161 | 43114 => some .safe
  | 137 => some .finalized
  | _ => none

def stargateV2FinalityPolicyVersion : String := "apn.stargate-v2-finality.v1"

def stargateV2RouteFinalityPolicy (sourceChainId destinationChainId : ℕ) :
    Option StargateRouteFinalityPolicy := do
  let source ← stargateTagByChain sourceChainId
  let destination ← stargateTagByChain destinationChainId
  return ⟨stargateV2FinalityPolicyVersion, ⟨sourceChainId, source⟩, ⟨destinationChainId, destination⟩⟩

namespace StargateNative

def sourceChain : ℕ := 1
def destinationChain : ℕ := 130
def sourceEid : ℕ := 30101
def destinationEid : ℕ := 30320
def sourcePool : String := "0x77b2043768d28E9C9aB44E1aBfC95944bcE57931"
def destinationPool : String := "0xe9aBA835f813ca05E50A6C0ce65D0D74390F7dE7"
def maxTtlMs : ℤ := 120000

def fail {α : Type} (code : StargateErrorCode) (reason : String) : StargateResult α :=
  .error ⟨code, reason⟩

/-- The phases in which the transaction may have been sent. -/
def marked : StargateNativePhase → Bool
  | .prepared | .approved => false
  | _ => true

def terminal : StargateNativePhase → Bool
  | .observed | .failedConfirmedRevert => true
  | _ => false

def transition (operation : StargateNativeOperation) (phase : StargateNativePhase) (reason : String)
    (at' : ℤ) : StargateNativeOperation :=
  { operation with phase := phase, transitions := operation.transitions ++ [⟨phase, at', reason⟩] }

/-- The place of a phase in the straight order, `none` for the two beside it. -/
def order : StargateNativePhase → Option ℕ
  | .prepared => some 0
  | .approved => some 1
  | .submissionStarted => some 2
  | .submitted => some 3
  | .observed => some 4
  | .unknownFinality | .failedConfirmedRevert => none

/-- One pair of neighbours in the list of transitions. -/
def admitted (a b : StargateNativePhase) : Bool :=
  if a = .failedConfirmedRevert then false
  else if b = .failedConfirmedRevert then
    a ∈ [.submissionStarted, .submitted, .unknownFinality]
  else if b = .unknownFinality then a ∈ [.submissionStarted, .submitted]
  else if a = .unknownFinality then b ∈ [.submitted, .observed]
  else
    match order a, order b with
    | some i, some j => i ≤ j && j ≤ i + 1
    | _, _ => false

def hexDigit (c : Char) : Bool := c.isDigit || ('a' ≤ c && c ≤ 'f')

def digestShape (text : String) : Bool :=
  let digits := text.toList
  digits.length = 64 && digits.all hexDigit

def assertPolicyBinding : Option StargateNativePolicyBinding → StargateResult Unit
  | none => fail .stateCorrupt "policy_binding"
  | some binding =>
    if ¬ digestShape binding.policyDigest ∨ binding.policyRevision < 1 then
      fail .stateCorrupt "policy_binding"
    else .ok ()

/-- The v3 record is bound to an owner admission; the v2 record was written before there was one. -/
def validatePolicyMember (record : StargateNativeOperation) : StargateResult Unit :=
  match record.schemaVersion with
  | .v3 => assertPolicyBinding record.policy
  | .v2 => if record.policy.isSome then fail .stateCorrupt "legacy_policy_field" else .ok ()

def validateRecord (record : StargateNativeOperation) : StargateResult Unit :=
  if record.transitions.getLast?.map (·.phase) ≠ some record.phase ∨
      record.operationId.toList.length ≠ 64 then
    fail .stateCorrupt "integrity"
  else if some record.finalityPolicy ≠ stargateV2RouteFinalityPolicy sourceChain destinationChain then
    fail .stateCorrupt "finality_policy"
  else if record.finalityPolicyProvenance ≠ .pinnedV2 then
    fail .stateCorrupt "finality_policy_provenance"
  else do
    validatePolicyMember record
    if ¬ record.transitions.IsChain (fun a b => admitted a.phase b.phase) then
      fail .stateCorrupt "transition"
    else .ok ()

/-- The members of a record that no advance may change. -/
def frozen (x : StargateNativeOperation) : StargateNativeOperation :=
  { x with phase := .prepared, transitions := [], transactionHash := none, guid := none,
           sourceReceipt := none, destinationEvidence := none }

def validateAdvance (previous : Option StargateNativeOperation) (next : StargateNativeOperation) :
    StargateResult Unit :=
  match previous with
  | none =>
    if next.phase ≠ .prepared ∨ next.transitions.length ≠ 1 then fail .stateCorrupt "initial_state"
    else .ok ()
  | some previous =>
    if frozen previous ≠ frozen next ∨ next.transitions.length < previous.transitions.length ∨
        next.transitions.take previous.transitions.length ≠ previous.transitions ∨
        (previous.transactionHash.isSome ∧ previous.transactionHash ≠ next.transactionHash) then
      fail .stateCorrupt "journal_rewrite"
    else .ok ()

/-- The checks of `save` on the record it is given and the one on disk. -/
def accepts (previous : Option StargateNativeOperation) (next : StargateNativeOperation) :
    StargateResult Unit := do
  validateRecord next
  validateAdvance previous next

/-! ## What the checks say -/

/-- What makes a record valid. -/
structure Valid (record : StargateNativeOperation) : Prop where
  last : record.transitions.getLast?.map (·.phase) = some record.phase
  operationId : record.operationId.toList.length = 64
  policy : some record.finalityPolicy = stargateV2RouteFinalityPolicy sourceChain destinationChain
  provenance : record.finalityPolicyProvenance = .pinnedV2
  binding : validatePolicyMember record = .ok ()
  chain : record.transitions.IsChain fun a b => admitted a.phase b.phase

/-- What makes a record an advance of the one before it. -/
structure Advances (previous next : StargateNativeOperation) : Prop where
  frozen : frozen previous = frozen next
  prior : previous.transitions <+: next.transitions
  hash : previous.transactionHash = none ∨ previous.transactionHash = next.transactionHash

theorem guard_ok {c : Prop} [Decidable c] {x : StargateResult Unit} {code : StargateErrorCode}
    {reason : String} : (if c then fail code reason else x) = .ok () ↔ ¬ c ∧ x = .ok () := by
  by_cases hc : c <;> simp [hc, fail]

theorem bind_unit_ok {x y : StargateResult Unit} :
    (x >>= fun _ => y) = .ok () ↔ x = .ok () ∧ y = .ok () := by
  cases x with
  | error e => simp [Bind.bind, Except.bind]
  | ok a => simp [Bind.bind, Except.bind]

theorem validateRecord_ok {record : StargateNativeOperation} :
    validateRecord record = .ok () ↔ Valid record := by
  unfold validateRecord
  rw [guard_ok, guard_ok, guard_ok, bind_unit_ok, guard_ok, not_or, not_not, not_not, not_not,
    not_not, not_not]
  constructor
  · rintro ⟨⟨hlast, hid⟩, hpolicy, hprovenance, hbinding, hchain, -⟩
    exact ⟨hlast, hid, hpolicy, hprovenance, hbinding, hchain⟩
  · intro h
    exact ⟨⟨h.last, h.operationId⟩, h.policy, h.provenance, h.binding, h.chain, rfl⟩

theorem validateAdvance_ok {previous next : StargateNativeOperation} :
    validateAdvance (some previous) next = .ok () ↔ Advances previous next := by
  unfold validateAdvance
  simp only [guard_ok, not_or, not_not, not_and, not_lt]
  constructor
  · rintro ⟨⟨hfrozen, -, htake, hhash⟩, -⟩
    refine ⟨hfrozen, ?_, ?_⟩
    · rw [← htake]
      exact List.take_prefix _ _
    · cases hprevious : previous.transactionHash with
      | none => exact Or.inl rfl
      | some hash => exact Or.inr (by rw [← hprevious]; exact hhash (by rw [hprevious]; rfl))
  · intro h
    refine ⟨⟨h.frozen, h.prior.length_le, (List.prefix_iff_eq_take.mp h.prior).symm, ?_⟩, trivial⟩
    intro hsome
    rcases h.hash with hnone | heq
    · rw [hnone] at hsome
      cases hsome
    · exact heq

theorem accepts_ok {previous next : StargateNativeOperation} :
    accepts (some previous) next = .ok () ↔ Valid next ∧ Advances previous next := by
  unfold accepts
  rw [bind_unit_ok, validateRecord_ok, validateAdvance_ok]

/-! ## The record after a step -/

section Steps

variable {o next : StargateNativeOperation} {t : StargateNativeTransition}

theorem Valid.of_frozen (h : Valid o) (hfrozen : frozen o = frozen next)
    (hlast : next.transitions.getLast?.map (·.phase) = some next.phase)
    (hchain : next.transitions.IsChain fun a b => admitted a.phase b.phase) : Valid next := by
  have hsame : ∀ {α : Type} (f : StargateNativeOperation → α), f (frozen o) = f (frozen next) :=
    fun f => by rw [hfrozen]
  have hid : o.operationId = next.operationId := hsame (·.operationId)
  have hpolicy : o.finalityPolicy = next.finalityPolicy := hsame (·.finalityPolicy)
  have hprovenance : o.finalityPolicyProvenance = next.finalityPolicyProvenance :=
    hsame (·.finalityPolicyProvenance)
  have hmember : validatePolicyMember o = validatePolicyMember next := hsame validatePolicyMember
  exact ⟨hlast, hid ▸ h.operationId, hpolicy ▸ h.policy, hprovenance ▸ h.provenance,
    hmember ▸ h.binding, hchain⟩

-- A record with one more transition is valid as far as its step is admitted.
theorem Valid.append (h : Valid o) (hfrozen : frozen o = frozen next)
    (htransitions : next.transitions = o.transitions ++ [t]) (hphase : next.phase = t.phase)
    (hadmitted : admitted o.phase t.phase) : Valid next := by
  apply h.of_frozen hfrozen
  · rw [htransitions, List.getLast?_concat, hphase]
    rfl
  · rw [htransitions, List.isChain_append]
    refine ⟨h.chain, List.isChain_singleton _, ?_⟩
    intro x hx y hy
    have hlast : some x.phase = some o.phase := by
      rw [← h.last, Option.mem_def.mp hx]
      rfl
    have hy' : t = y := by simpa using hy
    rw [← hy', Option.some.inj hlast]
    exact hadmitted

-- A record that keeps its phase and its transitions stays valid.
theorem Valid.restate (h : Valid o) (hfrozen : frozen o = frozen next)
    (htransitions : next.transitions = o.transitions) (hphase : next.phase = o.phase) :
    Valid next := by
  apply h.of_frozen hfrozen
  · rw [htransitions, hphase]
    exact h.last
  · rw [htransitions]
    exact h.chain

-- `save` takes a record with one more admitted transition.
theorem accepts_append (h : Valid o) (hfrozen : frozen o = frozen next)
    (htransitions : next.transitions = o.transitions ++ [t]) (hphase : next.phase = t.phase)
    (hhash : o.transactionHash = none ∨ o.transactionHash = next.transactionHash)
    (hadmitted : admitted o.phase t.phase) : accepts (some o) next = .ok () := by
  apply accepts_ok.mpr
  refine ⟨h.append hfrozen htransitions hphase hadmitted, hfrozen, ?_, hhash⟩
  rw [htransitions]
  exact List.prefix_append _ _

-- `save` takes a record that only learned more about the step it is at.
theorem accepts_restate (h : Valid o) (hfrozen : frozen o = frozen next)
    (htransitions : next.transitions = o.transitions) (hphase : next.phase = o.phase)
    (hhash : o.transactionHash = none ∨ o.transactionHash = next.transactionHash) :
    accepts (some o) next = .ok () := by
  apply accepts_ok.mpr
  refine ⟨h.restate hfrozen htransitions hphase, hfrozen, ?_, hhash⟩
  exact htransitions ▸ List.prefix_refl _

end Steps
end StargateNative
end PaymentNode
