import PaymentNode.Bridge.Record
import PaymentNode.Lib.Runs

/-!
# Reconstruct — the records a bridge operation went through, rebuilt from its last one

A transition carries a snapshot of everything that may change, less the envelopes; a later record carries every
transition before it.  `bridgeAtTransition` puts the record of a transition together again.  Here the record has
the read telemetry and the scan cursor too; its failure, intent and envelopes are carried as the journal has them.  The
canonical text of a record is the record, in which a field that is undefined is absent.
-/

namespace PaymentNode.BridgeJournal

inductive BridgeTelemetryStage
  | sourceObservation
  | destinationObservation
  | residualObservation
deriving DecidableEq, Repr

inductive BridgeTelemetryOutcome
  | success
  | missing
  | failure
deriving DecidableEq, Repr

structure BridgeObservationTelemetry where
  stage : BridgeTelemetryStage
  effectRole : BridgeRole
  outcome : BridgeTelemetryOutcome
  physicalRequests : ℕ
  httpAttempts : ℕ
  logicalRpcItems : ℕ
  batchCount : ℕ
  maxBatchSize : ℕ
  budgetRejectedBeforeTransport : ℕ
  attemptsByEndpointRole : ℕ × ℕ × ℕ
  attemptsByMethodClass : List (String × ℕ)
deriving DecidableEq, Repr

structure BridgeDestinationScan where
  startBlock : BridgeBlock
  nextBlockAtomic : ℕ
  previousEndBlock : Option BridgeBlock
deriving DecidableEq, Repr

/-- An envelope and its digest. -/
structure HashedEnvelope extends BridgeEnvelope where
  envelopeHash : String
deriving DecidableEq, Repr

structure Effect where
  role : BridgeRole
  envelope : HashedEnvelope
  body : BridgeEffect
deriving DecidableEq, Repr

structure BridgeEffectSnapshot where
  role : BridgeRole
  body : BridgeEffect
  envelopeHash : String
deriving DecidableEq, Repr

/-- What a patch may change, over effects of one kind or the other. -/
structure Fields (ε : Type) where
  state : BridgeState
  approval : Option BridgeConsent
  effects : List ε
  sourceProof : Option BridgeSourceProof
  destinationProof : Option BridgeDestinationProof
  providerObservation : Option BridgeProviderObservation
  destinationScan : BridgeDestinationScan
  failure : Option BridgeFailure
  usageLease : Option BridgeUsageLease
  observationTelemetry : Option (List BridgeObservationTelemetry)
deriving DecidableEq, Repr

abbrev Mutable := Fields Effect

abbrev Snapshot := Fields BridgeEffectSnapshot

structure Transition extends Snapshot where
  at' : ℤ
  previousHash : String
  transitionHash : String
deriving DecidableEq, Repr

/-- What prepare froze, less the effects. -/
structure Frozen where
  profileHash : String
  operationId : String
  idempotencyHash : String
  requestHash : String
  intent : BridgeIntent
  destinationStartBlock : BridgeBlock
deriving DecidableEq, Repr

/-- A record without its integrity hash. -/
structure Body extends Mutable where
  frozen : Frozen
  fingerprint : String
  createdAt : ℤ
  updatedAt : ℤ
  terminal : Bool
  transitions : List Transition
deriving DecidableEq, Repr

structure Record extends Body where
  integrityHash : String
deriving DecidableEq, Repr

/-- The keys of a patch: absent, or present with a value; the telemetry may be present and undefined. -/
structure Patch where
  state : Option BridgeState := none
  approval : Option (Option BridgeConsent) := none
  effects : Option (List Effect) := none
  sourceProof : Option (Option BridgeSourceProof) := none
  destinationProof : Option (Option BridgeDestinationProof) := none
  providerObservation : Option (Option BridgeProviderObservation) := none
  destinationScan : Option BridgeDestinationScan := none
  failure : Option (Option BridgeFailure) := none
  usageLease : Option (Option BridgeUsageLease) := none
  observationTelemetry : Option (Option (List BridgeObservationTelemetry)) := none
deriving DecidableEq, Repr

/-- The digests of a record, the length of its text, and its validator, which only refuses. -/
structure Codec where
  fingerprint : Frozen → List HashedEnvelope → String
  transitionHash : Snapshot → ℤ → String → String
  integrityHash : Body → String
  byteLength : Record → ℕ
  validate : Record → Result Unit

section

variable (codec : Codec)

/-- `{ ...op, ...patch }` -/
def Patch.on (patch : Patch) (m : Mutable) : Mutable where
  state := patch.state.getD m.state
  approval := patch.approval.getD m.approval
  effects := patch.effects.getD m.effects
  sourceProof := patch.sourceProof.getD m.sourceProof
  destinationProof := patch.destinationProof.getD m.destinationProof
  providerObservation := patch.providerObservation.getD m.providerObservation
  destinationScan := patch.destinationScan.getD m.destinationScan
  failure := patch.failure.getD m.failure
  usageLease := patch.usageLease.getD m.usageLease
  observationTelemetry := patch.observationTelemetry.getD m.observationTelemetry

def bridgeTelemetryRows : ℕ := 8

/-- `slice(-BRIDGE_TELEMETRY_ROWS)` -/
def latestRows (rows : List BridgeObservationTelemetry) : List BridgeObservationTelemetry :=
  rows.drop (rows.length - bridgeTelemetryRows)

def boundTelemetry (m : Mutable) : Mutable :=
  { m with observationTelemetry := m.observationTelemetry.map latestRows }

def Effect.snapshot (e : Effect) : BridgeEffectSnapshot := ⟨e.role, e.body, e.envelope.envelopeHash⟩

/-- The same fields over other effects. -/
def Fields.withEffects {ε ζ : Type} (m : Fields ε) (effects : List ζ) : Fields ζ where
  state := m.state
  approval := m.approval
  effects := effects
  sourceProof := m.sourceProof
  destinationProof := m.destinationProof
  providerObservation := m.providerObservation
  destinationScan := m.destinationScan
  failure := m.failure
  usageLease := m.usageLease
  observationTelemetry := m.observationTelemetry

def bridgeSnapshot (m : Mutable) : Snapshot := m.withEffects (m.effects.map Effect.snapshot)

def sealBridgeOperation (body : Body) : Record := ⟨body, codec.integrityHash body⟩

def bridgeFailure {α : Type} (code : ApnErrorCode) (reason : String) : Result α :=
  .error ⟨code, "Bridge validation failed: " ++ reason ++ "."⟩

def newTransition (s : Snapshot) (at' : ℤ) (previousHash : String) : Transition :=
  ⟨s, at', previousHash, codec.transitionHash s at' previousHash⟩

/-- The first fields of a record. -/
def preparedFields (frozen : Frozen) (effects : List Effect) : Mutable where
  state := .awaitingApproval
  approval := none
  effects := effects
  sourceProof := none
  destinationProof := none
  providerObservation := none
  destinationScan := ⟨frozen.destinationStartBlock, frozen.destinationStartBlock.numberAtomic, none⟩
  failure := none
  usageLease := none
  observationTelemetry := some []

def newBridgeOperation (frozen : Frozen) (effects : List Effect) : Result Record := do
  let fingerprint := codec.fingerprint frozen (effects.map (·.envelope))
  let fields := preparedFields frozen effects
  let result := sealBridgeOperation codec {
    toFields := fields
    frozen := frozen
    fingerprint := fingerprint
    createdAt := frozen.intent.preparedAt
    updatedAt := frozen.intent.preparedAt
    terminal := false
    transitions := [newTransition codec (bridgeSnapshot fields) frozen.intent.preparedAt fingerprint] }
  codec.validate result
  return result

/-- Poll timestamps and read telemetry alone are not evidence changes. -/
def observationMeaning (s : Snapshot) : Snapshot :=
  { s with
    observationTelemetry := none
    providerObservation := s.providerObservation.map fun p => { p with observedAt := 0, responseHash := none } }

/-- `next` equals `previous` or appends exactly one transition to it. -/
def assertBridgeAppend (previous next : Record) : Result Unit :=
  if previous = next then .ok ()
  else if previous.terminal ∨ previous.fingerprint ≠ next.fingerprint ∨
      next.transitions.length ≠ previous.transitions.length + 1 ∨
      previous.transitions ≠ next.transitions.dropLast then
    bridgeFailure .stateCorrupt "durable_bridge_binding"
  else .ok ()

def validateBridgeContinuity (previous next : Record) : Result Unit := do
  codec.validate previous
  codec.validate next
  assertBridgeAppend previous next

def maxTransitions : ℕ := 512

def maxRecordBytes : ℕ := 1024 * 1024

/-- The record with one more transition to the given fields. -/
def appended (op : Record) (next : Mutable) (at' : ℤ) (last : Transition) : Record :=
  sealBridgeOperation codec { op.toBody with
    toFields := next
    updatedAt := at'
    terminal := next.state.terminal
    transitions := op.transitions ++ [newTransition codec (bridgeSnapshot next) at' last.transitionHash] }

def transitionBridge (op : Record) (patch : Patch) (at' : ℤ) : Result Record :=
  let next := boundTelemetry (patch.on op.toFields)
  if observationMeaning (bridgeSnapshot op.toFields) = observationMeaning (bridgeSnapshot next) then .ok op
  else if maxTransitions ≤ op.transitions.length then bridgeFailure .operationBlocked "bridge_history_capacity"
  else
    match op.transitions.getLast? with
    | none => bridgeFailure .stateCorrupt "durable_bridge_binding"
    | some last =>
      let result := appended codec op next at' last
      if maxRecordBytes < codec.byteLength result + 1 then bridgeFailure .operationBlocked "bridge_record_capacity"
      else do
        validateBridgeContinuity codec op result
        return result

/-- The effect of a snapshot, under the envelope of its place. -/
def BridgeEffectSnapshot.under (e : BridgeEffectSnapshot) (current : Effect) : Effect :=
  ⟨e.role, current.envelope, e.body⟩

def bridgeAtTransition (op : Record) (index : ℕ) : Result Record :=
  match op.transitions[index]? with
  | none => bridgeFailure .stateCorrupt "bridge_history_index"
  | some s =>
    if op.effects.length < s.effects.length then corrupt "Cannot read properties of undefined."
    else .ok (sealBridgeOperation codec { op.toBody with
      toFields := s.toFields.withEffects (s.effects.zipWith BridgeEffectSnapshot.under op.effects)
      updatedAt := s.at'
      terminal := s.state.terminal
      transitions := op.transitions.take (index + 1) })

/-- No patch changes an envelope. -/
def KeepsEnvelopes (op : Record) (patch : Patch) : Prop :=
  (patch.on op.toFields).effects.map (·.envelope) = op.effects.map (·.envelope)

instance (op : Record) (patch : Patch) : Decidable (KeepsEnvelopes op patch) :=
  inferInstanceAs (Decidable (_ = _))

/-- One call of `transitionBridge` that does not throw. -/
def BridgeStep (op : Record) (call : Patch × ℤ) (next : Record) : Prop :=
  KeepsEnvelopes op call.1 ∧ transitionBridge codec op call.1 call.2 = .ok next

/-- The same status and transaction, whenever the provider was asked. -/
def SamePoll : Option BridgeProviderObservation → Option BridgeProviderObservation → Prop
  | none, none => True
  | some p, some q => p.status = q.status ∧ p.destinationTransactionHash = q.destinationTransactionHash
  | _, _ => False

/-- The patch changes nothing but the telemetry, and when and with which response the provider was asked. -/
structure ChangesPollsOnly (m next : Mutable) : Prop where
  state : next.state = m.state
  approval : next.approval = m.approval
  effects : next.effects = m.effects
  sourceProof : next.sourceProof = m.sourceProof
  destinationProof : next.destinationProof = m.destinationProof
  providerObservation : SamePoll m.providerObservation next.providerObservation
  destinationScan : next.destinationScan = m.destinationScan
  failure : next.failure = m.failure
  usageLease : next.usageLease = m.usageLease

/-! ## What a record carries -/

variable {codec} {op next final : Record} {patch : Patch} {at' : ℤ}

/-- A record is sealed over its last transition, whose snapshot is its own. -/
structure Current (codec : Codec) (op : Record) : Prop where
  last : ∃ earlier t, op.transitions = earlier ++ [t] ∧ t.toFields = bridgeSnapshot op.toFields ∧ t.at' = op.updatedAt
  terminal : op.terminal = op.state.terminal
  sealed' : op.integrityHash = codec.integrityHash op.toBody

/-- What a later record keeps of an earlier one. -/
structure Carries (final op : Record) : Prop where
  frozen : final.frozen = op.frozen
  fingerprint : final.fingerprint = op.fingerprint
  createdAt : final.createdAt = op.createdAt
  envelopes : final.effects.map (·.envelope) = op.effects.map (·.envelope)
  transitions : op.transitions <+: final.transitions

theorem Carries.refl (op : Record) : Carries op op := ⟨rfl, rfl, rfl, rfl, List.prefix_rfl⟩

theorem Carries.trans {a b c : Record} (h : Carries b a) (h' : Carries c b) : Carries c a :=
  ⟨h'.frozen.trans h.frozen, h'.fingerprint.trans h.fingerprint, h'.createdAt.trans h.createdAt,
    h'.envelopes.trans h.envelopes, h.transitions.trans h'.transitions⟩

-- The snapshots of effects, under the same envelopes, are the effects.
theorem zipWith_under : ∀ {es fs : List Effect}, fs.map (·.envelope) = es.map (·.envelope) →
    (es.map Effect.snapshot).zipWith BridgeEffectSnapshot.under fs = es
  | [], [], _ => rfl
  | [], _ :: _, h => by simp at h
  | _ :: _, [], h => by simp at h
  | e :: es, f :: fs, h => by
    simp only [List.map_cons, List.cons.injEq] at h
    rw [List.map_cons, List.zipWith_cons_cons, zipWith_under h.2]
    show (⟨e.role, f.envelope, e.body⟩ : Effect) :: es = e :: es
    rw [h.1]

/-- **A record is rebuilt from any later one.** -/
theorem bridgeAtTransition_of_carries (hcurrent : Current codec op) (hcarries : Carries final op) :
    bridgeAtTransition codec final (op.transitions.length - 1) = .ok op := by
  rcases hcurrent.last with ⟨earlier, t, htransitions, hsnapshot, hat⟩
  rcases hcarries.transitions with ⟨later, hlater⟩
  have hindex : op.transitions.length - 1 = earlier.length := by
    rw [htransitions, List.length_append, List.length_singleton]
    omega
  have hfound : final.transitions[earlier.length]? = some t := by
    rw [← hlater, htransitions, List.append_assoc, List.getElem?_append_right (Nat.le_refl _), Nat.sub_self]
    rfl
  have htake : final.transitions.take (earlier.length + 1) = op.transitions := by
    have hlength : earlier.length + 1 = op.transitions.length := by
      rw [htransitions, List.length_append, List.length_singleton]
    rw [← hlater, hlength, List.take_left']
    rfl
  have heffects : t.effects = op.effects.map Effect.snapshot := by
    rw [hsnapshot]
    rfl
  have hcount : final.effects.length = op.effects.length := by
    have hlengths := congrArg List.length hcarries.envelopes
    simpa only [List.length_map] using hlengths
  have hstate : t.state = op.state := by
    rw [hsnapshot]
    rfl
  unfold bridgeAtTransition
  rw [hindex, hfound]
  dsimp only
  rw [if_neg (by rw [heffects, List.length_map, hcount]; omega), heffects, zipWith_under hcarries.envelopes, htake,
    hsnapshot, hat, hcarries.frozen, hcarries.fingerprint, hcarries.createdAt]
  have hterminal := hcurrent.terminal
  have hsealed := hcurrent.sealed'
  rcases op with ⟨⟨fields, frozen, fingerprint, createdAt, updatedAt, terminal, transitions⟩, integrityHash⟩
  rcases fields
  simp only at hterminal hsealed
  simp only [bridgeSnapshot, Fields.withEffects, sealBridgeOperation]
  rw [hsealed, hterminal]

theorem current_new {frozen : Frozen} {effects : List Effect} (h : newBridgeOperation codec frozen effects = .ok op) :
    Current codec op ∧ op.transitions.length = 1 := by
  rcases bind_ok.mp h with ⟨_, _, h⟩
  cases h
  exact ⟨⟨⟨[], _, rfl, rfl, rfl⟩, rfl, rfl⟩, rfl⟩

-- A call answers the record it was given, or one with one more transition.
theorem transitionBridge_ok (h : transitionBridge codec op patch at' = .ok next) :
    (next = op ∧ observationMeaning (bridgeSnapshot op.toFields) =
        observationMeaning (bridgeSnapshot (boundTelemetry (patch.on op.toFields)))) ∨
      ∃ last, next = appended codec op (boundTelemetry (patch.on op.toFields)) at' last := by
  unfold transitionBridge at h
  dsimp only at h
  split at h
  · cases h
    exact Or.inl ⟨rfl, ‹_›⟩
  split at h
  · cases h
  split at h
  · cases h
  rename_i last _
  split at h
  · cases h
  · rcases bind_ok.mp h with ⟨_, _, h⟩
    cases h
    exact Or.inr ⟨last, rfl⟩

theorem current_appended {fields : Mutable} {last : Transition} : Current codec (appended codec op fields at' last) :=
  ⟨⟨op.transitions, _, rfl, rfl, rfl⟩, rfl, rfl⟩

variable {call : Patch × ℤ}

theorem carries_step (h : BridgeStep codec op call next) : Carries next op := by
  rcases h with ⟨henvelopes, hok⟩
  rcases transitionBridge_ok hok with ⟨rfl, _⟩ | ⟨last, rfl⟩
  · exact Carries.refl next
  · exact ⟨rfl, rfl, rfl, henvelopes, List.prefix_append _ _⟩

theorem current_step (hcurrent : Current codec op) (h : BridgeStep codec op call next) :
    Current codec next := by
  rcases transitionBridge_ok h.2 with ⟨rfl, _⟩ | ⟨last, rfl⟩
  · exact hcurrent
  · exact current_appended

theorem length_step (h : BridgeStep codec op call next) :
    next = op ∨ next.transitions.length = op.transitions.length + 1 := by
  rcases transitionBridge_ok h.2 with ⟨rfl, _⟩ | ⟨last, rfl⟩
  · exact Or.inl rfl
  · right
    show (op.transitions ++ [_]).length = _
    rw [List.length_append, List.length_singleton]

/-! ## Runs -/

variable {calls : List (Patch × ℤ)}

theorem carries_run (h : Runs.Run (BridgeStep codec) op calls final) : Carries final op :=
  h.invariant (I := fun r => Carries r op) (Carries.refl op) fun _ _ _ hcarries hstep =>
    hcarries.trans (carries_step hstep)

theorem current_run (hcurrent : Current codec op) (h : Runs.Run (BridgeStep codec) op calls final) :
    Current codec final :=
  h.invariant hcurrent fun _ _ _ hcurrent hstep => current_step hcurrent hstep

-- Every transition was appended by a call of the run, or was there at its start.
theorem appended_during (h : Runs.Run (BridgeStep codec) op calls final) (count : ℕ)
    (hlow : op.transitions.length ≤ count) (hhigh : count ≤ final.transitions.length) :
    ∃ earlier later mid, calls = earlier ++ later ∧ Runs.Run (BridgeStep codec) op earlier mid ∧
      Runs.Run (BridgeStep codec) mid later final ∧ mid.transitions.length = count := by
  induction h with
  | refl => exact ⟨[], [], _, rfl, Runs.Run.refl, Runs.Run.refl, by omega⟩
  | @snoc t u ls l hrun hlast ih =>
    by_cases hdone : count ≤ t.transitions.length
    · rcases ih hdone with ⟨earlier, later, mid, rfl, hbefore, hafter, hcount⟩
      exact ⟨earlier, later ++ [l], mid, by rw [List.append_assoc], hbefore, Runs.Run.snoc hafter hlast, hcount⟩
    · have hsame : u.transitions.length = count := by
        rcases length_step hlast with rfl | hone <;> omega
      exact ⟨ls ++ [l], [], u, by rw [List.append_nil], Runs.Run.snoc hrun hlast, Runs.Run.refl, hsame⟩

/-! ## Patches that change nothing -/

theorem effects_of_snapshots : ∀ {es fs : List Effect}, fs.map (·.envelope) = es.map (·.envelope) →
    es.map Effect.snapshot = fs.map Effect.snapshot → fs = es := by
  intro es fs henvelopes hsnapshots
  have hself : (fs.map Effect.snapshot).zipWith BridgeEffectSnapshot.under fs = fs := zipWith_under rfl
  rw [← hsnapshots, zipWith_under henvelopes] at hself
  exact hself.symm

theorem samePoll_iff {p q : Option BridgeProviderObservation} :
    p.map (fun p => { p with observedAt := 0, responseHash := none }) =
      q.map (fun p => ({ p with observedAt := 0, responseHash := none } : BridgeProviderObservation)) ↔
    SamePoll p q := by
  cases p <;> cases q <;> simp [SamePoll]

theorem meaning_iff (henvelopes : KeepsEnvelopes op patch) :
    observationMeaning (bridgeSnapshot op.toFields) =
        observationMeaning (bridgeSnapshot (boundTelemetry (patch.on op.toFields))) ↔
      ChangesPollsOnly op.toFields (patch.on op.toFields) := by
  constructor
  · intro h
    simp only [observationMeaning, bridgeSnapshot, Fields.withEffects, boundTelemetry, Fields.mk.injEq] at h
    rcases h with ⟨hstate, happroval, heffects, hsource, hdestination, hprovider, hscan, hfailure, hlease, -⟩
    exact ⟨hstate.symm, happroval.symm, effects_of_snapshots henvelopes heffects, hsource.symm, hdestination.symm,
      samePoll_iff.mp hprovider, hscan.symm, hfailure.symm, hlease.symm⟩
  · intro h
    simp only [observationMeaning, bridgeSnapshot, Fields.withEffects, boundTelemetry, Fields.mk.injEq]
    exact ⟨h.state.symm, h.approval.symm, by rw [h.effects], h.sourceProof.symm, h.destinationProof.symm,
      samePoll_iff.mpr h.providerObservation, h.destinationScan.symm, h.failure.symm, h.usageLease.symm, trivial⟩

theorem unchanged_iff (henvelopes : KeepsEnvelopes op patch) :
    transitionBridge codec op patch at' = .ok op ↔ ChangesPollsOnly op.toFields (patch.on op.toFields) := by
  rw [← meaning_iff henvelopes]
  constructor
  · intro h
    rcases transitionBridge_ok h with ⟨_, hmeaning⟩ | ⟨last, hnext⟩
    · exact hmeaning
    · have hlength := congrArg (fun r : Record => r.transitions.length) hnext
      have hmore : (appended codec op (boundTelemetry (patch.on op.toFields)) at' last).transitions.length =
          op.transitions.length + 1 := by
        show (op.transitions ++ [_]).length = _
        rw [List.length_append, List.length_singleton]
      simp only [hmore] at hlength
      omega
  · intro h
    unfold transitionBridge
    dsimp only
    rw [if_pos h]

/-- **Bridge history is reconstructible**: every record a run of patches went through is rebuilt, whole, from its
last one, and a call answers the record it was given exactly where the patch changes polls only. -/
theorem bridge_history_reconstructible {frozen : Frozen} {effects : List Effect} {first : Record}
    (hnew : newBridgeOperation codec frozen effects = .ok first)
    (hrun : Runs.Run (BridgeStep codec) first calls final) :
    (∀ earlier later mid, Runs.Run (BridgeStep codec) first earlier mid →
        Runs.Run (BridgeStep codec) mid later final → 0 < mid.transitions.length ∧
          bridgeAtTransition codec final (mid.transitions.length - 1) = .ok mid) ∧
      (∀ index, index < final.transitions.length → ∃ earlier later mid, calls = earlier ++ later ∧
        Runs.Run (BridgeStep codec) first earlier mid ∧ Runs.Run (BridgeStep codec) mid later final ∧
          mid.transitions.length = index + 1 ∧ bridgeAtTransition codec final index = .ok mid) ∧
      ∀ patch at', KeepsEnvelopes final patch →
        (transitionBridge codec final patch at' = .ok final ↔
          ChangesPollsOnly final.toFields (patch.on final.toFields)) := by
  rcases current_new hnew with ⟨hcurrent, hone⟩
  refine ⟨?_, ?_, fun patch at' henvelopes => unchanged_iff henvelopes⟩
  · intro earlier later mid hbefore hafter
    have hkept := (carries_run hbefore).transitions.length_le
    exact ⟨by omega, bridgeAtTransition_of_carries (current_run hcurrent hbefore) (carries_run hafter)⟩
  · intro index hindex
    rcases appended_during hrun (index + 1) (by omega) hindex with
      ⟨earlier, later, mid, hcalls, hbefore, hafter, hcount⟩
    have hrebuilt := bridgeAtTransition_of_carries (current_run hcurrent hbefore) (carries_run hafter)
    rw [hcount, Nat.add_sub_cancel] at hrebuilt
    exact ⟨earlier, later, mid, hcalls, hbefore, hafter, hcount, hrebuilt⟩

end

namespace Journey

def codec : Codec where
  fingerprint frozen _ := frozen.operationId
  transitionHash s _ previousHash := previousHash ++ (if s.observationTelemetry.isNone then "-" else "+")
  integrityHash body := body.fingerprint
  byteLength _ := 1000
  validate _ := .ok ()

def frozen : Frozen where
  profileHash := "p"
  operationId := "o"
  idempotencyHash := "i"
  requestHash := "r"
  intent := ⟨"o", "o", .across, ⟨1, 10, "0x1", "0x2", 5, "0x3", 4⟩, ⟨5, 0, 4, none⟩,
    ⟨1, "0x4", "0x5", 0, "d", 7, 100, 10, 1⟩, ⟨1, "0x4", "0x6", 0, "d", 8, 100, 10, 1⟩, 0, 300000, none⟩
  destinationStartBlock := ⟨50, "0x7", 1⟩

def effects : List Effect := [⟨.bridge, ⟨⟨1, "0x4", "0x6", 0, "d", 8, 100, 10, 1⟩, "e"⟩, newBridgeEffect⟩]

def telemetry (requests : ℕ) : BridgeObservationTelemetry :=
  ⟨.sourceObservation, .bridge, .missing, requests, requests, 1, 1, 1, 0, (requests, 0, 0), []⟩

def polled (at' : ℤ) : BridgeProviderObservation := ⟨.pending, none, at', some "h"⟩

/-- An approval with nine rows of telemetry, rows alone, a first poll, a poll alone, and a source that is pending
with the telemetry gone. -/
def calls : List (Patch × ℤ) :=
  [({ state := some .executionPending, approval := some (some ⟨"o", 1, 2⟩),
      observationTelemetry := some (some ((List.range 9).map telemetry)) }, 1),
    ({ observationTelemetry := some (some [telemetry 9]) }, 2),
    ({ providerObservation := some (some (polled 3)) }, 3),
    ({ providerObservation := some (some (polled 4)) }, 4),
    ({ state := some .sourcePending, observationTelemetry := some none }, 5)]

def taken (op : Record) (call : Patch × ℤ) : Option Record :=
  if KeepsEnvelopes op call.1 then (transitionBridge codec op call.1 call.2).toOption else none

theorem taken_step {op next : Record} {call : Patch × ℤ} (h : taken op call = some next) :
    BridgeStep codec op call next := by
  unfold taken at h
  split at h
  · case isTrue hkeeps =>
    refine ⟨hkeeps, ?_⟩
    cases hcall : transitionBridge codec op call.1 call.2 with
    | error e => rw [hcall] at h; cases h
    | ok r => rw [hcall] at h; cases h; rfl
  · cases h

/-- The record at the end of the calls. -/
def played : Option Record :=
  (newBridgeOperation codec frozen effects).toOption.bind fun first => Runs.play taken first calls

theorem played_history : played.map (·.transitions.length) = some 4 := by decide +kernel

end Journey

open Journey in
theorem journey_reconstructed : ∃ first final, newBridgeOperation codec frozen effects = .ok first ∧
    final.transitions.length = 4 ∧ ∀ index, index < 4 → ∃ earlier later mid, calls = earlier ++ later ∧
      Runs.Run (BridgeStep codec) first earlier mid ∧ mid.transitions.length = index + 1 ∧
        bridgeAtTransition codec final index = .ok mid := by
  rcases Option.map_eq_some_iff.mp played_history with ⟨final, hplayed, hlength⟩
  rcases Option.bind_eq_some_iff.mp hplayed with ⟨first, hfirst, hplay⟩
  have hnew : newBridgeOperation codec frozen effects = .ok first := by
    cases hprepared : newBridgeOperation codec frozen effects with
    | error e => rw [hprepared] at hfirst; cases hfirst
    | ok r => rw [hprepared] at hfirst; cases hfirst; rfl
  have hrun : Runs.Run (BridgeStep codec) first calls final :=
    (Runs.run_of_play hplay).mono fun _ _ _ => taken_step
  refine ⟨first, final, hnew, hlength, fun index hindex => ?_⟩
  rcases (bridge_history_reconstructible hnew hrun).2.1 index (by omega) with
    ⟨earlier, later, mid, hcalls, hbefore, -, hcount, hrebuilt⟩
  exact ⟨earlier, later, mid, hcalls, hbefore, hcount, hrebuilt⟩

end PaymentNode.BridgeJournal
