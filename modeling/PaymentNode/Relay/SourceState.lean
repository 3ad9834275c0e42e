import PaymentNode.Relay.Source

/-!
# SourceState — what every run of a Relay source keeps

`Kept` says what holds of the two effects in every run: each is signed at most once and sent at most once, from
the bytes in custody and over the journal that carries their hash.  `Follows` is the simulation of the journal
by the usage hold: `lags` lists the hold's states for each pair of phases, a call behind at most.  It holds in
runs whose steps meet `Meets`.
-/

namespace PaymentNode.RelaySource

open Solo RelayEffects

variable {H : LedgerHash} {w : RelaySetting} {s : Shared H} {role other : RelayEffectRole}
  {j : RelayEffectJournal} {next : RelayEffect} {event : RelayEffectEvent} {e : Event} {log l : List Event}
  {full : Prop}

/-! ## What the log says -/

def isSigned (role : RelayEffectRole) : Event → Bool
  | .signed r _ => r = role
  | _ => false

def isSent (role : RelayEffectRole) : Event → Bool
  | .sent r _ _ _ => r = role
  | _ => false

/-- How often the signer was called for an effect. -/
def signs (role : RelayEffectRole) (log : List Event) : ℕ := log.countP (isSigned role)

def sends (role : RelayEffectRole) (log : List Event) : ℕ := log.countP (isSent role)

/-- The deposit is signed while the approval is confirmed; bytes are sent from custody, over a journal at
`submitting` with their hash. -/
def Lawful (w : RelaySetting) : Event → Prop
  | .signed role journal => role = .deposit →
      ∃ j, journal = some j ∧ (j.effects .approval).phase = .confirmed
  | .sent role raw slot journal => ∃ m j, slot = some m ∧ m.rawTransaction = raw ∧ journal = some j ∧
      (j.effects role).phase = .submitting ∧ (j.effects role).transactionHash = some (w.hash.keccak256 raw)
  | _ => True

/-! ## The invariant -/

def phaseOf (journal : Option RelayEffectJournal) (role : RelayEffectRole) : RelayEffectPhase :=
  match journal with
  | none => .pending
  | some j => (j.effects role).phase

/-- The phases of an effect that may have been sent. -/
def crossed : RelayEffectPhase → Bool
  | .submitting | .confirmed | .failed => true
  | _ => false

structure Kept (w : RelaySetting) (s : Shared H) : Prop where
  valid : ∀ j, s.journal = some j → Valid w.hash.journal w.op j
  lawful : ∀ e ∈ s.log, Lawful w e
  signs : ∀ role, signs role s.log ≤ 1
  unsigned : ∀ role, phaseOf s.journal role = .pending → RelaySource.signs role s.log = 0
  sends : ∀ role, sends role s.log ≤ 1
  unsent : ∀ role, crossed (phaseOf s.journal role) = false → RelaySource.sends role s.log = 0
  bytes : ∀ role m, s.slots role = some m → m.transactionHash = w.hash.keccak256 m.rawTransaction
  custody : ∀ role j hash, s.journal = some j → (j.effects role).phase ≠ .abandonedUnsent →
    (j.effects role).transactionHash = some hash → ∃ m, s.slots role = some m ∧ m.transactionHash = hash

/-- The states a hold can be left in by a call that was cut: those of the journal, or of the journal before. -/
def lags : RelayEffectPhase → RelayEffectPhase → Option AssetUsageState → Prop
  | .pending, _, state => state = none ∨ state = some .reserved ∨ state = some .failedBeforeEffect
  | .signingStarted, _, state | .sealed, _, state => state = some .reserved
  | .submitting, _, state | .confirmed, .pending, state => state = some .reserved ∨ state = some .submitted
  | .confirmed, .signingStarted, state | .confirmed, .sealed, state | .confirmed, .submitting, state =>
    state = some .submitted
  | .confirmed, .confirmed, state => state = some .submitted ∨ state = some .finalized
  | .confirmed, .failed, state | .confirmed, .abandonedUnsent, state | .failed, _, state =>
    state = some .submitted ∨ state = some .failedConfirmedRevert
  | .abandonedUnsent, _, state => state = some .reserved ∨ state = some .failedBeforeEffect

/-- The operation's own row, under its own policy. -/
structure Own (w : RelaySetting) (r : Reservation H) : Prop where
  reservationId : r.reservationId = w.usageKey.reservationId H
  policyDigest : r.policyDigest = w.op.policyDigest
  plain : PlainHold w.usageIdentity r.toReservationBody

def stateOf (row : Option (Reservation H)) : Option AssetUsageState := row.map fun r => r.state

structure Follows (w : RelaySetting) (s : Shared H) : Prop where
  own : ∀ r, s.row = some r → Own w r
  lags : lags (phaseOf s.journal .approval) (phaseOf s.journal .deposit) (stateOf s.row)
  refused : ∀ input, .refused input ∉ s.log

/-- `full` says whether the hold is followed too. -/
structure Inv (full : Prop) (w : RelaySetting) (s : Shared H) : Prop where
  kept : Kept w s
  follows : full → Follows w s

theorem inv_start : Inv full w (Shared.start : Shared H) := by
  have hnone : ∀ e : Event, e ∉ (Shared.start : Shared H).log := fun e => List.not_mem_nil
  refine ⟨⟨?_, ?_, fun _ => Nat.zero_le _, fun _ _ => rfl, fun _ => Nat.zero_le _, fun _ _ => rfl, ?_, ?_⟩,
    fun _ => ⟨?_, Or.inl rfl, fun input => hnone _⟩⟩
  · exact fun j hj => nomatch hj
  · exact fun e he => absurd he (hnone e)
  · exact fun role m hm => nomatch hm
  · exact fun role j hash hj => nomatch hj
  · exact fun r hr => nomatch hr

/-! ## The condition -/

/-- The outcome an observation of this effect reads. -/
def Fails (w : RelaySetting) (hash : String) (answer : RelayResult (Option RelayObservation)) : Prop :=
  outcomeOf w .approval hash answer = some .failed

/-- The clock an outcome is stamped with is not behind the marker on disk. -/
def Timely (j : RelayEffectJournal) (role : RelayEffectRole) : RelayEffectEvent → Prop
  | .observe _ at' | .recordNeverLanded at' =>
    ∀ attempt, (j.effects role).attempt = some attempt → attempt.markedAt ≤ at'
  | _ => True

/-- A reverted approval is not read while the hold is still reserved, a first reservation is taken under the
policy of the operation, an outcome is stamped in time, and custody lets an abandoned envelope go. -/
def Meets (w : RelaySetting) (s : Shared H) : (o : RelayOp) → o.Answer H → Prop
  | .observe .approval hash, answer => Fails w hash answer → stateOf s.row ≠ some .reserved
  | .hold (.reserve input), answer =>
    s.row = none → (∃ r, answer = .ok r) → input.registry.policyDigest = w.op.policyDigest
  | .transition _ role event, _ => ∀ j, s.journal = some j → Timely j role event
  | .discardSlot _, answer => ∃ a, answer = .ok a
  | _, _ => True

/-- The condition, where the hold is followed. -/
def MeetsIf (full : Prop) (w : RelaySetting) (s : Shared H) (o : RelayOp) (answer : o.Answer H) : Prop :=
  full → Meets w s o answer

/-- The specification of a program under the invariant, over steps that meet the condition. -/
abbrev Does (full : Prop) (w : RelaySetting) {α : Type} (P : Shared H → Prop) (x : RelayProg H α) (Q : α → Shared H → Prop)
    (E : RelayError → Shared H → Prop) : Prop :=
  Triple (Exec.only (exec w) (MeetsIf full w)) (Inv full w) P x Q E

abbrev Leaves (full : Prop) (w : RelaySetting) {α : Type} (x : RelayProg H α) (Φ : α → Prop) : Prop :=
  Silent (Exec.only (exec w) (MeetsIf full w)) (Inv full w) x Φ

/-! ## One event, one write -/

theorem signs_cons : signs role (e :: l) = signs role l + if isSigned role e then 1 else 0 := by
  simp [signs, List.countP_cons]

theorem sends_cons : sends role (e :: l) = sends role l + if isSent role e then 1 else 0 := by
  simp [sends, List.countP_cons]

/-- Events that the counts do not depend on, and that no follower forbids. -/
def plain : Event → Prop
  | .observed _ _ | .neverLands _ => True
  | _ => False

theorem Kept.add (h : Kept w s) (hlawful : Lawful w e) (hsigned : ∀ role, isSigned role e = false)
    (hsent : ∀ role, isSent role e = false) : Kept w (s.add e) := by
  have hsigns : ∀ role, RelaySource.signs role (s.add e).log = RelaySource.signs role s.log := by
    intro role
    show RelaySource.signs role (e :: s.log) = _
    rw [signs_cons, hsigned role]
    rfl
  have hsends : ∀ role, RelaySource.sends role (s.add e).log = RelaySource.sends role s.log := by
    intro role
    show RelaySource.sends role (e :: s.log) = _
    rw [sends_cons, hsent role]
    rfl
  refine ⟨h.valid, ?_, ?_, ?_, ?_, ?_, h.bytes, h.custody⟩
  · intro e' he'
    rcases List.mem_cons.mp he' with rfl | he'
    · exact hlawful
    · exact h.lawful e' he'
  · intro role
    rw [hsigns]
    exact h.signs role
  · intro role hphase
    rw [hsigns]
    exact h.unsigned role hphase
  · intro role
    rw [hsends]
    exact h.sends role
  · intro role hphase
    rw [hsends]
    exact h.unsent role hphase

theorem Follows.add (h : Follows w s) (hrefused : ∀ input, e ≠ .refused input) : Follows w (s.add e) := by
  refine ⟨h.own, h.lags, ?_⟩
  intro input hinput
  rcases List.mem_cons.mp hinput with heq | hinput
  · exact hrefused input heq.symm
  · exact h.refused input hinput

theorem Inv.add_plain (h : Inv full w s) (hplain : plain e) : Inv full w (s.add e) := by
  refine ⟨h.kept.add ?_ ?_ ?_, fun hfull => (h.follows hfull).add ?_⟩
  all_goals cases e <;> first | exact hplain.elim | simp [Lawful, isSigned, isSent]

-- The signer ran, for an effect that was never signed.
theorem Inv.signed (h : Inv full w s) (hjournal : s.journal = some j) (hopened : Opened j role)
    (hphase : (j.effects role).phase ≠ .pending) (hnone : signs role s.log = 0) :
    Inv full w (s.add (.signed role s.journal)) := by
  have hsigns : ∀ r, RelaySource.signs r (.signed role s.journal :: s.log) =
      RelaySource.signs r s.log + if role = r then 1 else 0 := by
    intro r
    rw [signs_cons]
    simp [isSigned]
  refine ⟨⟨h.kept.valid, ?_, ?_, ?_, ?_, ?_, h.kept.bytes, h.kept.custody⟩, fun hfull =>
    (h.follows hfull).add (by simp)⟩
  · intro e' he'
    rcases List.mem_cons.mp he' with rfl | he'
    · exact fun hrole => ⟨j, hjournal, hopened hrole⟩
    · exact h.kept.lawful e' he'
  · intro r
    show RelaySource.signs r (.signed role s.journal :: s.log) ≤ 1
    rw [hsigns]
    by_cases hr : role = r
    · rw [← hr, hnone, if_pos rfl]
    · rw [if_neg hr]
      exact h.kept.signs r
  · intro r hpending
    show RelaySource.signs r (.signed role s.journal :: s.log) = 0
    have hpend : phaseOf s.journal r = .pending := hpending
    rw [hsigns, if_neg, h.kept.unsigned r hpend]
    rintro rfl
    rw [hjournal] at hpend
    exact hphase hpend
  · exact h.kept.sends
  · exact h.kept.unsent

-- The bytes in custody are sent for the first time, over the journal that carries their hash.
theorem Inv.sent (h : Inv full w s) (hjournal : s.journal = some j)
    (hphase : (j.effects role).phase = .submitting) {m : DirectEffectMaterial} (hslot : s.slots role = some m)
    (hhash : (j.effects role).transactionHash = some m.transactionHash) (hnone : sends role s.log = 0) :
    Inv full w (s.add (.sent role m.rawTransaction (s.slots role) s.journal)) := by
  have hsends : ∀ r, RelaySource.sends r (.sent role m.rawTransaction (s.slots role) s.journal :: s.log) =
      RelaySource.sends r s.log + if role = r then 1 else 0 := by
    intro r
    rw [sends_cons]
    simp [isSent]
  refine ⟨⟨h.kept.valid, ?_, h.kept.signs, h.kept.unsigned, ?_, ?_, h.kept.bytes, h.kept.custody⟩,
    fun hfull => (h.follows hfull).add (by simp)⟩
  · intro e' he'
    rcases List.mem_cons.mp he' with rfl | he'
    · refine ⟨m, j, hslot, rfl, hjournal, hphase, ?_⟩
      rw [hhash, h.kept.bytes role m hslot]
    · exact h.kept.lawful e' he'
  · intro r
    show RelaySource.sends r (.sent role m.rawTransaction (s.slots role) s.journal :: s.log) ≤ 1
    rw [hsends]
    by_cases hr : role = r
    · rw [← hr, hnone, if_pos rfl]
    · rw [if_neg hr]
      exact h.kept.sends r
  · intro r hcrossed
    show RelaySource.sends r (.sent role m.rawTransaction (s.slots role) s.journal :: s.log) = 0
    have hcross : crossed (phaseOf s.journal r) = false := hcrossed
    rw [hsends, if_neg, h.kept.unsent r hcross]
    rintro rfl
    rw [hjournal] at hcross
    have hsub : crossed (j.effects role).phase = false := hcross
    rw [hphase] at hsub
    cases hsub

theorem Inv.advance (h : Inv full w s) (hjournal : s.journal = some j)
    (hvalid : Valid w.hash.journal w.op (RelayEffects.withEffect w.hash.journal j role next))
    (hpending : next.phase ≠ .pending)
    (hunsent : crossed next.phase = false → sends role s.log = 0)
    (hcustody : ∀ hash, next.phase ≠ .abandonedUnsent → next.transactionHash = some hash →
      ∃ m, s.slots role = some m ∧ m.transactionHash = hash)
    (hlags : full → lags (phaseOf (some (RelayEffects.withEffect w.hash.journal j role next)) .approval)
      (phaseOf (some (RelayEffects.withEffect w.hash.journal j role next)) .deposit) (stateOf s.row)) :
    Inv full w { s with journal := some (RelayEffects.withEffect w.hash.journal j role next) } := by
  have hphase : ∀ r, r ≠ role →
      phaseOf (some (RelayEffects.withEffect w.hash.journal j role next)) r = phaseOf s.journal r := by
    intro r hr
    rw [hjournal]
    show ((RelayEffects.withEffect w.hash.journal j role next).effects r).phase = (j.effects r).phase
    rw [withEffect_other hr]
  refine ⟨⟨?_, h.kept.lawful, h.kept.signs, ?_, h.kept.sends, ?_, h.kept.bytes, ?_⟩, fun hfull =>
    ⟨(h.follows hfull).own, hlags hfull, (h.follows hfull).refused⟩⟩
  · intro j' hj'
    cases hj'
    exact hvalid
  · intro r hr
    by_cases hrole : r = role
    · have hself : (RelayEffects.withEffect w.hash.journal j role next).effects role = next := withEffect_self
      rw [hrole] at hr
      have hnext : ((RelayEffects.withEffect w.hash.journal j role next).effects role).phase = .pending := hr
      rw [hself] at hnext
      exact absurd hnext hpending
    · exact h.kept.unsigned r ((hphase r hrole).symm.trans hr)
  · intro r hr
    by_cases hrole : r = role
    · rw [hrole] at hr ⊢
      have hnext : crossed ((RelayEffects.withEffect w.hash.journal j role next).effects role).phase = false := hr
      rw [withEffect_self] at hnext
      exact hunsent hnext
    · exact h.kept.unsent r (by rw [← hphase r hrole]; exact hr)
  · intro r j' hash hj' habandoned hhash
    cases hj'
    by_cases hrole : r = role
    · rw [hrole, withEffect_self] at habandoned hhash
      rw [hrole]
      exact hcustody hash habandoned hhash
    · rw [withEffect_other hrole] at habandoned hhash
      exact h.kept.custody r j hash hjournal habandoned hhash

end PaymentNode.RelaySource
