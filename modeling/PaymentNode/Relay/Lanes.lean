import PaymentNode.Lib.Locked
import PaymentNode.Relay.NativeSource
import PaymentNode.Relay.SourceRuns

/-!
# Lanes — each effect of a Relay source is signed and sent once

`Kept` is what every run of a native source keeps while its journal is its own: the journal's phase bounds what
was signed and sent, and a released hold stands beside a journal that never sent.  On Base the create-only
broadcast claim bounds the sends by itself, so `Inv` keeps that bound when an older journal is put back.
-/

namespace PaymentNode.RelayNative

open Solo

variable {H : LedgerHash} {w : RelayNativeSetting} {s t : Shared H} {restores : Prop}
  {j next : RelayNativeSourceJournal} {oj : Option RelayNativeSourceJournal} {e : Event} {l : List Event}
  {phase : RelayNativeSourcePhase}

/-! ## What the log says -/

def isSigned : Event → Bool
  | .signed => true
  | _ => false

def isSent : Event → Bool
  | .sent _ _ _ => true
  | _ => false

/-- How often the signer was called. -/
def signs (log : List Event) : ℕ := log.countP isSigned

def sends (log : List Event) : ℕ := log.countP isSent

/-- Bytes are sent from custody, over a journal at `submitting` with their hash. -/
def Lawful (w : RelayNativeSetting) : Event → Prop
  | .signed => True
  | .sent raw slot journal => ∃ m j, slot = some m ∧ m.rawTransaction = raw ∧ journal = some j ∧
      j.phase = .submitting ∧ j.transactionHash = some (w.hash.keccak256 raw)

/-! ## The invariant -/

/-- The phases of a deposit that may have been sent. -/
def crossed : RelayNativeSourcePhase → Bool
  | .submitting | .confirmed | .failed => true
  | _ => false

/-- The phases of a deposit that was marked and is not closed as unsent. -/
def live : RelayNativeSourcePhase → Bool
  | .signingStarted | .sealed => true
  | phase => crossed phase

/-- The states in which a hold gives its amount back. -/
def released : AssetUsageState → Bool
  | .failedBeforeEffect | .releasedUnsubmitted => true
  | _ => false

structure Kept (w : RelayNativeSetting) (s : Shared H) : Prop where
  lawful : ∀ e ∈ s.log, Lawful w e
  signs : signs s.log ≤ 1
  unsigned : phaseOf s.journal = .pending → RelayNative.signs s.log = 0
  sends : sends s.log ≤ 1
  unsent : crossed (phaseOf s.journal) = false → RelayNative.sends s.log = 0
  held : live (phaseOf s.journal) → ∀ r, s.row = some r → released r.state = false

/-- On Base nothing is sent without the claim, and nothing twice. -/
structure Claimed (s : Shared H) : Prop where
  sends : sends s.log ≤ 1
  unclaimed : s.broadcastClaim = none → RelayNative.sends s.log = 0

structure Inv (restores : Prop) (w : RelayNativeSetting) (s : Shared H) : Prop where
  claimed : w.op.chain = .base → Claimed s
  kept : ¬ restores → Kept w s

theorem inv_start : Inv restores w (Shared.start : Shared H) := by
  refine ⟨fun _ => ⟨Nat.zero_le _, fun _ => rfl⟩, fun _ => ⟨?_, Nat.zero_le _, fun _ => rfl, Nat.zero_le _,
    fun _ => rfl, ?_⟩⟩
  · exact fun e he => absurd he List.not_mem_nil
  · exact fun _ r hr => nomatch hr

/-- A program keeps the invariant, and what it answers is specified; nothing is asked of what it throws. -/
abbrev Does (restores : Prop) (w : RelayNativeSetting) {α : Type} (P : Shared H → Prop) (x : RelayNativeProg H α)
    (Q : α → Shared H → Prop) : Prop :=
  Triple (exec w) (Inv restores w) P x Q fun _ _ => True

abbrev Leaves (restores : Prop) (w : RelayNativeSetting) {α : Type} (x : RelayNativeProg H α) (Φ : α → Prop) :
    Prop :=
  Silent (exec w) (Inv restores w) x Φ

/-! ## One event, one write -/

theorem signs_cons : signs (e :: l) = signs l + if isSigned e then 1 else 0 := by
  simp [signs, List.countP_cons]

theorem sends_cons : sends (e :: l) = sends l + if isSent e then 1 else 0 := by
  simp [sends, List.countP_cons]

-- The signer ran, for a deposit that was never signed.
theorem Inv.signed (h : Inv restores w s) (hphase : phaseOf s.journal ≠ .pending)
    (hnone : ¬ restores → signs s.log = 0) : Inv restores w (s.add .signed) := by
  have hsends : sends (.signed :: s.log) = sends s.log := sends_cons
  refine ⟨fun hbase => ⟨?_, fun hclaim => ?_⟩, fun hown => ⟨?_, ?_, ?_, ?_, ?_, (h.kept hown).held⟩⟩
  · show sends (.signed :: s.log) ≤ 1
    rw [hsends]
    exact (h.claimed hbase).sends
  · show sends (.signed :: s.log) = 0
    rw [hsends]
    exact (h.claimed hbase).unclaimed hclaim
  · intro e he
    rcases List.mem_cons.mp he with rfl | he
    · trivial
    · exact (h.kept hown).lawful e he
  · show signs (.signed :: s.log) ≤ 1
    rw [signs_cons, hnone hown]
    decide
  · exact fun hpending => absurd hpending hphase
  · show sends (.signed :: s.log) ≤ 1
    rw [hsends]
    exact (h.kept hown).sends
  · intro hcrossed
    show sends (.signed :: s.log) = 0
    rw [hsends]
    exact (h.kept hown).unsent hcrossed

variable {m : DirectEffectMaterial}

-- The bytes in custody are sent for the first time, over the journal that carries their hash.
theorem Inv.sent (h : Inv restores w s) (hjournal : s.journal = some j) (hphase : j.phase = .submitting)
    (hslot : s.slot = some m) (hhash : j.transactionHash = some (w.hash.keccak256 m.rawTransaction))
    (hclaim : w.op.chain = .base → s.broadcastClaim ≠ none ∧ sends s.log = 0)
    (hnone : ¬ restores → sends s.log = 0) :
    Inv restores w (s.add (.sent m.rawTransaction s.slot s.journal)) := by
  have hsends : sends (.sent m.rawTransaction s.slot s.journal :: s.log) = sends s.log + 1 := sends_cons
  refine ⟨fun hbase => ⟨?_, fun hnoclaim => ?_⟩, fun hown => ⟨?_, ?_, ?_, ?_, ?_, (h.kept hown).held⟩⟩
  · show sends (.sent m.rawTransaction s.slot s.journal :: s.log) ≤ 1
    rw [hsends, (hclaim hbase).2]
  · exact absurd hnoclaim (hclaim hbase).1
  · intro e he
    rcases List.mem_cons.mp he with rfl | he
    · exact ⟨m, j, hslot, rfl, hjournal, hphase, hhash⟩
    · exact (h.kept hown).lawful e he
  · exact (h.kept hown).signs
  · exact (h.kept hown).unsigned
  · show sends (.sent m.rawTransaction s.slot s.journal :: s.log) ≤ 1
    rw [hsends, hnone hown]
  · intro hcrossed
    have hcross : crossed (phaseOf s.journal) = false := hcrossed
    rw [hjournal] at hcross
    have hsub : crossed j.phase = false := hcross
    rw [hphase] at hsub
    cases hsub

theorem Inv.save (h : Inv restores w s) (hunsigned : ¬ restores → next.phase = .pending → signs s.log = 0)
    (hunsent : ¬ restores → crossed next.phase = false → sends s.log = 0)
    (hheld : ¬ restores → live next.phase → ∀ r, s.row = some r → released r.state = false) :
    Inv restores w (s.save next) :=
  ⟨fun hbase => ⟨(h.claimed hbase).sends, (h.claimed hbase).unclaimed⟩, fun hown =>
    ⟨(h.kept hown).lawful, (h.kept hown).signs, hunsigned hown, (h.kept hown).sends, hunsent hown, hheld hown⟩⟩

-- A write of custody or of a claim.
theorem Inv.slot {slot : Option DirectEffectMaterial} (h : Inv restores w s) :
    Inv restores w { s with slot := slot } :=
  ⟨fun hbase => ⟨(h.claimed hbase).sends, (h.claimed hbase).unclaimed⟩, fun hown =>
    ⟨(h.kept hown).lawful, (h.kept hown).signs, (h.kept hown).unsigned, (h.kept hown).sends,
      (h.kept hown).unsent, (h.kept hown).held⟩⟩

theorem Inv.signingClaim {claim : Option ℕ} (h : Inv restores w s) :
    Inv restores w { s with signingClaim := claim } :=
  ⟨fun hbase => ⟨(h.claimed hbase).sends, (h.claimed hbase).unclaimed⟩, fun hown =>
    ⟨(h.kept hown).lawful, (h.kept hown).signs, (h.kept hown).unsigned, (h.kept hown).sends,
      (h.kept hown).unsent, (h.kept hown).held⟩⟩

theorem Inv.broadcastClaim {raw : String} (h : Inv restores w s) :
    Inv restores w { s with broadcastClaim := some raw } :=
  ⟨fun hbase => ⟨(h.claimed hbase).sends, fun hnone => nomatch hnone⟩, fun hown =>
    ⟨(h.kept hown).lawful, (h.kept hown).signs, (h.kept hown).unsigned, (h.kept hown).sends,
      (h.kept hown).unsent, (h.kept hown).held⟩⟩

-- The hold is written; it is released only beside a journal that is not live.
theorem Inv.row {row : Option (Reservation H)} (h : Inv restores w s)
    (hheld : ¬ restores → live (phaseOf s.journal) → ∀ r, row = some r → released r.state = false) :
    Inv restores w { s with row := row } :=
  ⟨fun hbase => ⟨(h.claimed hbase).sends, (h.claimed hbase).unclaimed⟩, fun hown =>
    ⟨(h.kept hown).lawful, (h.kept hown).signs, (h.kept hown).unsigned, (h.kept hown).sends,
      (h.kept hown).unsent, hheld hown⟩⟩

-- An older journal is put back: only the claim bounds the sends.
theorem Inv.restore {journal : Option RelayNativeSourceJournal} (h : Inv restores w s) (hrestores : restores) :
    Inv restores w { s with journal := journal } :=
  ⟨fun hbase => ⟨(h.claimed hbase).sends, (h.claimed hbase).unclaimed⟩, fun hown => absurd hrestores hown⟩

/-! ## Operations -/

variable {P Q : Shared H → Prop}

theorem leaves_refuse {c : Prop} [Decidable c] {error : RelayError} :
    Leaves restores w (refuse c error : RelayNativeProg H Unit) fun _ => ¬ c :=
  Silent.ite (fun _ => Silent.fail) fun h => Silent.ret h

theorem leaves_ask (q : RelayNativeAsk) :
    Leaves restores w (ask q : RelayNativeProg H q.Answer) fun _ => True := by
  apply Silent.run
  rintro s t answer - rfl
  exact ⟨rfl, fun _ _ => trivial⟩

theorem leaves_now : Leaves restores w (now : RelayNativeProg H Instant) fun _ => True :=
  Silent.perform fun _ _ _ _ h => ⟨h, trivial⟩

theorem leaves_observe {transactionHash : String} :
    Leaves restores w (observe transactionHash : RelayNativeProg H (Option RelayEffectOutcome)) fun _ => True := by
  apply Silent.run
  rintro s t answer - rfl
  exact ⟨rfl, fun _ _ => trivial⟩

theorem leaves_unsentOutcome {nonce : ℕ} {transactionHash : String} :
    Leaves restores w (unsentOutcome nonce transactionHash : RelayNativeProg H EvmUnsentOutcome)
      fun _ => True := by
  apply Silent.run
  rintro s t answer - rfl
  exact ⟨rfl, fun _ _ => trivial⟩

theorem leaves_unsignedSlot : Leaves restores w (unsignedSlot : RelayNativeProg H Unit) fun _ => True := by
  apply Silent.run
  rintro s t answer - ⟨rfl, -⟩
  exact ⟨rfl, fun _ _ => trivial⟩

theorem leaves_hasEffectClaim : Leaves restores w (hasEffectClaim : RelayNativeProg H Bool) fun _ => True := by
  apply Silent.run
  rintro s t answer - ⟨rfl, -⟩
  exact ⟨rfl, fun _ _ => trivial⟩

theorem leaves_loadSlot :
    Leaves restores w (loadSlot : RelayNativeProg H (Option RelaySignedEffect)) fun _ => True := by
  apply Silent.run
  rintro s t answer - ⟨rfl, -⟩
  exact ⟨rfl, fun _ _ => trivial⟩

theorem leaves_loadUsage :
    Leaves restores w (loadUsage : RelayNativeProg H (Option (Reservation H))) fun _ => True := by
  apply Silent.perform
  rintro s a t - ⟨⟨-, hrow⟩, ht⟩
  rw [hrow] at ht
  exact ⟨ht, trivial⟩

theorem does_loadUsage : Does restores w P (loadUsage : RelayNativeProg H (Option (Reservation H)))
    fun a s => a = s.row ∧ P s := by
  apply Triple.perform
  rintro s a t hs hP ⟨⟨ha, hrow⟩, ht⟩
  rw [hrow] at ht
  have hsame : t = s := ht
  subst hsame
  exact ⟨hs, ha, hP⟩

theorem loaded_ok {a : Option RelayNativeSourceJournal} (h : loaded w oj = .ok a) : a = oj := by
  cases oj with
  | none =>
    cases h
    rfl
  | some j =>
    rcases bind_ok.mp h with ⟨_, -, h⟩
    cases h
    rfl

theorem does_loadJournal : Does restores w P (loadJournal : RelayNativeProg H (Option RelayNativeSourceJournal))
    fun a s => s.journal = a ∧ P s := by
  apply Triple.run
  rintro s t answer hs hP ⟨rfl, hanswer⟩
  refine ⟨hs, ?_⟩
  cases hload : loaded w t.journal with
  | error error =>
    rw [hanswer, hload]
    trivial
  | ok a =>
    rw [hanswer, hload]
    exact ⟨(loaded_ok hload).symm, hP⟩

theorem loadedSlot_ok {slot : Option DirectEffectMaterial} {signed : RelaySignedEffect}
    (h : loadedSlot w slot = .ok (some signed)) : ∃ m, slot = some m ∧
      signed = ⟨m.rawTransaction, m.transactionHash⟩ := by
  cases slot with
  | none => cases h
  | some m =>
    unfold loadedSlot at h
    dsimp only at h
    split at h
    · cases h
    · rcases bind_ok.mp h with ⟨_, -, h⟩
      cases h
      exact ⟨m, rfl, rfl⟩

theorem does_loadSlot : Does restores w P (loadSlot : RelayNativeProg H (Option RelaySignedEffect))
    fun a s => (∀ signed, a = some signed → ∃ m, s.slot = some m ∧
      signed = ⟨m.rawTransaction, m.transactionHash⟩) ∧ P s := by
  apply Triple.run
  rintro s t answer hs hP ⟨rfl, hanswer⟩
  refine ⟨hs, ?_⟩
  rcases hanswer with hanswer | ⟨error, rfl⟩
  · cases hloaded : loadedSlot w t.slot with
    | error error =>
      rw [hanswer, hloaded]
      trivial
    | ok a =>
      rw [hanswer, hloaded]
      refine ⟨?_, hP⟩
      rintro signed rfl
      exact loadedSlot_ok hloaded
  · trivial

/-- What a step of the journal says of the version it writes. -/
structure Follows (oj : Option RelayNativeSourceJournal) (phase : RelayNativeSourcePhase)
    (next : RelayNativeSourceJournal) : Prop where
  edge : mayFollow oj phase
  hash : ∀ j, oj = some j → phase ≠ .sealed → next.transactionHash = j.transactionHash
  reached : next.phase = phase

theorem advanced_ok {expected transactionHash : Option String} {at' : Instant} {marker : String}
    (h : advanced w oj expected phase transactionHash at' marker = .ok next) : Follows oj phase next := by
  rcases bind_ok.mp h with ⟨old, hload, h⟩
  rw [loaded_ok hload] at h
  split at h
  · cases h
  split at h
  · cases h
  rename_i hmay
  rcases bind_ok.mp h with ⟨_, -, h⟩
  cases h
  refine ⟨not_not.mp hmay, ?_, ?_⟩
  · rintro j rfl hphase
    exact if_neg hphase
  · cases oj <;> rfl

-- One step of the journal, where the invariant takes it.
theorem does_advance {transactionHash : Option String} {at' : Instant}
    (hsave : ∀ s next, Inv restores w s → s.journal = oj → P s → Follows oj phase next →
      Inv restores w (s.save next)) :
    Does restores w (fun s => s.journal = oj ∧ P s)
      (advance oj phase transactionHash at' : RelayNativeProg H RelayNativeSourceJournal)
      fun next s => Follows oj phase next ∧ ∃ old, P old ∧ s = old.save next := by
  apply Triple.run
  rintro s t answer hs ⟨hjournal, hP⟩ ⟨marker, -, hexec⟩
  rw [hjournal] at hexec
  split at hexec
  · rename_i next hadvanced
    rcases hexec with ⟨rfl, rfl⟩
    have hfollows := advanced_ok hadvanced
    exact ⟨hsave s next hs hjournal hP hfollows, hfollows, s, hP, rfl⟩
  · rcases hexec with ⟨rfl, rfl⟩
    exact ⟨hs, trivial⟩

/-! ## The hold -/

-- A move of the hold, where the invariant takes the state it asks for.
theorem does_moveUsage {state : AssetUsageState} {at' : Instant} {digest : Option String}
    {expected : Option (List AssetUsageState)}
    (hmove : ∀ s, Inv restores w s → P s → ¬ restores → live (phaseOf s.journal) → released state = false) :
    Does restores w P (moveUsage (transitionInput w H state at' digest expected) : RelayNativeProg H Unit)
      fun _ s => ∃ old row, P old ∧ s = { old with row := row } ∧ RelaySource.stateOf row = some state := by
  apply Triple.bind (M := fun answer s => (∃ r, answer = .ok r) → ∃ old row, P old ∧
    s = { old with row := row } ∧ RelaySource.stateOf row = some state)
  · apply Triple.perform
    rintro s answer t hs hP ⟨hhold, ht⟩
    rcases hold_transition rfl hhold with ⟨r, rfl, hrow, hstate⟩ | ⟨⟨error, rfl⟩, hrow⟩
    · have hreached : RelaySource.stateOf (some r) = some state := congrArg some hstate
      rw [hrow] at ht
      rw [ht]
      refine ⟨hs.row ?_, fun _ => ⟨s, some r, hP, rfl, hreached⟩⟩
      intro hown hlive r' hr'
      cases hr'
      rw [hstate]
      exact hmove s hs hP hown hlive
    · rw [hrow] at ht
      have hsame : t = s := ht
      subst hsame
      exact ⟨hs, fun ⟨r, hr⟩ => nomatch hr⟩
  · intro answer
    cases answer with
    | ok r => exact Triple.ret fun s _ h => h ⟨r, rfl⟩
    | error error => exact Triple.fail fun _ _ _ => trivial

-- A reserve over no hold, or over one that failed before any effect, leaves it reserved.
theorem does_reserveUsage {registry : AssetPolicyRegistry} {at' : Instant} {prior : Option (Reservation H)}
    (hprior : ∀ r, prior = some r → r.state = .failedBeforeEffect) :
    Does restores w (fun s => prior = s.row ∧ P s)
      (reserveUsage (reserveInput w registry at' prior.isSome) : RelayNativeProg H Unit)
      fun _ s => ∃ old row, P old ∧ s = { old with row := row } ∧
        RelaySource.stateOf row = some .reserved := by
  apply Triple.bind (M := fun answer s => (∃ r, answer = .ok r) → ∃ old row, P old ∧
    s = { old with row := row } ∧ RelaySource.stateOf row = some .reserved)
  · apply Triple.perform
    rintro s answer t hs ⟨hrow, hP⟩ ⟨hhold, ht⟩
    rcases hold_reserve rfl hhold with ⟨r, rfl, hrow', -, -, hcase⟩ | ⟨⟨error, rfl⟩, hsame⟩
    · have hreserved : r.state = .reserved := by
        cases hcase with
        | replayed hsame hkept =>
          have hfailed := hprior r (hrow.trans hsame)
          have hretry : (reserveInput w registry at' prior.isSome).retryFailedBeforeEffect = true := by
            show prior.isSome = true
            rw [hrow, hsame]
            rfl
          exact absurd hfailed (hkept hretry)
        | fresh _ hstate _ _ => exact hstate
        | reopened _ _ _ _ hstate _ _ => exact hstate
      have hreached : RelaySource.stateOf (some r) = some .reserved := congrArg some hreserved
      rw [hrow'] at ht
      rw [ht]
      refine ⟨hs.row ?_, fun _ => ⟨s, some r, hP, rfl, hreached⟩⟩
      intro _ _ r' hr'
      cases hr'
      rw [hreserved]
      rfl
    · rw [hsame] at ht
      have hstay : t = s := ht
      subst hstay
      exact ⟨hs, fun ⟨r, hr⟩ => nomatch hr⟩
  · intro answer
    cases answer with
    | ok r => exact Triple.ret fun s _ h => h ⟨r, rfl⟩
    | error error => exact Triple.fail fun _ _ _ => trivial

/-! ## Owner and policy are only read -/

theorem leaves_admission : Leaves restores w (admission w : RelayNativeProg H RelayNativeActive) fun _ => True := by
  apply Silent.bind leaves_now
  intro at' _
  apply Silent.bind (leaves_ask _)
  intro _ _
  apply Silent.bind (leaves_ask _)
  intro retired _
  apply Silent.bind leaves_refuse
  intro _ _
  apply Silent.bind leaves_refuse
  intro _ _
  apply Silent.bind (leaves_ask _)
  intro active _
  cases active with
  | none => exact Silent.fail
  | some active =>
    apply Silent.bind leaves_refuse
    intro _ _
    apply Silent.bind leaves_refuse
    intro _ _
    apply Silent.bind leaves_loadUsage
    intro row _
    apply Silent.bind (leaves_ask _)
    intro total _
    apply Silent.bind leaves_refuse
    intro _ _
    exact Silent.bind (leaves_ask _) fun _ _ => Silent.ret trivial

theorem leaves_takeAuthority {needed : Bool} :
    Leaves restores w (takeAuthority w needed : RelayNativeProg H Unit) fun _ => True :=
  Silent.ite (fun _ => Silent.bind leaves_admission fun _ _ => leaves_ask _) fun _ => Silent.ret trivial

theorem leaves_assertAuthority {taken : Bool} :
    Leaves restores w (assertAuthority taken : RelayNativeProg H Unit) fun _ => True :=
  Silent.ite (fun _ => leaves_ask _) fun _ => Silent.ret trivial

theorem leaves_confirmDeposit :
    Leaves restores w (confirmDeposit oj : RelayNativeProg H Unit) fun _ => True :=
  Silent.ite (fun _ => Silent.ret trivial) fun _ =>
    Silent.bind (leaves_ask _) fun _ _ => leaves_refuse.mono fun _ _ => trivial

theorem leaves_nonceOr {signedNonce : Option ℕ} :
    Leaves restores w (nonceOr signedNonce : RelayNativeProg H ℕ) fun _ => True := by
  cases signedNonce with
  | none => exact leaves_ask _
  | some nonce => exact Silent.ret trivial

theorem leaves_sealedOutcome :
    Leaves restores w (sealedOutcome w j : RelayNativeProg H (Option EvmUnsentOutcome)) fun _ => True := by
  apply Silent.bind leaves_loadSlot
  intro saved _
  cases saved with
  | none => exact Silent.ret trivial
  | some signed =>
    refine Silent.ite (fun _ => Silent.ret trivial) fun _ => ?_
    apply Silent.bind (Φ := fun _ => True)
    · unfold relaySignedNonce
      split
      · exact Silent.fail
      · exact Silent.ret trivial
    · intro nonce _
      exact Silent.bind leaves_unsentOutcome fun _ _ => Silent.ret trivial

theorem leaves_unsignedOnBase :
    Leaves restores w (unsignedOnBase w j : RelayNativeProg H Bool) fun _ => True :=
  Silent.ite (fun _ => Silent.bind leaves_loadSlot fun _ _ => Silent.ret trivial) fun _ => Silent.ret trivial

/-! ## Moves of the hold -/

-- A hold that is charged, or left.
theorem does_markUnknown : Does restores w (fun s => s.journal = oj) (markUnknown w : RelayNativeProg H Unit)
    fun _ s => s.journal = oj := by
  apply Triple.skip leaves_loadUsage
  intro row _
  apply Triple.ite
  · intro _
    apply Triple.skip leaves_now
    intro at' _
    refine (does_moveUsage fun _ _ _ _ _ => rfl).conseq (fun _ _ h => h) ?_ fun _ _ _ h => h
    rintro _ s _ ⟨old, row', hjournal, rfl, -⟩
    exact hjournal
  · exact fun _ => Triple.ret fun _ _ h => h

-- An outcome settles the hold, and releases it only where nothing was sent.
theorem does_settleUsage : Does restores w (fun s => s.journal = some j)
    (settleUsage w j : RelayNativeProg H Unit) fun _ s => s.journal = some j := by
  have hmove : ∀ (state : AssetUsageState) (at' : Instant) (digest : Option String)
      (expected : Option (List AssetUsageState)), (live j.phase → released state = false) →
      Does restores w (fun s => s.journal = some j)
        (moveUsage (transitionInput w H state at' digest expected) : RelayNativeProg H Unit)
        fun _ s => s.journal = some j := by
    intro state at' digest expected hreleased
    refine (does_moveUsage ?_).conseq (fun _ _ h => h) ?_ fun _ _ _ h => h
    · intro s _ hjournal _ hlive
      rw [hjournal] at hlive
      exact hreleased hlive
    · rintro _ s _ ⟨old, row', hjournal, rfl, -⟩
      exact hjournal
  apply Triple.skip leaves_loadUsage
  intro row _
  cases row with
  | none => exact Triple.fail fun _ _ _ => trivial
  | some current =>
    apply Triple.ite
    · exact fun _ => Triple.ret fun _ _ h => h
    · intro _
      apply Triple.bind (M := fun _ s => s.journal = some j)
      · apply Triple.ite
        · intro _
          apply Triple.skip leaves_now
          exact fun at' _ => hmove _ _ _ _ fun _ => rfl
        · exact fun _ => Triple.ret fun _ _ h => h
      · intro _
        apply Triple.skip leaves_now
        intro at' _
        apply hmove
        intro hlive
        generalize j.phase = phase at hlive ⊢
        cases phase <;> first | rfl | cases hlive

/-- The hold is absent, or failed before any effect. -/
def Free (s : Shared H) : Prop := ∀ r, s.row = some r → r.state = .failedBeforeEffect

theorem does_fenceClaims : Does restores w (fun s => s.journal = oj)
    (fenceClaims w oj : RelayNativeProg H Unit) fun _ s => s.journal = oj := by
  apply Triple.ite
  · intro _
    apply Triple.skip leaves_hasEffectClaim
    intro claimed _
    apply Triple.ite
    · intro _
      exact Triple.bind does_markUnknown fun _ => Triple.fail fun _ _ _ => trivial
    · exact fun _ => Triple.ret fun _ _ h => h
  · exact fun _ => Triple.ret fun _ _ h => h

-- A call that may sign begins with no hold that is charged.
theorem does_releaseUnmarked : Does restores w (fun s => s.journal = oj)
    (releaseUnmarked w oj : RelayNativeProg H Unit)
    fun _ s => s.journal = oj ∧ (phaseOf oj = .pending → Free s) := by
  apply Triple.ite
  · intro hpending
    apply Triple.bind does_loadUsage
    intro prior
    cases prior with
    | none =>
      apply Triple.ret
      rintro s _ ⟨hrow, hjournal⟩
      exact ⟨hjournal, fun _ r hr => nomatch hrow.trans hr⟩
    | some r =>
      apply Triple.ite
      · intro _
        apply Triple.skip leaves_loadSlot
        intro slot _
        apply Triple.skip leaves_refuse
        intro _ _
        apply Triple.skip leaves_now
        intro at' _
        refine (does_moveUsage ?_).conseq (fun _ _ h => h.2) ?_ fun _ _ _ h => h
        · intro s _ hjournal _ hlive
          rw [hjournal, hpending] at hlive
          cases hlive
        · rintro _ s _ ⟨old, row', hjournal, rfl, hstate⟩
          refine ⟨hjournal, fun _ r' hr' => ?_⟩
          have hrow : row' = some r' := hr'
          rw [hrow] at hstate
          exact Option.some.inj hstate
      · intro _
        refine ((leaves_refuse _).conseq (fun _ _ h => h) ?_ fun _ _ _ _ => trivial)
        rintro _ s _ ⟨hfailed, hrow, hjournal⟩
        refine ⟨hjournal, fun _ r' hr' => ?_⟩
        have hsame : some r = some r' := hrow.trans hr'
        cases hsame
        exact not_not.mp hfailed
  · exact fun hphase => Triple.ret fun _ _ h => ⟨h, fun hpending => absurd hpending hphase⟩

/-! ## Steps of the attempt -/

-- A step out of a live phase into a live one.
theorem Inv.stays (h : Inv restores w s) (hjournal : s.journal = some j) (hold : live j.phase)
    (hunsigned : next.phase ≠ .pending) (hunsent : crossed next.phase = false → crossed j.phase = false) :
    Inv restores w (s.save next) := by
  refine h.save (fun _ hpending => absurd hpending hunsigned) ?_ ?_
  · intro hown hcrossed
    apply (h.kept hown).unsent
    rw [hjournal]
    exact hunsent hcrossed
  · intro hown _
    apply (h.kept hown).held
    rw [hjournal]
    exact hold

-- A step that closes the journal without a send.
theorem Inv.closes (h : Inv restores w s) (hjournal : s.journal = some j) (hold : crossed j.phase = false)
    (hnext : live next.phase = false) (hunsigned : next.phase ≠ .pending) : Inv restores w (s.save next) := by
  refine h.save (fun _ hpending => absurd hpending hunsigned) ?_ ?_
  · intro hown _
    apply (h.kept hown).unsent
    rw [hjournal]
    exact hold
  · intro _ hlive
    rw [hnext] at hlive
    cases hlive

theorem does_resumeSealed :
    Does restores w (fun s => s.journal = oj ∧ (phaseOf oj = .pending → Free s))
      (resumeSealed w oj : RelayNativeProg H (Option RelayNativeSourceJournal))
      fun a s => s.journal = a ∧ (phaseOf a = .pending → Free s) := by
  cases oj with
  | none => exact Triple.ret fun _ _ h => h
  | some j =>
    apply Triple.ite
    · exact fun _ => Triple.ret fun _ _ h => h
    intro hnot
    have hphase : j.phase = .sealed := not_not.mp hnot
    apply Triple.skip leaves_sealedOutcome
    intro outcome _
    apply Triple.pre (N := fun s => s.journal = some j ∧ True)
    · cases outcome with
      | none => exact Triple.ret fun _ _ h => ⟨h.1, fun hpending => by
          have hpend : j.phase = .pending := hpending
          rw [hphase] at hpend
          cases hpend⟩
      | some outcome =>
        cases outcome with
        | neverLands =>
          apply Triple.skip leaves_now
          intro at' _
          apply Triple.bind (does_advance ?_)
          · intro next
            apply Triple.bind (M := fun _ s => s.journal = some next ∧ next.phase = .abandonedUnsent)
            · apply Triple.run
              rintro s t answer hs ⟨hfollows, old, -, rfl⟩ hexec
              rcases hexec with ⟨hresult, rfl⟩ | ⟨⟨error, rfl⟩, rfl⟩
              · cases hresult
                exact ⟨hs.slot, rfl, hfollows.reached⟩
              · exact ⟨hs, trivial⟩
            · intro _
              apply Triple.ret
              rintro s _ ⟨hjournal, hreached⟩
              refine ⟨hjournal, fun hpending => ?_⟩
              have hpend : next.phase = .pending := hpending
              rw [hreached] at hpend
              cases hpend
          · intro s next hs hjournal _ hfollows
            apply hs.closes hjournal
            · rw [hphase]
              rfl
            · rw [hfollows.reached]
              rfl
            · rw [hfollows.reached]
              decide
        | ownTransactionKnown =>
          apply Triple.skip leaves_now
          intro at' _
          apply Triple.bind (does_advance ?_)
          · intro next
            apply Triple.ret
            rintro s _ ⟨hfollows, old, -, rfl⟩
            refine ⟨rfl, fun hpending => ?_⟩
            have hpend : next.phase = .pending := hpending
            rw [hfollows.reached] at hpend
            cases hpend
          · intro s next hs hjournal _ hfollows
            apply hs.stays hjournal
            · rw [hphase]
              rfl
            · rw [hfollows.reached]
              decide
            · rw [hfollows.reached]
              exact fun h => nomatch h
        | nonceNotConsumed =>
          refine Triple.ret fun _ _ h => ⟨h.1, fun hpending => ?_⟩
          have hpend : j.phase = .pending := hpending
          rw [hphase] at hpend
          cases hpend
    · exact fun s _ h => ⟨h.1, trivial⟩

theorem does_openJournal :
    Does restores w (fun s => s.journal = oj ∧ (phaseOf oj = .pending → Free s))
      (openJournal oj : RelayNativeProg H RelayNativeSourceJournal)
      fun j s => s.journal = some j ∧ (j.phase = .pending → Free s) := by
  cases oj with
  | some j => exact Triple.ret fun _ _ h => h
  | none =>
    apply Triple.skip (leaves_ask _)
    intro _ _
    apply Triple.skip leaves_now
    intro at' _
    refine (does_advance ?_).conseq (fun _ _ h => h) ?_ fun _ _ _ h => h
    · intro s next hs hjournal _ hfollows
      have hpending : phaseOf s.journal = .pending := by
        rw [hjournal]
        rfl
      refine hs.save (fun hown _ => (hs.kept hown).unsigned hpending) ?_ ?_
      · intro hown _
        apply (hs.kept hown).unsent
        rw [hpending]
        rfl
      · intro _ hlive
        rw [hfollows.reached] at hlive
        cases hlive
    · rintro next s _ ⟨-, old, hfree, rfl⟩
      exact ⟨rfl, fun _ => hfree rfl⟩

-- The hold is charged beside a journal that is left as it is.
theorem does_chargeOnBase {P : Shared H → Prop} (hframe : ∀ s row, P s → P { s with row := row }) :
    Does restores w P (chargeOnBase w : RelayNativeProg H Unit) fun _ => P := by
  apply Triple.ite
  · intro _
    apply Triple.skip leaves_now
    intro at' _
    refine (does_moveUsage fun _ _ _ _ _ => rfl).conseq (fun _ _ h => h) ?_ fun _ _ _ h => h
    rintro _ s _ ⟨old, row, h, rfl, -⟩
    exact hframe old row h
  · exact fun _ => Triple.ret fun _ _ h => h

-- Before the marker the hold is reserved; after it the signer may run, and never has.
theorem does_markSigning (hphase : j.phase = .pending) :
    Does restores w (fun s => s.journal = some j ∧ Free s)
      (markSigning w j : RelayNativeProg H (RelayNativeSourceJournal × ℕ))
      fun a s => s.journal = some a.1 ∧ a.1.phase ≠ .pending ∧ (¬ restores → signs s.log = 0) := by
  apply Triple.bind (M := fun _ s => s.journal = some j ∧ RelaySource.stateOf s.row = some .reserved)
  · apply Triple.skip leaves_admission
    intro active _
    apply Triple.bind does_loadUsage
    intro prior
    apply Triple.skip leaves_now
    intro at' _
    apply Triple.pre (N := fun s => (∀ r, prior = some r → r.state = .failedBeforeEffect) ∧
      prior = s.row ∧ s.journal = some j)
    · apply Triple.assume
      intro hprior
      refine (does_reserveUsage hprior).conseq (fun _ _ h => h) ?_ fun _ _ _ h => h
      rintro _ s _ ⟨old, row, hjournal, rfl, hreserved⟩
      exact ⟨hjournal, hreserved⟩
    · rintro s _ ⟨hrow, hjournal, hfree⟩
      exact ⟨fun r hr => hfree r (hrow.symm.trans hr), hrow, hjournal⟩
  intro _
  apply Triple.skip leaves_admission
  intro _ _
  apply Triple.skip (leaves_ask _)
  intro nonce _
  apply Triple.skip leaves_admission
  intro _ _
  apply Triple.skip (leaves_ask _)
  intro _ _
  apply Triple.bind (M := fun _ s => s.journal = some j ∧ RelaySource.stateOf s.row = some .reserved)
  · apply Triple.run
    rintro s t answer hs hP (⟨hresult, rfl⟩ | ⟨⟨error, rfl⟩, rfl⟩)
    · unfold claimed at hresult
      split at hresult
      · cases hresult
        exact ⟨hs, hP⟩
      split at hresult
      · cases hresult
      · cases hresult
        exact ⟨hs.signingClaim, hP⟩
    · exact ⟨hs, trivial⟩
  intro _
  apply Triple.skip leaves_now
  intro at' _
  apply Triple.pre (N := fun s => s.journal = some j ∧ RelaySource.stateOf s.row = some .reserved ∧
    (¬ restores → signs s.log = 0))
  · apply Triple.bind (does_advance ?_)
    · intro next
      apply Triple.bind (M := fun _ s => s.journal = some next ∧ next.phase = .signingStarted ∧
        (¬ restores → signs s.log = 0))
      · apply Triple.pre (N := fun s => s.journal = some next ∧ next.phase = .signingStarted ∧
          (¬ restores → signs s.log = 0))
        · exact does_chargeOnBase fun _ _ h => h
        · rintro s _ ⟨hfollows, old, ⟨-, hsigns⟩, rfl⟩
          exact ⟨rfl, hfollows.reached, hsigns⟩
      · intro _
        apply Triple.ret
        rintro s _ ⟨hjournal, hreached, hsigns⟩
        refine ⟨hjournal, ?_, hsigns⟩
        show next.phase ≠ .pending
        rw [hreached]
        decide
    · intro s next hs hjournal hP hfollows
      apply hs.save
      · intro _ hpending
        rw [hfollows.reached] at hpending
        cases hpending
      · intro hown _
        apply (hs.kept hown).unsent
        rw [hjournal]
        show crossed j.phase = false
        rw [hphase]
        rfl
      · intro _ _ r hr
        have hreserved : RelaySource.stateOf (some r) = some .reserved := hr ▸ hP.1
        have hstate : r.state = .reserved := Option.some.inj hreserved
        rw [hstate]
        rfl
  · rintro s hs ⟨hjournal, hreserved⟩
    refine ⟨hjournal, hreserved, fun hown => (hs.kept hown).unsigned ?_⟩
    rw [hjournal]
    exact hphase

theorem does_signSealed {nonce : ℕ} :
    Does restores w (fun s => s.journal = some j ∧ j.phase ≠ .pending ∧ (¬ restores → signs s.log = 0))
      (signSealed w nonce : RelayNativeProg H Unit) fun _ s => s.journal = some j := by
  apply Triple.skip (leaves_ask _)
  intro wallet _
  cases wallet with
  | none => exact Triple.fail fun _ _ _ => trivial
  | some address =>
    apply Triple.skip leaves_admission
    intro _ _
    apply Triple.skip (leaves_ask _)
    intro _ _
    apply Triple.skip leaves_refuse
    intro _ _
    apply Triple.skip (leaves_ask _)
    intro _ _
    apply Triple.bind (M := fun _ s => s.journal = some j)
    · apply Triple.run
      rintro s t answer hs ⟨hjournal, hphase, hsigns⟩ hexec
      have hsigned : Inv restores w (s.add .signed) := by
        apply hs.signed _ hsigns
        rw [hjournal]
        exact hphase
      cases answer with
      | ok raw =>
        have ht : t = s.add .signed := hexec
        rw [ht]
        exact ⟨hsigned, hjournal⟩
      | error error =>
        rcases hexec with rfl | rfl
        · exact ⟨hs, trivial⟩
        · exact ⟨hsigned, trivial⟩
    · intro raw
      apply Triple.bind (M := fun _ s => s.journal = some j)
      · exact Triple.ofExcept (fun _ _ _ _ h => h) fun _ _ _ _ _ => trivial
      · intro hash
        apply Triple.run
        rintro s t answer hs hjournal (⟨hresult, rfl⟩ | ⟨⟨error, rfl⟩, rfl⟩)
        · cases hslot : sealedSlot w s.slot ⟨raw, hash⟩ with
          | error e =>
            rw [hslot] at hresult
            cases hresult
          | ok m =>
            rw [hslot] at hresult
            cases hresult
            exact ⟨hs.slot, hjournal⟩
        · exact ⟨hs, trivial⟩

theorem does_signDeposit :
    Does restores w (fun s => s.journal = some j ∧ (j.phase = .pending → Free s))
      (signDeposit w j : RelayNativeProg H (RelayNativeSourceJournal × Option ℕ))
      fun a s => s.journal = some a.1 := by
  apply Triple.ite
  · exact fun _ => Triple.ret fun _ _ h => h.1
  · intro hnot
    have hphase : j.phase = .pending := not_not.mp hnot
    apply Triple.bind ((does_markSigning hphase).pre fun s _ h => ⟨h.1, h.2 hphase⟩)
    rintro ⟨next, nonce⟩
    exact Triple.bind does_signSealed fun _ => Triple.ret fun _ _ h => h

theorem does_sealDeposit :
    Does restores w (fun s => s.journal = some j)
      (sealDeposit w j : RelayNativeProg H RelayNativeSourceJournal) fun next s => s.journal = some next := by
  apply Triple.ite
  · exact fun _ => Triple.ret fun _ _ h => h
  intro hnot
  have hphase : j.phase = .signingStarted := not_not.mp hnot
  apply Triple.bind (M := fun _ s => s.journal = some j)
  · exact Triple.ite (fun _ => does_markUnknown) fun _ => Triple.ret fun _ _ h => h
  intro _
  apply Triple.skip leaves_loadSlot
  intro slot _
  cases slot with
  | none =>
    apply Triple.ite
    · exact fun _ => Triple.ret fun _ _ h => h
    · intro _
      apply Triple.bind (M := fun next s => s.journal = some next)
      · apply Triple.skip leaves_unsignedSlot
        intro _ _
        apply Triple.skip leaves_refuse
        intro _ _
        apply Triple.skip leaves_now
        intro at' _
        refine (does_advance (P := fun _ => True) ?_).conseq (fun _ _ h => ⟨h, trivial⟩) ?_ fun _ _ _ h => h
        · intro s next hs hjournal _ hfollows
          apply hs.closes hjournal
          · rw [hphase]
            rfl
          · rw [hfollows.reached]
            rfl
          · rw [hfollows.reached]
            decide
        · rintro next s _ ⟨-, old, -, rfl⟩
          rfl
      · intro next
        exact Triple.bind does_settleUsage fun _ => Triple.ret fun _ _ h => h
  | some signed =>
    apply Triple.skip leaves_now
    intro at' _
    refine (does_advance (P := fun _ => True) ?_).conseq (fun _ _ h => ⟨h, trivial⟩) ?_ fun _ _ _ h => h
    · intro s next hs hjournal _ hfollows
      apply hs.stays hjournal
      · rw [hphase]
        rfl
      · rw [hfollows.reached]
        decide
      · rw [hphase]
        exact fun _ => rfl
    · rintro next s _ ⟨-, old, -, rfl⟩
      rfl

/-! ## The send -/

-- The claim, then the send: on Base nothing was sent before a claim that is taken.
theorem does_send (hphase : j.phase = .submitting)
    (hhash : j.transactionHash = some (w.hash.keccak256 m.rawTransaction)) :
    Triple (exec w) (Inv restores w)
      (fun s => s.journal = some j ∧ s.slot = some m ∧ (¬ restores → sends s.log = 0))
      (do
        claimBroadcast m.rawTransaction
        ask .authority
        send m.rawTransaction : RelayNativeProg H String)
      (fun _ s => s.journal = some j) fun _ s => s.journal = some j := by
  apply Triple.bind (M := fun _ s => s.journal = some j ∧ s.slot = some m ∧ (¬ restores → sends s.log = 0) ∧
    (w.op.chain = .base → s.broadcastClaim ≠ none ∧ sends s.log = 0))
  · apply Triple.run
    rintro s t answer hs ⟨hjournal, hslot, hsends⟩ (⟨hresult, rfl⟩ | ⟨⟨error, rfl⟩, rfl⟩)
    · unfold claimed at hresult
      split at hresult
      · rename_i hchain
        cases hresult
        exact ⟨hs, hjournal, hslot, hsends, fun hbase => absurd hbase hchain⟩
      split at hresult
      · cases hresult
      · rename_i hnone
        cases hresult
        refine ⟨hs.broadcastClaim, hjournal, hslot, hsends, fun hbase => ⟨fun h => (nomatch h), ?_⟩⟩
        exact (hs.claimed hbase).unclaimed (by simpa using hnone)
    · exact ⟨hs, hjournal⟩
  intro _
  apply Triple.silent (leaves_ask _) (fun _ _ _ h => h.1)
  intro _ _
  apply Triple.run
  rintro s t answer hs ⟨hjournal, hslot, hsends, hclaim⟩ rfl
  have hsent := hs.sent hjournal hphase hslot hhash hclaim hsends
  cases answer with
  | ok _ => exact ⟨hsent, hjournal⟩
  | error _ => exact ⟨hsent, hjournal⟩

theorem does_dispatchOnce (hphase : j.phase = .sealed) :
    Does restores w (fun s => s.journal = some j ∧ s.slot = some m)
      (dispatchOnce w j m.rawTransaction : RelayNativeProg H RelayNativeSourceJournal)
      fun next s => s.journal = some next := by
  apply Triple.skip leaves_refuse
  intro _ hnot
  have hhash : some (w.hash.keccak256 m.rawTransaction) = j.transactionHash := not_not.mp hnot
  apply Triple.skip leaves_now
  intro at' _
  apply Triple.pre (N := fun s => s.journal = some j ∧ s.slot = some m ∧ (¬ restores → sends s.log = 0))
  · apply Triple.bind (does_advance ?_)
    · intro next
      apply Triple.pre (N := fun s => Follows (some j) .submitting next ∧ s.journal = some next ∧
        s.slot = some m ∧ (¬ restores → sends s.log = 0))
      · apply Triple.assume
        intro hfollows
        have hnext : next.transactionHash = some (w.hash.keccak256 m.rawTransaction) := by
          rw [hfollows.hash j rfl (by decide), hhash]
        apply Triple.bind (M := fun _ s => s.journal = some next)
        · refine (Triple.attempt (does_send hfollows.reached hnext)).conseq (fun _ _ h => h) ?_
            fun _ _ _ h => h
          rintro (_ | _) _ _ h <;> exact h
        · exact fun _ => Triple.ret fun _ _ h => h
      · rintro s _ ⟨hfollows, old, ⟨hslot, hsends⟩, rfl⟩
        exact ⟨hfollows, rfl, hslot, hsends⟩
    · intro s next hs hjournal _ hfollows
      apply hs.stays hjournal
      · rw [hphase]
        rfl
      · rw [hfollows.reached]
        decide
      · rw [hfollows.reached]
        exact fun h => nomatch h
  · rintro s hs ⟨hjournal, hslot⟩
    refine ⟨hjournal, hslot, fun hown => (hs.kept hown).unsent ?_⟩
    rw [hjournal]
    show crossed j.phase = false
    rw [hphase]
    rfl

theorem does_sendDeposit {authorized : Bool} {signedNonce : Option ℕ} :
    Does restores w (fun s => s.journal = some j)
      (sendDeposit w authorized j signedNonce : RelayNativeProg H RelayNativeSourceJournal)
      fun next s => s.journal = some next := by
  apply Triple.ite
  · exact fun _ => Triple.ret fun _ _ h => h
  intro hnot
  apply Triple.skip leaves_takeAuthority
  intro _ _
  apply Triple.skip leaves_nonceOr
  intro nonce _
  apply Triple.bind does_loadSlot
  intro slot
  cases slot with
  | none => exact Triple.fail fun _ _ _ => trivial
  | some signed =>
    apply Triple.skip leaves_refuse
    intro _ _
    apply Triple.silent (Φ := fun _ => True) (Silent.ofExcept fun _ _ => trivial) (fun _ _ _ _ => trivial)
    intro _ _
    apply Triple.skip leaves_admission
    intro _ _
    apply Triple.skip (leaves_ask _)
    rintro _ _ s hs ⟨hcustody, hjournal⟩
    rcases hcustody signed rfl with ⟨m, hslot, hsigned⟩
    have hraw : signed.rawTransaction = m.rawTransaction := by rw [hsigned]
    rw [hraw]
    exact does_dispatchOnce (not_not.mp hnot) s hs ⟨hjournal, hslot⟩

theorem does_observeDeposit : Does restores w (fun s => s.journal = some j)
    (observeDeposit w j : RelayNativeProg H RelayNativeSourceJournal) fun _ _ => True := by
  apply Triple.ite
  · exact fun _ => Triple.ret fun _ _ _ => trivial
  intro hnot
  have hphase : j.phase = .submitting := not_not.mp hnot
  apply Triple.skip leaves_observe
  intro outcome _
  cases outcome with
  | none => exact Triple.ret fun _ _ _ => trivial
  | some outcome =>
    apply Triple.skip leaves_now
    intro at' _
    apply Triple.pre (N := fun s => s.journal = some j ∧ True)
    · apply Triple.bind (does_advance ?_)
      · intro next
        apply Triple.bind (M := fun _ s => s.journal = some next)
        · apply does_settleUsage.pre
          rintro s _ ⟨-, old, -, rfl⟩
          rfl
        · exact fun _ => Triple.ret fun _ _ _ => trivial
      · intro s next hs hjournal _ hfollows
        apply hs.stays hjournal
        · rw [hphase]
          rfl
        · rw [hfollows.reached]
          split <;> decide
        · rw [hphase, hfollows.reached]
          split <;> exact fun h => nomatch h
    · exact fun s _ h => ⟨h, trivial⟩

/-! ## One call -/

theorem does_attempt :
    Does restores w (fun s => s.journal = oj ∧ (phaseOf oj = .pending → Free s))
      (attempt' w oj : RelayNativeProg H RelayNativeSourceJournal) fun _ _ => True := by
  apply Triple.skip leaves_takeAuthority
  intro _ _
  apply Triple.skip leaves_confirmDeposit
  intro _ _
  apply Triple.skip leaves_assertAuthority
  intro _ _
  apply Triple.bind does_openJournal
  intro opened
  apply Triple.bind does_signDeposit
  rintro ⟨marked, nonce⟩
  apply Triple.bind does_sealDeposit
  intro signed
  exact Triple.bind does_sendDeposit fun sent => does_observeDeposit

theorem does_resume :
    Does restores w (fun s => s.journal = some j ∧ (j.phase = .pending → Free s))
      (resume w j : RelayNativeProg H RelayNativeSourceJournal) fun _ _ => True := by
  apply Triple.ite
  · intro _
    apply Triple.bind (does_settleUsage.pre fun s _ h => h.1)
    exact fun _ => Triple.ret fun _ _ _ => trivial
  · intro _
    apply Triple.skip leaves_unsignedOnBase
    intro unsigned _
    apply Triple.ite
    · intro _
      apply Triple.bind (does_markUnknown.pre fun s _ h => h.1)
      exact fun _ => Triple.ret fun _ _ _ => trivial
    · exact fun _ => does_attempt

/-- **One execute call**, from any state it can find. -/
theorem does_run : Does restores w (fun _ => True) (run w : RelayNativeProg H RelayNativeSourceJournal)
    fun _ _ => True := by
  apply Triple.skip (leaves_ask _)
  intro _ _
  apply Triple.bind does_loadJournal
  intro found
  apply Triple.bind (does_fenceClaims.pre fun s _ h => h.1)
  intro _
  apply Triple.bind does_releaseUnmarked
  intro _
  apply Triple.bind does_resumeSealed
  intro journal
  cases journal with
  | none => exact does_attempt
  | some j => exact does_resume

theorem does_command {prog : RelayNativeProg H Unit} (h : Command restores w prog) :
    Does restores w (fun _ => True) prog fun _ _ => True := by
  cases h with
  | execute => exact Triple.bind does_run fun _ => Triple.ret fun _ _ _ => trivial
  | restore version hrestores =>
    apply Triple.perform
    rintro s a t hs - ⟨-, rfl⟩
    exact ⟨hs.restore hrestores, trivial⟩

end PaymentNode.RelayNative

namespace PaymentNode

/-- Concurrent execute calls on one Ethereum-source operation, behind its locks. -/
abbrev RelayTokenStep (H : LedgerHash) (π : Type) [DecidableEq π] (w : RelaySetting) :=
  Locked.Step (π := π) (RelaySource.exec (H := H) w) (RelaySource.Command w)

/-- Concurrent execute calls on one native-source operation, behind its locks; with `restores`, an older journal
may be put back between them. -/
abbrev RelayNativeStep (H : LedgerHash) (π : Type) [DecidableEq π] (restores : Prop) (w : RelayNativeSetting) :=
  Locked.Step (π := π) (RelayNative.exec (H := H) w) (RelayNative.Command restores w)

variable {H : LedgerHash} {π : Type} [DecidableEq π] {token : RelaySetting} {native base : RelayNativeSetting}

/-- **Every effect of a Relay source is signed at most once and sent at most once**, from custody and over its
durable marker; the token deposit is signed behind a confirmed approval, and a native hold is released only
where nothing was sent.  On Base an older journal that is put back sends nothing again. -/
theorem relay_sources_sign_and_send_once
    {labels : List (Locked.Label RelayOp (RelayOp.Answer H) RelayError π)}
    {c : Locked.Config RelayOp (RelayOp.Answer H) RelayError (RelaySource.Shared H) π}
    {labels' labels'' : List (Locked.Label RelayNativeOp (RelayNativeOp.Answer H) RelayError π)}
    {c' c'' : Locked.Config RelayNativeOp (RelayNativeOp.Answer H) RelayError (RelayNative.Shared H) π}
    (htoken : Runs.Run (RelayTokenStep H π token) (Locked.idle RelaySource.Shared.start) labels c)
    (hnative : Runs.Run (RelayNativeStep H π False native) (Locked.idle RelayNative.Shared.start) labels' c')
    (hbase : base.op.chain = .base)
    (hrestored : Runs.Run (RelayNativeStep H π True base) (Locked.idle RelayNative.Shared.start) labels'' c'') :
    ((∀ role, RelaySource.signs role c.shared.log ≤ 1 ∧ RelaySource.sends role c.shared.log ≤ 1) ∧
        ∀ e ∈ c.shared.log, RelaySource.Lawful token e) ∧
      (RelayNative.signs c'.shared.log ≤ 1 ∧ RelayNative.sends c'.shared.log ≤ 1 ∧
        (∀ e ∈ c'.shared.log, RelayNative.Lawful native e) ∧
        ∀ r, c'.shared.row = some r → r.state = .failedBeforeEffect ∨ r.state = .releasedUnsubmitted →
          RelayNative.sends c'.shared.log = 0) ∧
      RelayNative.sends c''.shared.log ≤ 1 := by
  have hkept : RelaySource.Inv False token c.shared := by
    have hexec : Solo.Exec.only (RelaySource.exec (H := H) token) (RelaySource.MeetsIf False token) =
        RelaySource.exec token := by
      rw [RelaySource.meetsIf_false]
      exact Solo.Exec.only_true _
    unfold RelayTokenStep at htoken
    rw [← hexec] at htoken
    exact Locked.inv_of_run (fun _ h => RelaySource.does_command h) RelaySource.inv_start htoken
  have hown : RelayNative.Inv False native c'.shared :=
    Locked.inv_of_run (fun _ h => RelayNative.does_command h) RelayNative.inv_start hnative
  have hput : RelayNative.Inv True base c''.shared :=
    Locked.inv_of_run (fun _ h => RelayNative.does_command h) RelayNative.inv_start hrestored
  have hlane := hown.kept not_false
  refine ⟨⟨fun role => ⟨hkept.kept.signs role, hkept.kept.sends role⟩, hkept.kept.lawful⟩,
    ⟨hlane.signs, hlane.sends, hlane.lawful, ?_⟩, (hput.claimed hbase).sends⟩
  intro r hrow hreleased
  have hgiven : RelayNative.released r.state = true := by
    rcases hreleased with hstate | hstate <;> rw [hstate] <;> rfl
  apply hlane.unsent
  by_contra hcrossed
  have hlive : RelayNative.live (RelayNative.phaseOf c'.shared.journal) = true := by
    generalize RelayNative.phaseOf c'.shared.journal = phase at hcrossed ⊢
    cases phase <;> simp_all [RelayNative.live, RelayNative.crossed]
  rw [hlane.held hlive r hrow] at hgiven
  cases hgiven

namespace RelayNativeRuns

open RelayNative

def account : String := RelaySourceRuns.account
def depositHash : String := RelaySourceRuns.depositHash
def rawDeposit : String := "0x0d"

def phaseDigit : RelayNativeSourcePhase → Char
  | .pending => '0'
  | .signingStarted => '1'
  | .sealed => '2'
  | .submitting => '3'
  | .confirmed => '4'
  | .failed => '5'
  | .failedBeforeEffect => '6'
  | .abandonedUnsent => '7'

theorem first_le_deadline : firstInstantMs ≤ 1000000 := by decide

theorem deadline_le_last : 1000000 ≤ lastInstantMs := by decide

def op : RelayNativeOperation where
  profile := "default"
  profileHash := "0f"
  operationId := "op-2"
  integrityHash := "1f"
  chain := .base
  sourceAccount := account
  amountAtomic := 1000
  deadline := ⟨1000000, first_le_deadline, deadline_le_last⟩
  quoteDigest := "2f"
  requestId := "3f"
  routeReference := "route"
  policyDigest := "4f"
  policyRevision := 1
  policyActivationDigest := some "7f"
  depositNetworkFeeCeilingWei := 2000
  deposit := RelaySourceRuns.envelope ETHEREUM_DEPOSITORY "0xd0"

def hash : RelayNativeHash where
  hashObject := fun body => String.ofList [phaseDigit body.phase]
  depositEnvelope := fun _ => "5f"
  keccak256 := fun _ => depositHash
  parseTransaction := fun _ =>
    some ⟨account, 8453, true, ETHEREUM_DEPOSITORY, "0xd0", 0, some 100, some 20, some 2, some 7, 0⟩
  getAddress := fun address => address
  custodyBinding := fun _ => "deposit"
  noMarkerDigest := fun _ => "6f"

def setting : RelayNativeSetting := ⟨hash, ⟨fun _ _ => true, fun _ _ => true⟩, op⟩

def registry : AssetPolicyRegistry :=
  { RelaySourceRuns.registry with
    chains := [⟨"eip155:8453", .evm, [⟨.native, fun rail => rail = .bridge, some ⟨5000, 5000⟩,
      fun _ => none, none⟩]⟩] }

def answers : (q : RelayNativeAsk) → q.Answer
  | .assertOwner => ()
  | .retired => false
  | .activePolicy => some ⟨⟨"default", "4f", 1, account, registry⟩, "7f"⟩
  | .usageTotal _ => 1000
  | .policyAdmits _ _ _ => ()
  | .authority => ()
  | .confirm => true
  | .funding => 7
  | .walletAddress => some account

/-- A write of the own row. -/
def written (s : Shared RelaySourceRuns.ledgerHash)
    (write : Bucket RelaySourceRuns.ledgerHash →
      Result (Reservation RelaySourceRuns.ledgerHash × Bucket RelaySourceRuns.ledgerHash)) :
    Result (Reservation RelaySourceRuns.ledgerHash) × Shared RelaySourceRuns.ledgerHash :=
  ((ownWrite setting.usageKey s.row write).1, { s with row := (ownWrite setting.usageKey s.row write).2 })

/-- Ports that answer and files that work; the deposit is observed as `outcome`. -/
def play (outcome : Option RelayEffectOutcome) (s : Shared RelaySourceRuns.ledgerHash) :
    (o : RelayNativeOp) → o.Answer RelaySourceRuns.ledgerHash × Shared RelaySourceRuns.ledgerHash
  | .loadJournal => (loaded setting s.journal, s)
  | .advance expected phase transactionHash at' =>
    match advanced setting s.journal expected phase transactionHash at' RelaySourceRuns.attemptMarker with
    | .ok j => (.ok j, s.save j)
    | .error e => (.error e, s)
  | .restore version => ((), { s with journal := version })
  | .hasEffectClaim => (.ok (s.signingClaim.isSome ∨ s.broadcastClaim.isSome), s)
  | .claimSigning nonce =>
    match claimed setting s.signingClaim s { s with signingClaim := some nonce } with
    | .ok t => (.ok (), t)
    | .error e => (.error e, s)
  | .claimBroadcast raw =>
    match claimed setting s.broadcastClaim s { s with broadcastClaim := some raw } with
    | .ok t => (.ok (), t)
    | .error e => (.error e, s)
  | .loadSlot => (loadedSlot setting s.slot, s)
  | .sealSlot signed =>
    match sealedSlot setting s.slot signed with
    | .ok m => (.ok (), { s with slot := some m })
    | .error e => (.error e, s)
  | .discardSlot => (.ok (), { s with slot := none })
  | .unsignedSlot => (if s.slot.isNone then .ok () else .error (blockedError "signed_native_custody_exists"), s)
  | .hold .load => (s.row, s)
  | .hold (.transition input) =>
    written s fun bucket => PaymentNode.transition setting.usageKey.identity bucket input
  | .hold (.reserve input) =>
    written s fun bucket => reserveBound setting.addresses setting.usageKey.identity bucket input none
  | .now => (RelaySourceRuns.midnight, s)
  | .ask q => (.ok (answers q), s)
  | .sign _ => (.ok rawDeposit, s.add .signed)
  | .send raw => (.ok "", s.add (.sent raw s.slot s.journal))
  | .observe _ => (.ok outcome, s)
  | .unsentOutcome _ _ => (.ok .nonceNotConsumed, s)

def OwnRow (s : Shared RelaySourceRuns.ledgerHash) : Prop :=
  ∀ r, s.row = some r → r.reservationId = setting.usageKey.reservationId RelaySourceRuns.ledgerHash

/-- Only versions that were durable are put back. -/
def check (s : Shared RelaySourceRuns.ledgerHash) : RelayNativeOp → Bool
  | .restore version => version ∈ s.versions
  | _ => true

theorem play_exec (outcome : Option RelayEffectOutcome) (s : Shared RelaySourceRuns.ledgerHash)
    (o : RelayNativeOp) (hs : OwnRow s) (hcheck : check s o) :
    exec setting s o (play outcome s o).1 (play outcome s o).2 ∧ OwnRow (play outcome s o).2 := by
  cases o with
  | loadJournal => exact ⟨⟨rfl, rfl⟩, hs⟩
  | advance expected phase transactionHash at' =>
    refine ⟨⟨RelaySourceRuns.attemptMarker, RelaySourceRuns.marker_shape, ?_⟩, ?_⟩
    · simp only [play]
      cases advanced setting s.journal expected phase transactionHash at' RelaySourceRuns.attemptMarker <;>
        exact ⟨rfl, rfl⟩
    · simp only [play]
      cases advanced setting s.journal expected phase transactionHash at' RelaySourceRuns.attemptMarker <;>
        exact hs
  | restore version => exact ⟨⟨of_decide_eq_true hcheck, rfl⟩, hs⟩
  | hasEffectClaim =>
    refine ⟨⟨rfl, ?_⟩, hs⟩
    simp [play, setting, op]
  | claimSigning nonce =>
    simp only [exec, play]
    cases hclaim : claimed setting s.signingClaim s { s with signingClaim := some nonce } with
    | ok t =>
      refine ⟨Or.inl ⟨rfl, rfl⟩, ?_⟩
      unfold claimed at hclaim
      split at hclaim
      · cases hclaim
        exact hs
      split at hclaim <;> cases hclaim
      exact hs
    | error e => exact ⟨Or.inr ⟨⟨e, rfl⟩, rfl⟩, hs⟩
  | claimBroadcast raw =>
    simp only [exec, play]
    cases hclaim : claimed setting s.broadcastClaim s { s with broadcastClaim := some raw } with
    | ok t =>
      refine ⟨Or.inl ⟨rfl, rfl⟩, ?_⟩
      unfold claimed at hclaim
      split at hclaim
      · cases hclaim
        exact hs
      split at hclaim <;> cases hclaim
      exact hs
    | error e => exact ⟨Or.inr ⟨⟨e, rfl⟩, rfl⟩, hs⟩
  | loadSlot => exact ⟨⟨rfl, Or.inl rfl⟩, hs⟩
  | sealSlot signed =>
    simp only [exec, play]
    cases sealedSlot setting s.slot signed with
    | ok m => exact ⟨Or.inl ⟨rfl, rfl⟩, hs⟩
    | error e => exact ⟨Or.inr ⟨⟨e, rfl⟩, rfl⟩, hs⟩
  | discardSlot => exact ⟨Or.inl ⟨rfl, rfl⟩, hs⟩
  | unsignedSlot =>
    simp only [exec, play]
    by_cases hnone : s.slot.isNone
    · exact ⟨⟨trivial, fun _ => Option.isNone_iff_eq_none.mp hnone⟩, hs⟩
    · rw [if_neg hnone]
      exact ⟨⟨trivial, fun h => (nomatch h)⟩, hs⟩
  | hold q =>
    cases q with
    | load => exact ⟨⟨⟨rfl, rfl⟩, rfl⟩, hs⟩
    | transition input => exact ⟨⟨writeExec_own hs, rfl⟩, ownWrite_id hs⟩
    | reserve input => exact ⟨⟨writeExec_own hs, rfl⟩, ownWrite_id hs⟩
  | now => exact ⟨rfl, hs⟩
  | ask q => exact ⟨rfl, hs⟩
  | sign nonce => exact ⟨rfl, hs⟩
  | send raw => exact ⟨rfl, hs⟩
  | observe transactionHash => exact ⟨rfl, hs⟩
  | unsentOutcome nonce transactionHash => exact ⟨rfl, hs⟩

abbrev RelayNativeCall :=
  System.Call RelayNativeOp (RelayNativeOp.Answer RelaySourceRuns.ledgerHash) RelayError
    (Shared RelaySourceRuns.ledgerHash)

def execute (outcome : Option RelayEffectOutcome) : RelayNativeCall :=
  ⟨(run setting).bind fun _ => .ret (), play outcome, 200⟩

/-- The journal as it was before the send. -/
def unsent : Option RelayNativeSourceJournal :=
  (((execute none).after Shared.start).versions.drop 1).headD none

/-- The deposit is sent, and observed by a second call. -/
def settling : List RelayNativeCall := [execute none, execute (some .confirmed)]

/-- The deposit is sent, the journal from before the send is put back, and another call runs. -/
def restoring : List RelayNativeCall := [execute none, ⟨restore unsent, play none, 1⟩, execute none]

def after (calls : List RelayNativeCall) : Shared RelaySourceRuns.ledgerHash :=
  calls.foldl (fun s call => call.after s) Shared.start

theorem run_after {restores : Prop} {calls : List RelayNativeCall}
    (hcalls : ∀ call ∈ calls, Command restores setting call.prog ∧ ∃ outcome, call.answer = play outcome)
    (hchecked : System.checkedCalls check calls Shared.start) :
    ∃ labels, Runs.Run (RelayNativeStep RelaySourceRuns.ledgerHash Unit restores setting)
      (Locked.idle Shared.start) labels (Locked.lift (System.idle (after calls))) := by
  have hserial : ∃ labels, Runs.Run
      (Solo.Step (exec (H := RelaySourceRuns.ledgerHash) setting) (Command restores setting))
      (System.idle Shared.start) labels (System.idle (after calls)) := by
    refine System.run_calls_checked (I := OwnRow) (fun _ => rfl) calls ?_ _ (fun r hr => (nomatch hr)) hchecked
    intro call hcall
    rcases hcalls call hcall with ⟨hentry, outcome, hanswer⟩
    rw [hanswer]
    exact ⟨hentry, play_exec outcome⟩
  rcases hserial with ⟨labels, hrun⟩
  exact Locked.run_of_serial hrun

end RelayNativeRuns

open RelayNativeRuns in
/-- The token route and a Base deposit send their effects once; so does a Base deposit whose journal is put back
to a version from before its send. -/
theorem relay_sources_send_once_after_restore :
    (∀ role, RelaySource.signs role (RelaySourceRuns.after .success).log ≤ 1 ∧
        RelaySource.sends role (RelaySourceRuns.after .success).log ≤ 1) ∧
      RelaySource.stateOf (after settling).row = some .finalized ∧
      RelayNative.signs (after settling).log ≤ 1 ∧ RelayNative.sends (after settling).log = 1 ∧
      RelayNative.phaseOf unsent = .sealed ∧ RelayNative.phaseOf (after restoring).journal = .submitting ∧
      RelayNative.sends (after restoring).log = 1 := by
  rcases RelaySourceRuns.run_after .success (fun _ _ _ => True) (fun _ _ => true) (fun _ _ _ => trivial)
    (System.checkedCalls_true _ _) with ⟨_, hserial⟩
  unfold RelaySourceStep at hserial
  rw [Solo.Exec.only_true] at hserial
  rcases Locked.run_of_serial hserial with ⟨_, htoken⟩
  have hexecute : ∀ (restores : Prop) (outcome : Option RelayEffectOutcome),
      RelayNative.Command restores setting (execute outcome).prog ∧
        ∃ outcome', (execute outcome).answer = play outcome' :=
    fun restores outcome => ⟨.execute, outcome, rfl⟩
  have hsettling : ∀ call ∈ settling, RelayNative.Command False setting call.prog ∧
      ∃ outcome, call.answer = play outcome := by
    intro call hcall
    simp only [settling, List.mem_cons, List.not_mem_nil, or_false] at hcall
    rcases hcall with rfl | rfl <;> exact hexecute _ _
  have hrestoring : ∀ call ∈ restoring, RelayNative.Command True setting call.prog ∧
      ∃ outcome, call.answer = play outcome := by
    intro call hcall
    simp only [restoring, List.mem_cons, List.not_mem_nil, or_false] at hcall
    rcases hcall with rfl | rfl | rfl
    · exact hexecute _ _
    · exact ⟨.restore _ trivial, none, rfl⟩
    · exact hexecute _ _
  rcases run_after hsettling (by decide +kernel) with ⟨_, hnative⟩
  rcases run_after hrestoring (by decide +kernel) with ⟨_, hrestored⟩
  have hall := relay_sources_sign_and_send_once htoken hnative rfl hrestored
  exact ⟨hall.1.1, by decide +kernel, hall.2.1.1, by decide +kernel, by decide +kernel, by decide +kernel,
    by decide +kernel⟩

end PaymentNode
