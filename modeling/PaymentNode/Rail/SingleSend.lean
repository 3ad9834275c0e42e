import PaymentNode.Rail.Lifecycle

/-!
# SingleSend — a direct-rail operation is sent at most once

Any number of processes run `approve` and `resume` on one record, each killed wherever it may be.  The two
locks exclude, a write is durable and atomic, and everything else answers as it likes.  The process whose own
write made the record `submitting` owes its one send; no other process ever owes one, since a record past the
send boundary has no edge back to `submitting`.  `owed` is that bookkeeping: no program reads it.
-/

namespace PaymentNode

open RailProg System Discipline

/-- The durable record with the records it replaced (newest first), the two locks, and for each call of
`adapter.submit` the record stored when it was made. -/
structure RailShared (π : Type) where
  record : RailOperationRecord
  past : List RailOperationRecord
  money : Option π
  claim : Option π
  sends : List RailOperationRecord
  owed : Option π

section Semantics

variable {π : Type} [DecidableEq π]

/-- A durable write; the same record again changes nothing. -/
def RailShared.store (s : RailShared π) (p : π) (next : RailOperationRecord) : RailShared π :=
  if next = s.record then s
  else { s with
    record := next
    past := s.record :: s.past
    owed := if next.state = .submitting then some p else s.owed }

def railExec (p : π) (s : RailShared π) : (o : RailOp) → o.Answer → RailShared π → Prop
  | .lockMoney, answer, t =>
    match (answer : Result Unit) with
    | .ok () => s.money = none ∧ t = { s with money := some p }
    | .error _ => t = s
  | .unlockMoney, _, t => t = { s with money := dropped p s.money }
  | .lockClaim, answer, t =>
    match (answer : Result Unit) with
    | .ok () => s.claim = none ∧ t = { s with claim := some p }
    | .error _ => t = s
  | .unlockClaim, _, t => t = { s with claim := dropped p s.claim }
  | .load, answer, t =>
    t = s ∧ ∀ record, (answer : Result RailOperationRecord) = .ok record → record = s.record
  | .persist next, answer, t =>
    match (answer : Result Unit) with
    | .ok () => validateRailContinuity s.record next = .ok () ∧ t = s.store p next
    | .error _ => t = s
  | .submit _ _, _, t => t = { s with sends := s.record :: s.sends, owed := dropped p s.owed }
  | .ask _, _, t => t = s

/-- A process dies with its locks and its memory; what is durable stays. -/
def railCrash (p : π) (s t : RailShared π) : Prop :=
  t = { s with money := dropped p s.money, claim := dropped p s.claim, owed := dropped p s.owed }

def railSystem : System RailOp RailOp.Answer (RailShared π) π where
  exec := railExec
  crash := railCrash
  env := fun _ _ => False

def RailShared.prepared (record : RailOperationRecord) : RailShared π :=
  ⟨record, [], none, none, [], none⟩

end Semantics

/-! ## The invariant -/

def RailOperationRecord.hasSubmitting (r : RailOperationRecord) : Prop :=
  ∃ t ∈ r.transitions, t.state = .submitting

/-- Crossing the send boundary is for good. -/
def stayCrossed (newer older : RailOperationRecord) : Prop :=
  older.state.crossed → newer.state.crossed

structure RailInv {π : Type} (s : RailShared π) : Prop where
  crossed : s.record.hasSubmitting → s.record.state.crossed
  durable : (s.record :: s.past).Pairwise stayCrossed
  once : s.sends.length ≤ 1
  owed : s.owed.isSome → s.sends = []
  after : s.owed.isSome ∨ s.sends ≠ [] → s.record.hasSubmitting
  sentAfter : ∀ stored ∈ s.sends, stored.hasSubmitting

/-- The money locks keep the record still, and a debt is nobody else's to pay. -/
def railRely {π : Type} (p : π) (s t : RailShared π) : Prop :=
  (s.money = some p → t.money = some p ∧ t.record = s.record) ∧ (s.owed = some p → t.owed = some p)

def railDiscipline (π : Type) : Discipline (RailShared π) π := ⟨RailInv, railRely⟩

section Proof

variable {π : Type} {p : π} {α : Type}

theorem rely_refl (q : π) (s : RailShared π) : railRely q s s :=
  ⟨fun h => ⟨h, rfl⟩, id⟩

-- A step that leaves the record and the sends alone and only drops debts keeps the invariant.
theorem RailInv.of_same {s t : RailShared π} (h : RailInv s) (hrecord : t.record = s.record)
    (hpast : t.past = s.past) (hsends : t.sends = s.sends) (howed : t.owed.isSome → s.owed.isSome) :
    RailInv t := by
  refine ⟨?_, ?_, ?_, ?_, ?_, ?_⟩
  · rw [hrecord]
    exact h.crossed
  · rw [hrecord, hpast]
    exact h.durable
  · rw [hsends]
    exact h.once
  · intro ho
    rw [hsends]
    exact h.owed (howed ho)
  · intro ho
    rw [hrecord]
    apply h.after
    rw [hsends] at ho
    exact ho.imp howed id
  · rw [hsends]
    exact h.sentAfter

-- A new transition by the holder of the money locks.
theorem keeps_store {s : RailShared π} {next : RailOperationRecord} (hinv : RailInv s)
    (hheld : s.money = some p) (hearlier : next.earlier = s.record.transitions)
    (hedge : next.state ∈ s.record.state.edges) :
    (railDiscipline π).Keeps p s (s.store p next) ∧
      (next.state = .submitting → (s.store p next).owed = some p) := by
  have hne : next ≠ s.record := by
    intro heq
    have hlength := congrArg List.length hearlier
    rw [heq] at hlength
    simp [RailOperationRecord.transitions] at hlength
  have hstate : next.latest.state = next.state := rfl
  have hold : next.hasSubmitting → next.state = .submitting ∨ s.record.hasSubmitting := by
    rintro ⟨t, ht, hsub⟩
    rw [RailOperationRecord.transitions, hearlier] at ht
    rcases List.mem_cons.mp ht with rfl | ht
    · exact Or.inl hsub
    · exact Or.inr ⟨t, ht, hsub⟩
  have hcrossed : s.record.state.crossed → next.state.crossed :=
    fun h => RailState.crossed_of_edge h hedge
  have hkept : s.record.hasSubmitting → next.hasSubmitting := by
    rintro ⟨t, ht, hsub⟩
    refine ⟨t, ?_, hsub⟩
    rw [RailOperationRecord.transitions, hearlier]
    exact List.mem_cons_of_mem _ ht
  -- No edge leads into `submitting` from past the boundary: a first send is owed by nobody yet.
  have hfirst : next.state = .submitting → s.owed = none ∧ s.sends = [] := by
    intro hsub
    have hnot : ¬ s.record.state.crossed := by
      intro hc
      rw [hsub] at hedge
      revert hc hedge
      cases s.record.state <;> decide
    have hnone : ¬ (s.owed.isSome ∨ s.sends ≠ []) := fun h => hnot (hinv.crossed (hinv.after h))
    rw [not_or, not_not] at hnone
    exact ⟨by simpa using hnone.1, hnone.2⟩
  unfold RailShared.store
  rw [if_neg hne]
  refine ⟨⟨⟨?_, ?_, hinv.once, ?_, ?_, hinv.sentAfter⟩, ?_⟩, fun hsub => if_pos hsub⟩
  · intro hsub
    rcases hold hsub with hsub | hsub
    · show next.state.crossed
      rw [hsub]
      rfl
    · exact hcrossed (hinv.crossed hsub)
  · refine List.pairwise_cons.mpr ⟨?_, hinv.durable⟩
    intro older holder
    rcases List.mem_cons.mp holder with rfl | hpast
    · exact hcrossed
    · exact fun h => hcrossed ((List.pairwise_cons.mp hinv.durable).1 older hpast h)
  · intro howed
    by_cases hsub : next.state = .submitting
    · exact (hfirst hsub).2
    · exact hinv.owed (by simpa [hsub] using howed)
  · intro h
    by_cases hsub : next.state = .submitting
    · exact ⟨next.latest, List.mem_cons_self, hsub⟩
    · exact hkept (hinv.after (by simpa [hsub] using h))
  · intro q hq
    refine ⟨?_, ?_⟩
    · intro hmoney
      rw [hheld] at hmoney
      exact absurd (Option.some.inj hmoney).symm hq
    · intro howed
      show (if next.state = .submitting then some p else s.owed) = some q
      rw [if_neg, howed]
      intro hsub
      rw [(hfirst hsub).1] at howed
      cases howed

/-- `p` holds the money locks. -/
def Holds (p : π) (s : RailShared π) : Prop := s.money = some p

/-- `p` holds the money locks and `operation` is the stored record. -/
def Held (p : π) (operation : RailOperationRecord) (s : RailShared π) : Prop :=
  s.money = some p ∧ s.record = operation

/-- `p` owes the one send, where `due`. -/
def Owes (p : π) (due : Prop) (s : RailShared π) : Prop := due → s.owed = some p

theorem stable_true : (railDiscipline π).Stable p fun _ => True :=
  fun _ _ _ _ => trivial

theorem stable_holds : (railDiscipline π).Stable p (Holds p) :=
  fun _ _ hst h => (hst.2.2.1 h).1

variable {operation : RailOperationRecord}

theorem stable_held :
    (railDiscipline π).Stable p (Held p operation) := by
  rintro s t hst ⟨hmoney, hrecord⟩
  rcases hst.2.2.1 hmoney with ⟨hmoney', hrecord'⟩
  exact ⟨hmoney', hrecord'.trans hrecord⟩

theorem stable_owes {due : Prop} : (railDiscipline π).Stable p (Owes p due) :=
  fun _ _ hst h hdue => hst.2.2.2 (h hdue)

theorem keeps_quiet_lock {s t : RailShared π} (hinv : RailInv s) (hrecord : t.record = s.record)
    (hpast : t.past = s.past) (hsends : t.sends = s.sends) (howed : t.owed = s.owed)
    (hmoney : ∀ q, q ≠ p → s.money = some q → t.money = some q) :
    (railDiscipline π).Keeps p s t := by
  refine ⟨hinv.of_same hrecord hpast hsends (by rw [howed]; exact id), ?_⟩
  intro q hq
  exact ⟨fun h => ⟨hmoney q hq h, hrecord⟩, fun h => by rw [howed]; exact h⟩

variable [DecidableEq π]

theorem keeps_send {s : RailShared π} (hinv : RailInv s) (howed : s.owed = some p) :
    (railDiscipline π).Keeps p s
      { s with sends := s.record :: s.sends, owed := dropped p s.owed } := by
  have hsome : s.owed.isSome := by
    rw [howed]
    rfl
  have hempty : s.sends = [] := hinv.owed hsome
  have hsub : s.record.hasSubmitting := hinv.after (Or.inl hsome)
  have hnone : dropped p s.owed = none := by
    unfold dropped
    rw [if_pos howed]
  refine ⟨⟨hinv.crossed, hinv.durable, ?_, ?_, fun _ => hsub, ?_⟩, ?_⟩
  · simp [hempty]
  · intro h
    rw [hnone] at h
    cases h
  · intro stored hstored
    rw [hempty] at hstored
    rw [List.mem_singleton.mp hstored]
    exact hsub
  · intro q hq
    refine ⟨fun hmoney => ⟨hmoney, rfl⟩, ?_⟩
    intro h
    rw [howed] at h
    exact absurd (Option.some.inj h).symm hq

/-! ## What each operation does from what its process knows -/

/-- A specification of `p`'s part of the rail system. -/
abbrev RailSpec (p : π) (P : RailShared π → Prop) (x : RailProg α) (Q : α → RailShared π → Prop)
    (E : ApnError → RailShared π → Prop) : Prop :=
  (railDiscipline π).Spec railSystem p P x Q E

variable {P : RailShared π → Prop} {E : ApnError → RailShared π → Prop} {q : RailAsk}

theorem spec_ask (hP : (railDiscipline π).Stable p P) : RailSpec p P (ask q) (fun _ => P) E := by
  apply Spec.quiet hP (fun q s _ => rely_refl q s) (fun s a t h => h)
  exact fun a => Spec.ret fun s _ h => h

theorem spec_lift {r : Result α} :
    RailSpec p P (lift r) (fun a s => r = .ok a ∧ P s) fun _ => P := by
  cases r with
  | ok a => exact Spec.ret fun s _ h => ⟨rfl, h⟩
  | error e => exact Spec.fail fun s _ h => h

theorem spec_call {h : q.Answer = Result α}
    (hP : (railDiscipline π).Stable p P) : RailSpec p P (call q h) (fun _ => P) fun _ => P := by
  apply Spec.bind (spec_ask hP)
  intro answer
  exact Spec.post spec_lift fun _ _ _ h => h.2

theorem spec_load_held :
    RailSpec p (Holds p) load (fun operation => Held p operation) fun _ => Holds p := by
  unfold load
  apply Spec.op (M := fun answer s =>
    Holds p s ∧ ∀ record, (answer : Result RailOperationRecord) = .ok record → record = s.record)
    stable_holds
  · rintro s answer t hinv hheld ⟨rfl, hanswer⟩
    exact ⟨⟨hinv, fun q _ => rely_refl q t⟩, hheld, hanswer⟩
  · intro answer
    apply Spec.conseq (spec_lift (r := (answer : Result RailOperationRecord)))
      (fun s _ h => h)
    · rintro record s _ ⟨hok, hheld, hanswer⟩
      exact ⟨hheld, (hanswer record hok).symm⟩
    · exact fun e s _ h => h.1

theorem spec_load_free : RailSpec p (fun _ => True) load (fun _ _ => True) fun _ _ => True := by
  unfold load
  apply Spec.op (M := fun _ _ => True) stable_true
  · rintro s answer t hinv _ ⟨rfl, _⟩
    exact ⟨⟨hinv, fun q _ => rely_refl q t⟩, trivial⟩
  · intro answer
    exact Spec.conseq spec_lift (fun s _ _ => trivial) (fun _ _ _ _ => trivial)
      fun _ _ _ _ => trivial

-- A write of one transition more over the record the process holds.
theorem spec_persist {operation next : RailOperationRecord}
    (hearlier : next.earlier = operation.transitions) :
    RailSpec p (Held p operation) (persist next)
      (fun _ s => Held p next s ∧ Owes p (next.state = .submitting) s) fun _ => Holds p := by
  unfold persist
  apply Spec.op (M := fun answer s =>
    (∀ u, (answer : Result Unit) = .ok u →
      Held p next s ∧ Owes p (next.state = .submitting) s) ∧ Holds p s) stable_held
  · rintro s answer t hinv ⟨hmoney, hrecord⟩ hexec
    rw [← hrecord] at hearlier
    cases answer with
    | error e =>
      cases hexec
      exact ⟨⟨hinv, fun q _ => rely_refl q s⟩, (fun u h => nomatch h), hmoney⟩
    | ok u =>
      rcases hexec with ⟨hcontinuity, rfl⟩
      have hedge : next.state ∈ s.record.state.edges := by
        rcases validateRailContinuity_ok hcontinuity with heq | ⟨_, hedge⟩
        · have hlength := congrArg List.length hearlier
          rw [heq] at hlength
          simp [RailOperationRecord.transitions] at hlength
        · exact hedge
      rcases keeps_store hinv hmoney hearlier hedge with ⟨hkeeps, howes⟩
      have hstored : (s.store p next).record = next ∧ (s.store p next).money = s.money := by
        unfold RailShared.store
        split
        · exact ⟨by rename_i h; exact h.symm, rfl⟩
        · exact ⟨rfl, rfl⟩
      have hheld : Held p next (s.store p next) := ⟨hstored.2.trans hmoney, hstored.1⟩
      exact ⟨hkeeps, fun _ _ => ⟨hheld, howes⟩, hheld.1⟩
  · intro answer
    apply Spec.conseq (spec_lift (r := (answer : Result Unit))) (fun s _ h => h)
    · rintro u s _ ⟨hok, h, _⟩
      exact h u hok
    · exact fun e s _ h => h.2

variable {input : RailTransitionInput}

/-- **A transition under the locks** leaves the record it made, and the send it owes if it is the intent. -/
theorem spec_move :
    RailSpec p (Held p operation) (move operation input)
      (fun next s => Held p next s ∧ Owes p (input.state = .submitting) s) fun _ => Holds p := by
  unfold move
  apply Spec.bind (spec_ask stable_held)
  intro at'
  apply Spec.bind (Spec.conseq spec_lift (fun s _ h => h) (fun a s _ h => h)
    fun e s _ h => h.1)
  intro next s hinv hs
  rcases transitionRail_ok hs.1 with ⟨hstate, hearlier, _⟩
  have hrest : RailSpec p (Held p operation)
      ((persist next).bind fun _ => followUsage.bind fun _ => Prog.ret next)
      (fun next s => Held p next s ∧ Owes p (input.state = .submitting) s) fun _ => Holds p := by
    apply Spec.bind (spec_persist hearlier)
    intro _
    apply Spec.bind (M := fun _ s => Held p next s ∧ Owes p (next.state = .submitting) s)
    · apply Spec.conseq (spec_call (stable_held.and stable_owes)) (fun s _ h => h)
        (fun a s _ h => h)
      exact fun e s _ h => h.1.1
    · intro _
      apply Spec.ret
      rintro s _ ⟨hheld, howes⟩
      refine ⟨hheld, fun hsub => howes ?_⟩
      rw [hstate]
      exact hsub
  exact hrest s hinv hs.2

theorem spec_send {effect : Option RailSignedEffect} (due : Prop) (hdue : due) (hP : (railDiscipline π).Stable p P)
    (hkept : ∀ s, P s → P { s with sends := s.record :: s.sends, owed := dropped p s.owed }) :
    RailSpec p (fun s => P s ∧ Owes p due s) (Prog.perform (RailOp.submit operation effect))
      (fun _ => P) E := by
  apply Spec.op (M := fun _ => P) (hP.and stable_owes)
  · rintro s answer t hinv ⟨hPs, howes⟩ rfl
    exact ⟨keeps_send hinv (howes hdue), hkept s hPs⟩
  · exact fun _ => Spec.ret fun s _ h => h

-- A phase under the money locks hands on only what does not need them.
theorem spec_withMoneyLocks {x : RailProg α} (due : α → Prop)
    (hx : RailSpec p (Holds p) x (fun a s => Holds p s ∧ Owes p (due a) s) fun _ => Holds p) :
    RailSpec p (fun _ => True) (withMoneyLocks x) (fun a => Owes p (due a)) fun _ _ => True := by
  unfold withMoneyLocks
  apply Spec.bind (M := fun _ => Holds p)
  · apply Spec.op (M := fun answer s =>
      ∀ u, (answer : Result Unit) = .ok u → Holds p s) stable_true
    · intro s answer t hinv _ hexec
      cases answer with
      | error e =>
        cases hexec
        exact ⟨⟨hinv, fun q _ => rely_refl q s⟩, fun u h => by cases h⟩
      | ok u =>
        rcases hexec with ⟨hfree, rfl⟩
        refine ⟨keeps_quiet_lock hinv rfl rfl rfl rfl ?_, fun _ _ => rfl⟩
        intro q _ h
        rw [hfree] at h
        cases h
    · intro answer
      apply Spec.conseq (spec_lift (r := (answer : Result Unit))) (fun s _ h => h)
      · exact fun u s _ h => h.2 u h.1
      · exact fun _ _ _ _ => trivial
  · intro _
    -- Unlocking leaves the debt as it is.
    have hunlock : ∀ due : Prop, RailSpec p (fun s => Holds p s ∧ Owes p due s)
        (Prog.perform RailOp.unlockMoney) (fun _ => Owes p due) fun _ _ => True := by
      intro due
      apply Spec.op (M := fun _ => Owes p due) (stable_holds.and stable_owes)
      · rintro s answer t hinv ⟨_, howes⟩ rfl
        exact ⟨keeps_quiet_lock hinv rfl rfl rfl rfl fun q hq h => dropped_ne hq h, howes⟩
      · exact fun _ => Spec.ret fun s _ h => h
    apply Spec.finally hx
    · exact fun a => hunlock (due a)
    · intro e
      apply Spec.conseq (hunlock False) (fun s _ h => ⟨h, fun hf => hf.elim⟩)
      · exact fun _ _ _ _ => trivial
      · exact fun _ _ _ h => h

theorem spec_withClaimLock {x : RailProg α}
    (hx : RailSpec p (fun _ => True) x (fun _ _ => True) fun _ _ => True) :
    RailSpec p (fun _ => True) (withClaimLock x) (fun _ _ => True) fun _ _ => True := by
  unfold withClaimLock
  apply Spec.bind (M := fun _ _ => True)
  · apply Spec.op (M := fun _ _ => True) stable_true
    · intro s answer t hinv _ hexec
      cases answer with
      | error e =>
        cases hexec
        exact ⟨⟨hinv, fun q _ => rely_refl q s⟩, trivial⟩
      | ok u =>
        rcases hexec with ⟨_, rfl⟩
        exact ⟨keeps_quiet_lock hinv rfl rfl rfl rfl fun q _ h => h, trivial⟩
    · intro answer
      exact Spec.conseq spec_lift (fun s _ _ => trivial) (fun _ _ _ _ => trivial)
        fun _ _ _ _ => trivial
  · intro _
    have hunlock : RailSpec p (fun _ => True) (Prog.perform RailOp.unlockClaim)
        (fun _ _ => True) fun _ _ => True := by
      apply Spec.op (M := fun _ _ => True) stable_true
      · rintro s answer t hinv _ rfl
        exact ⟨keeps_quiet_lock hinv rfl rfl rfl rfl fun q _ h => h, trivial⟩
      · exact fun _ => Spec.ret fun s _ h => h
    exact Spec.finally hx (fun _ => hunlock) fun _ => hunlock

/-! ## The calls -/

-- A transition, where nothing depends on the send it may owe.
theorem spec_move_held :
    RailSpec p (Held p operation) (move operation input) (fun next => Held p next) fun _ => Holds p :=
  Spec.post spec_move fun _ _ _ h => h.1

theorem spec_move_holds :
    RailSpec p (Held p operation) (move operation input) (fun _ => Holds p) fun _ => Holds p :=
  Spec.post spec_move fun _ _ _ h => h.1.1

variable {Q : α → RailShared π → Prop}

theorem spec_fail {e : ApnError} :
    RailSpec p P (Prog.fail e) Q fun _ => P :=
  Spec.fail fun _ _ h => h

theorem spec_failBefore {reason : String} {error : ApnError} :
    RailSpec p (Held p operation) (failBefore operation reason error) Q fun _ => Holds p :=
  Spec.bind spec_move_holds fun _ => spec_fail

-- A question under the locks keeps the held record, answered or refused.
theorem spec_call_held {h : q.Answer = Result α} :
    RailSpec p (Held p operation) (call q h) (fun _ => Held p operation) fun _ => Held p operation :=
  spec_call stable_held

theorem spec_call_holds {h : q.Answer = Result α} :
    RailSpec p (Held p operation) (call q h) (fun _ => Held p operation) fun _ => Holds p :=
  Spec.conseq spec_call_held (fun _ _ h => h) (fun _ _ _ h => h) fun _ _ _ h => h.1

theorem spec_lift_holds {r : Result α} :
    RailSpec p (Held p operation) (lift r) (fun _ => Held p operation) fun _ => Holds p :=
  Spec.conseq spec_lift (fun _ _ h => h) (fun _ _ _ h => h.2) fun _ _ _ h => h.1

theorem spec_ret_held {a : α} :
    RailSpec p (Held p operation) (Prog.ret a) (fun _ => Holds p) fun _ => Holds p :=
  Spec.ret fun _ _ h => h.1

theorem spec_fail_held {e : ApnError} :
    RailSpec p (Held p operation) (Prog.fail e) Q fun _ => Holds p :=
  Spec.fail fun _ _ h => h.1

theorem spec_reserveUsage :
    RailSpec p (Held p operation) (reserveUsage operation) (fun _ => Held p operation)
      fun _ => Holds p := by
  unfold reserveUsage
  apply Spec.bind (Spec.handle spec_call_held fun _ => spec_failBefore)
  intro _
  apply Spec.handle (M := fun _ => Held p operation)
  · split
    · exact spec_fail
    · exact spec_call_held
  · exact fun _ => spec_failBefore

theorem spec_observation (hP : (railDiscipline π).Stable p P) :
    RailSpec p P (observation operation) (fun _ => P) E := by
  unfold observation
  split
  · exact Spec.ret fun _ _ h => h
  · exact Spec.bind (spec_ask hP) fun _ => Spec.ret fun _ _ h => h

theorem spec_inspect :
    RailSpec p (Held p operation) (inspect operation) (fun _ => Holds p) fun _ => Holds p := by
  apply Spec.bind (spec_observation stable_held)
  intro found
  split
  · exact spec_ret_held
  · exact spec_move_holds

-- The generic send: the intent is durable, the one send it owes is made, and the answer is bound.
theorem spec_submit {effect : Option RailSignedEffect} {lease : Option String} :
    RailSpec p (Held p operation) (submit operation effect lease) (fun _ => Holds p)
      fun _ => Holds p := by
  unfold submit
  apply Spec.bind spec_move
  intro submitting
  apply Spec.bind (spec_send _ rfl stable_held fun s h => h)
  intro answer
  split
  · exact spec_move_holds
  · split
    · exact spec_move_holds
    · apply Spec.bind spec_move_held
      exact fun _ => spec_inspect

theorem spec_firstLocalSubmit {effect : RailSignedEffect} {sealedNow : Bool} :
    RailSpec p (Held p operation) (firstLocalSubmit operation effect sealedNow) (fun _ => Holds p)
      fun _ => Holds p := by
  unfold firstLocalSubmit
  apply Spec.bind (M := fun ended s =>
    Holds p s ∧ (ended = none → Held p operation s))
  · apply Spec.handle (M := fun _ => Held p operation)
    · apply Spec.bind (M := fun _ => Held p operation)
      · cases sealedNow <;> exact spec_call_held (h := rfl)
      · exact fun _ => Spec.ret fun _ _ h => ⟨h.1, fun _ => h⟩
    · intro error
      split
      · apply Spec.bind spec_move_holds
        exact fun _ => Spec.ret fun _ _ h => ⟨h, fun h => by cases h⟩
      · exact spec_fail_held
  · intro ended
    cases ended with
    | some ended => exact Spec.ret fun _ _ h => h.1
    | none => exact Spec.pre spec_submit fun _ _ h => h.2 rfl

theorem spec_finishLocalApproval :
    RailSpec p (Held p operation) (finishLocalApproval operation) (fun _ => Holds p)
      fun _ => Holds p := by
  unfold finishLocalApproval
  apply Spec.bind (M := fun _ => Held p operation)
  · apply Spec.handle spec_call_held
    intro error
    apply Spec.bind spec_call_holds
    intro recovered
    cases recovered with
    | none => exact spec_failBefore
    | some _ => exact spec_fail_held
  · intro effect
    apply Spec.bind spec_lift_holds
    intro _
    apply Spec.bind spec_move_held
    exact fun _ => spec_firstLocalSubmit

-- A locked phase that hands on no debt.
theorem spec_locked {x : RailProg α}
    (hx : RailSpec p (Holds p) x (fun _ => Holds p) fun _ => Holds p) :
    RailSpec p (fun _ => True) (withMoneyLocks x) (fun _ _ => True) fun _ _ => True := by
  apply Spec.conseq (spec_withMoneyLocks (fun _ => False) _) (fun _ _ h => h)
    (fun _ _ _ _ => trivial) (fun _ _ _ h => h)
  exact Spec.post hx fun _ _ _ h => ⟨h, fun hf => hf.elim⟩

-- A locked phase that begins with the record it loads.
theorem spec_locked_load {f : RailOperationRecord → RailProg α}
    (hf : ∀ operation, RailSpec p (Held p operation) (f operation) (fun _ => Holds p) fun _ => Holds p) :
    RailSpec p (fun _ => True) (withMoneyLocks (load.bind f)) (fun _ _ => True) fun _ _ => True :=
  spec_locked (Spec.bind spec_load_held hf)

theorem spec_approveLocked :
    RailSpec p (fun _ => True) approveLocked (fun _ _ => True) fun _ _ => True := by
  apply spec_locked_load
  intro operation
  apply Spec.bind spec_call_holds
  intro _
  split
  · exact spec_ret_held
  split
  · exact Spec.post spec_lift_holds fun _ _ _ h => h.1
  apply Spec.bind spec_call_holds
  intro _
  apply Spec.bind (M := fun _ => Held p operation)
  · apply Spec.handle (M := fun _ => Held p operation)
    · split
      · exact spec_fail
      · apply Spec.bind spec_call_held
        intro _
        apply Spec.bind spec_call_held
        exact fun _ => spec_call_held
    · exact fun _ => spec_failBefore
  intro _
  apply Spec.bind (spec_ask stable_held)
  intro providerAtomic
  split
  · apply Spec.bind spec_reserveUsage
    exact fun _ => spec_submit
  · apply Spec.bind (Spec.handle spec_call_held fun _ => spec_failBefore)
    intro send
    apply Spec.bind spec_reserveUsage
    intro lease
    apply Spec.bind spec_move_held
    exact fun _ => spec_finishLocalApproval

theorem spec_bindRecovered {effect : RailSignedEffect} :
    RailSpec p (Held p operation) (bindRecovered operation effect) (fun next => Held p next)
      fun _ => Holds p := by
  unfold bindRecovered
  split
  · exact spec_move_held
  · exact Spec.ret fun _ _ h => h

theorem spec_interruptSubmission :
    RailSpec p (Held p operation) (interruptSubmission operation) (fun next => Held p next)
      fun _ => Holds p := by
  unfold interruptSubmission
  split
  · exact spec_move_held
  · exact Spec.ret fun _ _ h => h

theorem spec_resumeLocked :
    RailSpec p (fun _ => True) resumeLocked (fun _ _ => True) fun _ _ => True := by
  apply spec_locked_load
  intro operation
  apply Spec.bind spec_call_holds
  intro _
  split
  · exact spec_ret_held
  split
  · apply Spec.bind spec_call_holds
    intro effect
    cases effect with
    | none =>
      dsimp only
      split
      · exact Spec.post spec_lift_holds fun _ _ _ h => h.1
      · exact spec_move_holds
    | some effect =>
      apply Spec.bind spec_lift_holds
      intro _
      apply Spec.bind spec_bindRecovered
      exact fun _ => spec_firstLocalSubmit
  · apply Spec.bind spec_interruptSubmission
    exact fun _ => spec_inspect

/-! ## The claimed local Solana path -/

/-- A call that needs nothing and promises nothing but the invariant. -/
abbrev Free (p : π) (x : RailProg α) : Prop :=
  RailSpec p (fun _ => True) x (fun _ _ => True) fun _ _ => True

theorem free_ret {a : α} : Free p (Prog.ret a) :=
  Spec.ret fun _ _ _ => trivial

theorem free_fail {e : ApnError} : Free p (Prog.fail e : RailProg α) :=
  Spec.fail fun _ _ _ => trivial

theorem free_call {h : q.Answer = Result α} : Free p (call q h) :=
  spec_call stable_true

theorem free_bind {β : Type} {x : RailProg α} {f : α → RailProg β} (hx : Free p x)
    (hf : ∀ a, Free p (f a)) : Free p (x.bind f) :=
  Spec.bind hx hf

theorem free_handle {x : RailProg α} {f : ApnError → RailProg α} (hx : Free p x)
    (hf : ∀ e, Free p (f e)) : Free p (x.handle f) :=
  Spec.handle hx hf

variable {initial : RailOperationRecord} {mayStartSigning : Bool}

theorem free_recoverStarted :
    Free p (recoverStarted initial mayStartSigning) := by
  apply spec_locked_load
  intro latest
  split
  · exact spec_ret_held
  apply Spec.bind spec_call_holds
  intro sealed'
  cases sealed' with
  | none =>
    dsimp only
    split
    · exact spec_ret_held
    · exact Spec.bind spec_move_held fun _ => spec_ret_held
  | some effect =>
    apply Spec.bind spec_lift_holds
    intro _
    exact Spec.bind spec_move_held fun _ => spec_ret_held

theorem free_failUnsealed {pending : RailOperationRecord} : Free p (failUnsealed pending) := by
  apply spec_locked_load
  intro latest
  split
  · exact spec_ret_held
  apply Spec.bind spec_call_holds
  intro sealed'
  split
  · exact spec_ret_held
  · exact Spec.bind spec_move_held fun _ => spec_ret_held

theorem free_sealStarted {pending : RailOperationRecord} : Free p (sealStarted pending) := by
  apply spec_locked_load
  intro latest
  split
  · exact spec_ret_held
  apply Spec.bind (Spec.handle spec_call_held fun _ => spec_failBefore)
  intro _
  apply Spec.bind (M := fun _ => Held p latest)
  · apply Spec.handle spec_call_held
    intro error
    apply Spec.bind spec_call_holds
    intro recovered
    split
    · exact spec_failBefore
    · exact spec_fail_held
  intro effect
  apply Spec.bind spec_lift_holds
  intro _
  exact Spec.bind spec_move_held fun _ => spec_ret_held

theorem free_recoverSigned : Free p (recoverSigned initial) := by
  apply spec_locked_load
  intro latest
  split
  · exact spec_ret_held
  apply Spec.bind spec_call_holds
  intro sealed'
  cases sealed' with
  | none =>
    exact Spec.post spec_lift_holds fun _ _ _ h => h.1
  | some effect =>
    apply Spec.bind spec_lift_holds
    exact fun _ => spec_ret_held

theorem free_signedPhase :
    Free p (signedPhase initial mayStartSigning) := by
  unfold signedPhase
  split
  · apply free_bind free_recoverStarted
    intro recovered
    split
    · exact free_ret
    · exact free_ret
    · apply free_bind
      · apply free_handle free_call
        exact fun _ => free_bind free_failUnsealed fun _ => free_fail
      · intro _
        apply free_bind free_sealStarted
        intro sealed'
        split
        · exact free_ret
        · exact free_ret
  split
  · apply free_bind free_recoverSigned
    intro recovered
    split
    · exact free_ret
    · exact free_ret
  · exact free_ret

theorem free_revalidateSigned {signed : RailOperationRecord} :
    Free p (revalidateSigned signed) := by
  unfold revalidateSigned
  apply free_handle
  · exact free_bind free_call fun _ => free_ret
  · intro error
    split
    · exact free_fail
    · apply spec_locked_load
      intro latest
      split
      · exact spec_ret_held
      · exact Spec.bind spec_move_held fun _ => spec_ret_held

/-- The phase handed on the record it wrote. -/
def Phase.isNext {β : Type} : Phase β → Prop
  | .done _ => False
  | .next _ => True

-- Whoever is handed the committed intent owes its send.
theorem spec_commitSubmitting {signed : RailOperationRecord} :
    RailSpec p (fun _ => True) (commitSubmitting signed) (fun phase => Owes p phase.isNext)
      fun _ _ => True := by
  apply spec_withMoneyLocks Phase.isNext
  apply Spec.bind spec_load_held
  intro latest
  split
  · exact Spec.ret fun _ _ h => ⟨h.1, fun hf => hf.elim⟩
  apply Spec.bind (M := fun refused s =>
    Holds p s ∧ (refused = none → Held p latest s))
  · apply Spec.handle (M := fun _ => Held p latest)
    · apply Spec.bind spec_call_held
      exact fun _ => Spec.ret fun _ _ h => ⟨h.1, fun _ => h⟩
    · intro error
      apply Spec.bind spec_move_holds
      exact fun _ => Spec.ret fun _ _ h => ⟨h, fun h => nomatch h⟩
  · intro refused
    cases refused with
    | some ended => exact Spec.ret fun _ _ h => ⟨h.1, fun hf => hf.elim⟩
    | none =>
      have hmove : RailSpec p (Held p latest)
          ((move latest (toState .submitting "submission_intent_persisted")).bind fun submitting =>
            Prog.ret (Phase.next submitting))
          (fun phase s => Holds p s ∧ Owes p phase.isNext s) fun _ => Holds p := by
        apply Spec.bind spec_move
        exact fun _ => Spec.ret fun _ _ h => ⟨h.1.1, fun _ => h.2 rfl⟩
      exact Spec.pre hmove fun _ _ h => h.2 rfl

theorem free_acknowledge {submitting : RailOperationRecord} {transactionId : Option String} :
    Free p (acknowledge submitting transactionId) := by
  apply spec_locked_load
  intro latest
  split
  · exact spec_ret_held
  split
  · exact spec_move_holds
  · exact spec_move_holds

-- The send outside the money locks is made by the process that owes it.
theorem free_executeLocalSolanaClaimed {again : RailProg RailOperationRecord} (hagain : Free p again) :
    Free p (executeLocalSolanaClaimed initial mayStartSigning again) := by
  apply free_bind free_signedPhase
  intro signed
  split
  · exact free_ret
  apply free_bind
  · split
    · exact free_ret
    · exact free_revalidateSigned
  intro checked
  split
  · exact free_ret
  apply Spec.bind spec_commitSubmitting
  intro committed
  cases committed with
  | done operation => exact Spec.ret fun _ _ _ => trivial
  | next submitting =>
    apply Spec.bind (M := fun _ _ => True)
    · apply Spec.pre (spec_send True trivial stable_true fun _ h => h)
      exact fun _ _ h => ⟨trivial, h⟩
    · intro answer
      apply free_bind free_acknowledge
      intro acknowledged
      split
      · exact free_ret
      · exact hagain

theorem free_resumeSnapshot {hasClaim : Bool} : Free p (resumeSnapshot hasClaim) := by
  apply spec_locked_load
  intro operation
  apply Spec.bind spec_call_holds
  intro _
  split
  · exact spec_ret_held
  split
  · exact spec_ret_held
  split
  · exact spec_ret_held
  · exact Spec.bind spec_interruptSubmission fun _ => spec_ret_held

theorem free_observeFrozen {frozen : RailOperationRecord} : Free p (observeFrozen frozen) := by
  apply free_bind
  · exact Spec.conseq (spec_observation stable_true) (fun _ _ h => h)
      (fun _ _ _ h => h) fun _ _ _ h => h
  intro found
  apply spec_locked_load
  intro latest
  apply Spec.bind spec_call_holds
  intro _
  split
  · exact spec_ret_held
  split
  · exact spec_ret_held
  · apply Spec.bind (spec_ask stable_held)
    intro unchanged
    split
    · exact spec_move_holds
    · exact spec_ret_held

-- By induction on the phases the call still has.
theorem free_resumeLocalSolanaPhase (fuel : ℕ) (hasClaim : Bool) :
    Free p (resumeLocalSolanaPhase fuel hasClaim) := by
  induction fuel generalizing hasClaim with
  | zero => exact free_fail
  | succ fuel ih =>
    apply free_bind free_resumeSnapshot
    intro snapshot
    split
    · exact free_ret
    · exact spec_withClaimLock (ih true)
    · exact free_executeLocalSolanaClaimed (ih true)
    · exact free_observeFrozen

theorem free_stageApproval : Free p stageApproval := by
  apply spec_locked_load
  intro operation
  apply Spec.bind spec_call_holds
  intro _
  apply Spec.bind spec_call_holds
  intro saved
  split
  · exact Spec.bind spec_call_holds fun _ => spec_ret_held
  split
  · apply Spec.bind spec_call_holds
    intro _
    exact Spec.post spec_lift_holds fun _ _ _ h => h.1
  apply Spec.bind spec_call_holds
  intro _
  split
  · exact Spec.post spec_lift_holds fun _ _ _ h => h.1
  · apply Spec.bind (M := fun _ => Held p operation)
    · split
      · exact Spec.ret fun _ _ h => h
      · exact spec_call_holds
    · exact fun _ => spec_ret_held

theorem spec_removeClaim :
    RailSpec p (Held p operation) removeClaim (fun _ => Holds p) fun _ => Holds p :=
  Spec.conseq spec_call_held (fun _ _ h => h) (fun _ _ _ h => h.1) fun _ _ _ h => h.1

theorem free_failApprovalClaim {reason : String} :
    Free p (failApprovalClaim operation reason) := by
  apply spec_locked_load
  intro latest
  apply Spec.bind spec_call_holds
  intro saved
  split
  · exact spec_ret_held
  split
  · exact Spec.bind spec_move_held fun _ => spec_removeClaim
  · exact spec_removeClaim

theorem free_commitApproval {send : Option String} :
    Free p (commitApproval operation send) := by
  apply spec_locked_load
  intro latest
  apply Spec.bind spec_call_holds
  intro _
  apply Spec.bind spec_call_holds
  intro saved
  split
  · exact Spec.bind spec_call_holds fun _ => spec_ret_held
  apply Spec.bind spec_call_holds
  intro _
  apply Spec.bind spec_reserveUsage
  intro lease
  apply Spec.bind spec_move_held
  intro started
  exact Spec.bind spec_call_holds fun _ => spec_ret_held

theorem free_approveLocalSolana (fuel : ℕ) : Free p (approveLocalSolana fuel) := by
  apply spec_withClaimLock
  apply free_bind free_stageApproval
  intro staged
  split
  · exact free_ret
  apply free_bind
  · apply free_handle
    · apply free_bind free_call
      intro _
      apply free_bind free_call
      exact fun _ => free_call
    · intro error
      exact free_bind free_failApprovalClaim fun _ => free_fail
  intro _
  apply free_bind
  · apply free_handle free_call
    exact fun _ => free_bind free_failApprovalClaim fun _ => free_fail
  intro send
  apply free_handle
  · apply free_bind free_commitApproval
    intro committed
    split
    · exact free_ret
    · exact free_executeLocalSolanaClaimed (free_resumeLocalSolanaPhase fuel true)
  · intro error
    apply free_bind
    · apply spec_locked
      exact Spec.conseq (spec_call stable_holds) (fun _ _ h => h) (fun _ _ _ h => h)
        fun _ _ _ h => h
    · exact fun _ => free_fail

theorem free_railCall {prog : RailProg Unit} (h : RailCall prog) : Free p prog := by
  cases h with
  | approve fuel =>
    apply free_bind _ fun _ => free_ret
    apply free_bind spec_load_free
    intro found
    split
    · exact free_approveLocalSolana fuel
    · exact spec_approveLocked
  | resume fuel =>
    apply free_bind _ fun _ => free_ret
    apply free_bind spec_load_free
    intro found
    split
    · exact free_resumeLocalSolanaPhase fuel false
    · exact spec_resumeLocked

/-! ## Every run -/

-- A death gives up the process's locks and the send it owed.
theorem keeps_crash {s t : RailShared π} (hinv : RailInv s) (h : railCrash p s t) :
    (railDiscipline π).Keeps p s t := by
  cases h
  refine ⟨hinv.of_same rfl rfl rfl dropped_isSome, ?_⟩
  intro q hq
  exact ⟨fun hmoney => ⟨dropped_ne hq hmoney, rfl⟩, fun howed => dropped_ne hq howed⟩

omit [DecidableEq π] in
theorem railInv_prepared {prepared : RailOperationRecord}
    (hstate : prepared.state = .awaitingApproval) (hfresh : prepared.earlier = []) :
    RailInv (RailShared.prepared prepared : RailShared π) := by
  have hnone : ¬ prepared.hasSubmitting := by
    rintro ⟨t, ht, hsub⟩
    rw [RailOperationRecord.transitions, hfresh, List.mem_singleton] at ht
    rw [ht] at hsub
    rw [RailOperationRecord.state, hsub] at hstate
    cases hstate
  refine ⟨fun h => absurd h hnone, ?_, ?_, fun _ => rfl, ?_, ?_⟩
  · exact List.pairwise_singleton _ _
  · exact Nat.zero_le 1
  · rintro (h | h)
    · cases h
    · exact absurd rfl h
  · intro stored hstored
    cases hstored

/-- **One send.**  However calls, processes and deaths interleave, a prepared direct-rail operation is sent at
most once; every send finds `submitting` already durable in the record, and a record that is past the send
boundary is never replaced by one that is not. -/
theorem rail_sends_once {prepared : RailOperationRecord}
    {labels : List (System.Label RailOp RailOp.Answer ApnError π)}
    {c : System.Config RailOp RailOp.Answer ApnError (RailShared π) π}
    (hstate : prepared.state = .awaitingApproval) (hfresh : prepared.earlier = [])
    (hrun : Runs.Run (System.Step railSystem fun _ => RailCall)
      (System.idle (RailShared.prepared prepared)) labels c) :
    c.shared.sends.length ≤ 1 ∧ (∀ stored ∈ c.shared.sends, stored.hasSubmitting) ∧
      (c.shared.record :: c.shared.past).Pairwise stayCrossed := by
  have hinv : RailInv c.shared :=
    Discipline.invariant_of_wp (D := railDiscipline π)
      (fun _ _ h => free_railCall h) (fun _ _ _ hs h => keeps_crash hs h)
      (fun _ _ _ h => h.elim) (railInv_prepared hstate hfresh) hrun
  exact ⟨hinv.once, hinv.sentAfter, hinv.durable⟩

end Proof

namespace InterruptedSendRun

def prepared : RailOperationRecord where
  rail := .tron
  provider := .hosted
  allowlist := some "r1"
  allowlistLease := none
  send := none
  latest := ⟨.awaitingApproval, 0, "prepared", none, none, none⟩
  earlier := []

/-- Everything succeeds, and the chain has nothing final yet. -/
def granted : (q : RailAsk) → q.Answer
  | .now => (1 : ℤ)
  | .providerAtomic | .ownerUnchanged => true
  | .claimMatches => Except.ok false
  | .bindSend => Except.ok (none : Option String)
  | .reserve => Except.ok "lease-1"
  | .sign | .sealRevalidated => Except.ok (⟨true, "tx-1", "hash-1"⟩ : RailSignedEffect)
  | .recoverEffect => Except.ok (none : Option RailSignedEffect)
  | .inspect => some RailInspection.pending
  | .foregroundApproval | .revalidate | .approve | .assertCurrentRailPolicy | .chainPolicy
  | .followUsage | .createClaim | .removeClaim => Except.ok ()

def refused : ApnError := ⟨.other, "refused"⟩

def granting (p : Bool) (s : RailShared Bool) : (o : RailOp) → o.Answer × RailShared Bool
  | .lockMoney =>
    if s.money = none then (Except.ok (), { s with money := some p }) else (Except.error refused, s)
  | .unlockMoney => ((), { s with money := dropped p s.money })
  | .lockClaim =>
    if s.claim = none then (Except.ok (), { s with claim := some p }) else (Except.error refused, s)
  | .unlockClaim => ((), { s with claim := dropped p s.claim })
  | .load => (Except.ok s.record, s)
  | .persist next =>
    if validateRailContinuity s.record next = .ok () then (Except.ok (), s.store p next)
    else (Except.error refused, s)
  | .submit _ _ =>
    (Except.ok "tx-1", { s with sends := s.record :: s.sends, owed := dropped p s.owed })
  | .ask q => (granted q, s)

theorem granting_allowed (p : Bool) (s : RailShared Bool) (o : RailOp) :
    railSystem.exec p s o (granting p s o).1 (granting p s o).2 := by
  cases o with
  | lockMoney =>
    by_cases hfree : s.money = none
    · simp only [granting, if_pos hfree]
      exact ⟨hfree, rfl⟩
    · simp only [granting, if_neg hfree]
      rfl
  | lockClaim =>
    by_cases hfree : s.claim = none
    · simp only [granting, if_pos hfree]
      exact ⟨hfree, rfl⟩
    · simp only [granting, if_neg hfree]
      rfl
  | persist next =>
    by_cases hvalid : validateRailContinuity s.record next = .ok ()
    · simp only [granting, if_pos hvalid]
      exact ⟨hvalid, rfl⟩
    · simp only [granting, if_neg hvalid]
      rfl
  | load => exact ⟨rfl, fun record h => (Except.ok.inj h).symm⟩
  | unlockMoney => rfl
  | unlockClaim => rfl
  | submit _ _ => rfl
  | ask q => rfl

def approving : RailProg Unit := (approveOperation 1).bind fun _ => Prog.ret ()

def resuming : RailProg Unit := (resumeOperation 1).bind fun _ => Prog.ret ()

/-- The first process dies right after the send, before its answer is written. -/
def interrupted : RailProg Unit × RailShared Bool :=
  approving.play (granting false) 15 (RailShared.prepared prepared)

def died : RailShared Bool :=
  { interrupted.2 with
    money := dropped false interrupted.2.money
    claim := dropped false interrupted.2.claim
    owed := dropped false interrupted.2.owed }

/-- The second process resumes. -/
def resumed : RailProg Unit × RailShared Bool := resuming.play (granting true) 100 died

theorem run_resumed : ∃ labels c,
    Runs.Run (System.Step railSystem fun _ => RailCall)
      (System.idle (RailShared.prepared prepared)) labels c ∧ c.shared = resumed.2 := by
  rcases System.run_play (S := railSystem) (granting_allowed false) 15 (fun _ => none) approving
    (RailShared.prepared prepared) with ⟨approvals, hinterrupted⟩
  rcases System.run_play (S := railSystem) (granting_allowed true) 100
    (Function.update (Function.update (fun _ => none) false (some interrupted.1)) false none)
    resuming died with ⟨resumes, hresumed⟩
  have happrove : System.Step railSystem (fun _ => RailCall) _ _ _ :=
    System.Step.start (System.idle (RailShared.prepared prepared)) false approving rfl
      (RailCall.approve 1)
  have hcrash : railCrash false interrupted.2 died := rfl
  have hdied : System.Step railSystem (fun _ => RailCall) _ _ _ :=
    System.Step.crash ⟨interrupted.2, Function.update (fun _ => none) false (some interrupted.1)⟩ false
      interrupted.1 died (by simp) hcrash
  have hresume : System.Step railSystem (fun _ => RailCall) _ _ _ :=
    System.Step.start ⟨died, Function.update
      (Function.update (fun _ => none) false (some interrupted.1)) false none⟩ true resuming rfl
      (RailCall.resume 1)
  exact ⟨_, _, Runs.Run.cons happrove (hinterrupted.append (Runs.Run.cons hdied
    (Runs.Run.cons hresume hresumed))), rfl⟩

theorem rail_sends_once_of_resumed :
    resumed.2.sends.length = 1 ∧ resumed.2.record.state = .unknownFinality ∧
      (∀ stored ∈ resumed.2.sends, stored.hasSubmitting) ∧
      (resumed.2.record :: resumed.2.past).Pairwise stayCrossed := by
  rcases run_resumed with ⟨labels, c, hrun, hshared⟩
  have hsends := rail_sends_once rfl rfl hrun
  rw [hshared] at hsends
  have hsent : resumed.2.sends.length = 1 := by decide +kernel
  have hstate : resumed.2.record.state = .unknownFinality := by decide +kernel
  exact ⟨hsent, hstate, hsends.2⟩

end InterruptedSendRun
end PaymentNode
