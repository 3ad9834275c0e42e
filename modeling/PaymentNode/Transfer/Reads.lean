import PaymentNode.Transfer.Fence

/-!
# Reads — what the calls ask and read leaves the core alone

`Meets` is a specification about the core, `Aside` one of a program that reads, asks and writes the public
effect journal, and changes nothing of the core.
-/

namespace PaymentNode

open TransferProg Discipline LocalDirect

variable {keccak : Keccak} {α β : Type} {P Q : TransferCore → Prop} {operation : OperationRecord}

/-- The record is this one. -/
abbrev Stored (operation : OperationRecord) (c : TransferCore) : Prop := c.record = some operation

/-- A specification about the core. -/
abbrev Meets (keccak : Keccak) (P : TransferCore → Prop) (x : TransferProg α)
    (Q : α → TransferCore → Prop) (E : TransferCore → Prop) : Prop :=
  (transferDiscipline keccak).Spec transferSystem () (fun s => P s.core) x (fun a s => Q a s.core)
    fun _ s => E s.core

/-- `x` leaves the core alone, and from `K` answers with `Φ`. -/
def Aside (keccak : Keccak) (K : TransferCore → Prop) (x : TransferProg α)
    (Φ : α → TransferCore → Prop) : Prop :=
  ∀ P : TransferCore → Prop, (∀ c, P c → K c) → Meets keccak P x (fun a c => P c ∧ Φ a c) P

abbrev always (_ : TransferCore) : Prop := True

abbrev anything {α : Type} (_ : α) (_ : TransferCore) : Prop := True

section Rules

variable {K : TransferCore → Prop} {Φ : α → TransferCore → Prop} {Ψ : β → TransferCore → Prop}
  {x : TransferProg α} {f : α → TransferProg β}

theorem Aside.ret {a : α} (h : ∀ c, K c → Φ a c) : Aside keccak K (Prog.ret a) Φ :=
  fun _ hK => Spec.ret fun _ _ hP => ⟨hP, h _ (hK _ hP)⟩

theorem Aside.fail {e : ApnError} : Aside keccak K (Prog.fail e : TransferProg α) Φ :=
  fun _ _ => Spec.fail fun _ _ hP => hP

theorem Aside.bind (hx : Aside keccak K x Φ)
    (hf : ∀ a, Aside keccak (fun c => K c ∧ Φ a c) (f a) Ψ) : Aside keccak K (x.bind f) Ψ := by
  intro P hK
  apply Spec.bind (M := fun a s => P s.core ∧ Φ a s.core)
  · exact hx P hK
  · intro a
    have hrest := hf a (fun c => P c ∧ Φ a c) fun c hc => ⟨hK c hc.1, hc.2⟩
    exact Spec.conseq hrest (fun _ _ h => h) (fun _ _ _ h => ⟨h.1.1, h.2⟩) fun _ _ _ h => h.1

theorem Aside.handle {h : ApnError → TransferProg α} (hx : Aside keccak K x Φ)
    (hh : ∀ e, Aside keccak K (h e) Φ) : Aside keccak K (x.handle h) Φ := by
  intro P hK
  apply Spec.handle (M := fun _ s => P s.core)
  · exact hx P hK
  · exact fun e => hh e P hK

theorem Aside.mono {L : TransferCore → Prop} {Θ : α → TransferCore → Prop} (hx : Aside keccak L x Θ)
    (hK : ∀ c, K c → L c) (hΦ : ∀ a c, K c → Θ a c → Φ a c) : Aside keccak K x Φ := by
  intro P hP
  apply Spec.conseq (hx P fun c hc => hK c (hP c hc)) (fun _ _ h => h) _ fun _ _ _ h => h
  exact fun a s _ h => ⟨h.1, hΦ a s.core (hP _ h.1) h.2⟩

variable {o : TransferOp}

theorem Aside.perform {Θ : o.Answer → TransferCore → Prop}
    (h : ∀ s a t, transferExec () s o a t → t.core = s.core ∧ Θ a s.core) :
    Aside keccak K (Prog.perform o) Θ := by
  intro P _
  apply Spec.act
  intro s a t hs hP hexec
  rcases h s a t hexec with ⟨hcore, hΘ⟩
  rw [hcore]
  exact ⟨hs, hP, hΘ⟩

theorem Aside.lift {r : Result α} (h : ∀ a c, K c → r = .ok a → Φ a c) :
    Aside keccak K (TransferProg.lift r) Φ := by
  cases r with
  | ok a => exact Aside.ret fun c hc => h a c hc rfl
  | error e => exact Aside.fail

theorem Aside.run {heq : o.Answer = Result α} (h : ∀ s a t, transferExec () s o a t →
      t.core = s.core ∧ ∀ v, (heq ▸ a : Result α) = .ok v → Φ v s.core) :
    Aside keccak K (TransferProg.run o heq) Φ := by
  apply Aside.bind (Φ := fun a c => ∀ v, (heq ▸ a : Result α) = .ok v → Φ v c)
  · exact Aside.perform h
  · exact fun a => Aside.lift fun v c hc hv => hc.2 v hv

theorem Aside.meets (hx : Aside keccak always x Φ) : Meets keccak P x (fun a c => P c ∧ Φ a c) P :=
  hx P fun _ _ => trivial

variable {E : TransferCore → Prop}

-- A program that keeps the core begins.
theorem Meets.aside {R : β → TransferCore → Prop} (hx : Aside keccak always x Φ) (hE : ∀ c, P c → E c)
    (hf : ∀ a, Meets keccak (fun c => P c ∧ Φ a c) (f a) R E) : Meets keccak P (x.bind f) R E := by
  apply Spec.bind (M := fun a s => P s.core ∧ Φ a s.core)
  · exact Spec.conseq hx.meets (fun _ _ h => h) (fun _ _ _ h => h) fun _ s _ h => hE s.core h
  · exact hf

theorem Meets.run {heq : o.Answer = Result α} {R : α → TransferCore → Prop}
    (h : ∀ s a t, TransferInv keccak s.core → P s.core → transferExec () s o a t →
      TransferInv keccak t.core ∧ E t.core ∧ ∀ v, (heq ▸ a : Result α) = .ok v → R v t.core) :
    Meets keccak P (TransferProg.run o heq) R E := by
  apply Spec.bind (M := fun a s => E s.core ∧ ∀ v, (heq ▸ a : Result α) = .ok v → R v s.core)
  · apply Spec.act
    exact h
  · intro a
    generalize (heq ▸ a : Result α) = r
    cases r with
    | ok v => exact Spec.ret fun _ _ hr => hr.2 v rfl
    | error e => exact Spec.fail fun _ _ hr => hr.1

theorem writes_or {r : Result α} {allowed : Prop} {s next t : TransferShared}
    (h : writes r allowed s next t) : t = s ∨ (allowed ∧ t = next) :=
  h.imp And.left id

-- The fence is for good, and so is the log.
theorem lasting_exec {s t : TransferShared} {a : o.Answer} (h : transferExec () s o a t) :
    s.core.log ⊆ t.core.log ∧ ∀ hash, s.core.fence = some hash → t.core.fence = some hash := by
  have hsame : t.core = s.core → s.core.log ⊆ t.core.log ∧
      ∀ hash, s.core.fence = some hash → t.core.fence = some hash := by
    intro hcore
    rw [hcore]
    exact ⟨List.Subset.refl _, fun _ => id⟩
  cases o with
  | find => exact hsame (by rw [h.1.1])
  | readUsage | hasPrepared | hasSigning | readSigned | readNoPrivate | readFence =>
    exact hsame (by rw [h.1])
  | writeReceipt | now | ask =>
    have heq : t = s := h
    exact hsame (by rw [heq])
  | writePrepared | writeSigning | writeSigned | writeNoPrivate =>
    rcases writes_or h with rfl | ⟨_, rfl⟩
    · exact hsame rfl
    · exact hsame rfl
  | writeOperation next =>
    rcases writes_or h with rfl | ⟨_, rfl⟩
    · exact hsame rfl
    · exact ⟨List.subset_cons_self _ _, fun _ => id⟩
  | reserveUsage =>
    rcases writes_or h with rfl | ⟨_, rfl⟩
    · exact hsame rfl
    · exact ⟨List.Subset.refl _, fun _ => id⟩
  | moveUsage target =>
    rcases writes_or h with rfl | ⟨_, rfl⟩
    · exact hsame rfl
    · refine ⟨?_, fun _ => id⟩
      show s.core.log ⊆ if target = .failedBeforeEffect then .released :: s.core.log else s.core.log
      split
      · exact List.subset_cons_self _ _
      · exact List.Subset.refl _
  | writeFence hash =>
    rcases writes_or h with rfl | ⟨hnone, rfl⟩
    · exact hsame rfl
    · refine ⟨List.subset_cons_self _ _, ?_⟩
      intro hash' hfence
      rw [hnone] at hfence
      cases hfence
  | submitRaw | observesUnfenced =>
    have heq : t = _ := h
    rw [heq]
    exact ⟨List.subset_cons_self _ _, fun _ => id⟩
  | catches operation =>
    have heq : t = _ := h
    rw [heq]
    show s.core.log ⊆ (s.core.catches operation).log ∧
      ∀ hash, s.core.fence = some hash → (s.core.catches operation).fence = some hash
    unfold TransferCore.catches
    split
    · exact ⟨List.subset_cons_self _ _, fun _ => id⟩
    · exact ⟨List.Subset.refl _, fun _ => id⟩

theorem covered_exec {s t : TransferShared} {a : o.Answer}
    (h : transferExec () s o a t) (hcovered : Covered operation s.core) : Covered operation t.core := by
  rcases lasting_exec h with ⟨hlog, hfence⟩
  rcases hcovered with hseen | ⟨hash, hhash, hsame⟩
  · exact Or.inl (hlog hseen)
  · exact Or.inr ⟨hash, hfence hash hhash, hsame⟩

theorem Meets.covered {R : α → TransferCore → Prop} (h : Meets keccak P x R E) :
    Meets keccak (fun c => P c ∧ Covered operation c) x (fun a c => R a c ∧ Covered operation c)
      fun c => E c ∧ Covered operation c :=
  Spec.frame (F := fun s : TransferShared => Covered operation s.core) (fun _ _ _ _ hexec hF => covered_exec hexec hF) h

end Rules

/-! ## Reads and questions -/

section Reads

variable {K : TransferCore → Prop}

theorem aside_ask (q : TransferAsk) : Aside keccak K (ask q) anything := by
  apply Aside.perform
  intro s a t h
  have heq : t = s := h
  exact ⟨by rw [heq], trivial⟩

theorem aside_call {q : TransferAsk} {h : q.Answer = Result α} :
    Aside keccak K (call q h) anything := by
  apply Aside.run
  intro s a t hexec
  have heq : t = s := hexec
  exact ⟨by rw [heq], fun _ _ => trivial⟩

theorem aside_now : Aside keccak K now anything := by
  apply Aside.perform
  intro s a t h
  have heq : t = s := h
  exact ⟨by rw [heq], trivial⟩

theorem aside_writeReceipt (of' : OperationRecord) : Aside keccak K (writeReceipt of') anything := by
  apply Aside.run
  intro s a t hexec
  have heq : t = s := hexec
  exact ⟨by rw [heq], fun _ _ => trivial⟩

theorem aside_find : Aside keccak K find fun found c => c.record = found := by
  apply Aside.run
  intro s a t hexec
  exact ⟨by rw [hexec.1.1], fun v hv => (hexec.1.2 v hv).symm⟩

theorem aside_readUsage : Aside keccak K readUsage fun found c => c.usage = found := by
  apply Aside.run
  intro s a t hexec
  exact ⟨by rw [hexec.1], fun v hv => (hexec.2 v hv).symm⟩

theorem aside_readFence : Aside keccak K readFence fun found c => c.fence = found := by
  apply Aside.run
  intro s a t hexec
  exact ⟨by rw [hexec.1], fun v hv => (hexec.2 v hv).symm⟩

theorem aside_hasPrepared : Aside keccak K hasPrepared anything := by
  apply Aside.run
  exact fun s a t hexec => ⟨by rw [hexec.1], fun _ _ => trivial⟩

theorem aside_hasSigning : Aside keccak K hasSigning anything := by
  apply Aside.run
  exact fun s a t hexec => ⟨by rw [hexec.1], fun _ _ => trivial⟩

theorem aside_readSigned : Aside keccak K readSigned anything := by
  apply Aside.run
  exact fun s a t hexec => ⟨by rw [hexec.1], fun _ _ => trivial⟩

theorem aside_readNoPrivate : Aside keccak K readNoPrivate anything := by
  apply Aside.run
  exact fun s a t hexec => ⟨by rw [hexec.1], fun _ _ => trivial⟩

-- A write of the public effect journal.
theorem aside_journal {o : TransferOp} {heq : o.Answer = Result Unit}
    (ho : o = .writePrepared ∨ o = .writeSigning ∨ (∃ hash, o = .writeSigned hash) ∨
      ∃ attempt, o = .writeNoPrivate attempt) : Aside keccak K (run o heq) anything := by
  apply Aside.run
  intro s a t hexec
  refine ⟨?_, fun _ _ => trivial⟩
  rcases ho with rfl | rfl | ⟨_, rfl⟩ | ⟨_, rfl⟩
  all_goals
    rcases writes_or hexec with rfl | ⟨_, rfl⟩
    · rfl
    · rfl

theorem aside_lift {r : Result α} : Aside keccak K (lift r) anything :=
  Aside.lift fun _ _ _ _ => trivial

theorem aside_requiredOperation :
    Aside keccak K requiredOperation fun found c => c.record = some found := by
  apply Aside.bind aside_find
  intro found
  cases found with
  | some operation => exact Aside.ret fun c hc => hc.2
  | none => exact Aside.fail

/-! ## The public effect journal and the dispatch fence -/

variable (operation : OperationRecord)

theorem aside_prepared :
    Aside keccak K (prepared operation) anything := by
  apply Aside.bind aside_find
  intro saved
  split
  · exact aside_lift
  · apply Aside.bind aside_hasPrepared
    intro claimed
    split
    · exact Aside.fail
    · exact aside_call

theorem aside_publicPrepare :
    Aside keccak K (publicPrepare operation) anything := by
  apply Aside.bind (aside_call (h := rfl))
  intro _
  apply Aside.bind aside_hasPrepared
  intro claimed
  split
  · exact aside_prepared operation
  · exact aside_journal (Or.inl rfl)

theorem aside_assertUnstarted :
    Aside keccak K (assertUnstarted operation) fun _ _ => operation.state = .awaitingApproval := by
  apply Aside.bind (aside_prepared operation)
  intro _
  apply Aside.bind aside_hasSigning
  intro signing
  apply Aside.bind aside_readSigned
  intro signed
  split
  · exact Aside.lift fun _ _ _ h => absurd h blocked_ne_ok
  · rename_i hstate
    exact Aside.ret fun _ _ => by_contra fun h => hstate (Or.inl h)

theorem aside_checkNoPrivateContext (operation attempt : OperationRecord) :
    Aside keccak K (checkNoPrivateContext operation attempt) fun _ _ =>
      operation.state = .started ∧ operation.terminal = false := by
  unfold checkNoPrivateContext
  split
  · exact Aside.fail
  · rename_i hcontext
    have hstarted : operation.state = .started ∧ operation.terminal = false := by
      simp only [not_or, not_not, Bool.not_eq_true] at hcontext
      exact ⟨hcontext.1, hcontext.2.1⟩
    apply Aside.bind (aside_prepared operation)
    intro _
    apply Aside.bind aside_hasSigning
    intro signing
    split
    · exact Aside.fail
    · apply Aside.bind (aside_prepared operation)
      intro _
      apply Aside.bind aside_readSigned
      intro signed
      apply Aside.bind aside_readFence
      intro fence
      split
      · exact Aside.fail
      · exact Aside.ret fun _ _ => hstarted

theorem aside_noPrivateEntry :
    Aside keccak K (noPrivateEntry operation) fun proven _ =>
      proven = true → operation.state = .started ∧ operation.terminal = false := by
  apply Aside.handle
  · apply Aside.bind aside_readNoPrivate
    intro attempt
    cases attempt with
    | none => exact Aside.ret fun _ _ h => absurd h (by decide)
    | some attempt =>
      apply Aside.bind (aside_checkNoPrivateContext operation attempt)
      intro _
      apply Aside.bind (aside_checkNoPrivateContext operation attempt)
      intro _
      exact Aside.ret fun _ hc _ => hc.2
  · exact fun _ => Aside.fail

theorem aside_publicEffect :
    Aside keccak K (publicEffect operation) anything := by
  apply Aside.bind aside_readNoPrivate
  intro attempt
  split
  · exact Aside.fail
  · apply Aside.bind (aside_prepared operation)
    intro _
    apply Aside.bind aside_readSigned
    intro signed
    cases signed with
    | none => exact Aside.fail
    | some hash =>
      dsimp only
      split
      · exact aside_lift
      · apply Aside.bind aside_call
        exact fun _ => Aside.ret fun _ _ => trivial

-- Where the fence exists it is of the record's own hash.
theorem aside_fenceExists :
    Aside keccak K (fenceExists operation) fun dispatched c =>
      (dispatched = true → Covered operation c) ∧ (dispatched = false → c.fence = none) := by
  apply Aside.bind aside_readFence
  intro found
  cases found with
  | none => exact Aside.ret fun c hc => ⟨fun h => absurd h (by decide), fun _ => hc.2⟩
  | some hash =>
    dsimp only
    split
    · rename_i hsame
      exact Aside.ret fun c hc => ⟨fun _ => Or.inr ⟨hash, hc.2, hsame⟩, fun h => absurd h (by decide)⟩
    · exact Aside.lift fun _ _ _ h => absurd h corrupt_ne_ok

/-! ## Custody -/

theorem aside_verifyEffect (effect : NativeEffect) :
    Aside keccak K (verifyEffect keccak effect) fun _ _ =>
      keccak effect.rawTransaction = effect.transactionHash := by
  unfold verifyEffect
  split
  · exact Aside.lift fun _ _ _ h => by simp [nativeProtocol] at h
  · rename_i hhashes
    have hhash : keccak effect.rawTransaction = effect.transactionHash :=
      by_contra fun h => hhashes (Or.inl h)
    exact aside_call.mono (fun _ h => h) fun _ _ _ _ => hhash

theorem aside_recordNoPrivateEntry :
    Aside keccak K (recordNoPrivateEntry operation) anything := by
  apply Aside.bind (aside_checkNoPrivateContext operation operation)
  intro _
  apply Aside.bind (aside_checkNoPrivateContext operation operation)
  intro _
  apply Aside.bind (aside_journal (Or.inr (Or.inr (Or.inr ⟨operation, rfl⟩))))
  intro _
  exact (aside_checkNoPrivateContext operation operation).mono (fun _ h => h) fun _ _ _ _ => trivial

theorem aside_nativeApprove :
    Aside keccak K (nativeApprove operation) anything := by
  apply Aside.handle aside_call
  intro e
  apply Aside.bind (Φ := anything)
  · apply Aside.handle (aside_recordNoPrivateEntry operation)
    exact fun _ => Aside.ret fun _ _ => trivial
  · exact fun _ => Aside.fail

theorem aside_publish (hash : Hex) :
    Aside keccak K (publish operation hash) anything := by
  apply Aside.bind (aside_call (h := rfl))
  intro _
  apply Aside.bind aside_readNoPrivate
  intro attempt
  split
  · exact Aside.fail
  · apply Aside.bind (aside_prepared operation)
    intro _
    exact aside_journal (Or.inr (Or.inr (Or.inl ⟨hash, rfl⟩)))

theorem aside_approveAndSign : Aside keccak K (approveAndSign keccak) anything := by
  apply Aside.bind aside_requiredOperation
  intro frozen
  split
  · exact aside_lift
  apply Aside.bind aside_readSigned
  intro signed
  split
  · exact aside_lift
  apply Aside.bind (aside_prepared frozen)
  intro _
  apply Aside.bind (aside_journal (Or.inr (Or.inl rfl)))
  intro _
  apply Aside.bind (aside_nativeApprove frozen)
  intro _
  apply Aside.bind aside_call
  intro _
  apply Aside.bind aside_requiredOperation
  intro latest
  split
  · exact aside_lift
  apply Aside.bind (aside_prepared latest)
  intro _
  apply Aside.bind aside_call
  intro raw
  apply Aside.bind (aside_verifyEffect ⟨raw, keccak raw, keccak raw⟩)
  intro _
  apply Aside.bind aside_call
  intro _
  apply Aside.bind (aside_prepared frozen)
  intro _
  apply Aside.bind aside_call
  intro _
  apply Aside.bind (aside_publish frozen (keccak raw))
  exact fun _ => Aside.ret fun _ _ => trivial

-- What custody hands back are the bytes of the recorded hash.
theorem aside_signedRawTransaction :
    Aside keccak K (signedRawTransaction keccak operation) fun raw _ =>
      operation.transactionHash = some (keccak raw) := by
  apply Aside.bind (aside_call (h := rfl))
  intro effect
  split
  · exact Aside.lift fun _ _ _ h => absurd h corrupt_ne_ok
  · rename_i hsame
    have hhash : some effect.transactionHash = operation.transactionHash :=
      by_contra fun h => hsame (Or.inl h)
    apply Aside.bind (aside_verifyEffect effect)
    intro _
    apply Aside.ret
    intro c hc
    rw [← hhash, hc.2]

end Reads

end PaymentNode
