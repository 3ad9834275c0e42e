import PaymentNode.X402.History

/-!
# Walk — every event a call leaves is lawful

One walk over the programs, for any world.  A fact about the log is carried through a call when no quiet event
takes it away (`Trace.Kept Quiet`), and across the writes of the call when nothing but the start of the next call does
(`Lasting`).
-/

namespace PaymentNode

open X402Prog Trace

namespace X402

variable {W : Type} {rules : Rules W X402Event} {headerHash : String → String} {α β : Type}
  {o next : X402Operation} {P R K : List X402Event → Prop} {log : List X402Event} {e : X402Event}

abbrev Walk (rules : Rules W X402Event) (headerHash : String → String) (P : List X402Event → Prop)
    (x : X402Prog α) (Q : α → List X402Event → Prop) (E : X402Failure → List X402Event → Prop) : Prop :=
  Walks (effect headerHash) rules (Lawful headerHash) P x Q E

abbrev Peek (rules : Rules W X402Event) (headerHash : String → String) (K : List X402Event → Prop)
    (x : X402Prog α) (Φ : α → List X402Event → Prop) : Prop :=
  Reads (effect headerHash) rules (Lawful headerHash) Quiet K x Φ

/-! ## What quiet events keep -/

section Quiet

theorem record_quiet (h : Quiet e) : record (e :: log) = record log := by
  cases e <;> first | rfl | cases h

theorem resultFile_quiet (h : Quiet e) : resultFile (e :: log) = resultFile log := by
  cases e <;> first | rfl | cases h

theorem current_quiet (h : Quiet e) : current (e :: log) = e :: current log := by
  cases e <;> first | rfl | cases h

theorem before_quiet (h : Quiet e) : before (e :: log) = before log := by
  cases e <;> first | rfl | cases h

/-- Only the start of the next call takes the fact away. -/
def Lasting (R : List X402Event → Prop) : Prop := ∀ log e, e ≠ .began → R log → R (e :: log)

theorem Lasting.kept (h : Lasting R) : Trace.Kept Quiet R := by
  intro log e he hR
  apply h log e _ hR
  rintro rfl
  exact he

theorem lasting_true : Lasting fun _ => True := fun _ _ _ _ => trivial

theorem Lasting.and {R' : List X402Event → Prop} (h : Lasting R) (h' : Lasting R') :
    Lasting fun log => R log ∧ R' log :=
  fun log e he hR => ⟨h log e he hR.1, h' log e he hR.2⟩

/-- The record is this one, and has not ended. -/
def Open (o : X402Operation) (log : List X402Event) : Prop := record log = some o ∧ o.terminal = false

/-- The record is this one, has not ended, and `R` holds beside it. -/
abbrev OpenWith (o : X402Operation) (R : List X402Event → Prop) (log : List X402Event) : Prop := Open o log ∧ R log

theorem kept_open : Trace.Kept Quiet (Open o) := by
  intro log e he h
  exact ⟨(record_quiet he).trans h.1, h.2⟩

theorem Open.openRecord (h : Open o log) : X402.openRecord log = some o := by
  simp [X402.openRecord, h.1, Option.filter, h.2]

theorem kept_mem {e : X402Event} : Trace.Kept Quiet fun log => e ∈ current log := by
  intro log e' he h
  rw [current_quiet he]
  exact List.mem_cons_of_mem _ h

theorem kept_inCall {e : X402Event} : Trace.Kept Quiet fun log => e ∈ inCall log := by
  intro log e' he h
  have hcall : inCall (e' :: log) = e' :: inCall log := by
    cases e' <;> first | rfl | cases he
  rw [hcall]
  exact List.mem_cons_of_mem _ h

theorem lasting_readUnused {tag : ProofTag} : Lasting fun log => ReadUnused log tag := by
  rintro log e he ⟨read, hmem, hread⟩
  have hcall : inCall (e :: log) = e :: inCall log := by
    cases e <;> first | rfl | exact absurd rfl he
  exact ⟨read, by rw [hcall]; exact List.mem_cons_of_mem _ hmem, hread⟩

theorem lasting_begins {purpose : AttemptPurpose} : Lasting fun log => Begins log o purpose := by
  intro log e he h
  cases h with
  | first hstate hread => exact .first hstate fun hm => lasting_readUnused log e he (hread hm)
  | again hmay hread => exact .again hmay (lasting_readUnused log e he hread)
  | recovery hstate hlink hattempt => exact .recovery hstate hlink hattempt

end Quiet

/-! ## Reads -/

section Peeks

theorem peek_now : Peek rules headerHash K now fun at' log => .clock at' ∈ current log := by
  apply Reads.perform
  intro log log' at' _ heffect
  have hlog : log' = .clock at' :: log := heffect
  subst hlog
  exact ⟨.inr ⟨.clock at', trivial, trivial, rfl⟩, List.mem_cons_self⟩

theorem peek_ask {q : X402Ask} :
    Peek rules headerHash K (X402Prog.ask q) fun answer _ => asks headerHash q answer := by
  apply Reads.perform
  intro log log' answer _ heffect
  exact ⟨.inl heffect.1, heffect.2⟩

theorem peek_call {q : X402Ask} {h : q.Answer = Except X402Failure α} :
    Peek rules headerHash K (call q h) fun _ _ => True := by
  have hask : (X402Op.ask q).Answer = Except X402Failure α := h
  show Reads _ _ _ _ _ (Prog.run (X402Op.ask q) hask) _
  apply Reads.run
  intro log log' answer _ heffect
  exact ⟨.inl heffect.1, fun _ _ => trivial⟩

theorem peek_native {kind : MaterialKind} :
    Peek rules headerHash K (call (.native kind) rfl) fun m _ => sealed headerHash m := by
  apply Reads.run (h := rfl)
  intro log log' answer _ heffect
  exact ⟨.inl heffect.1, heffect.2⟩

theorem peek_delegated {kind : MaterialKind} :
    Peek rules headerHash K (call (.delegated kind) rfl) fun m _ => sealed headerHash m := by
  apply Reads.run (h := rfl)
  intro log log' answer _ heffect
  exact ⟨.inl heffect.1, heffect.2⟩

theorem peek_provider {kind : MaterialKind} :
    Peek rules headerHash K (call (.provider kind) rfl) fun outcome _ =>
      ∀ m, outcome = ProviderAuthorization.signed m → sealed headerHash m := by
  apply Reads.run (h := rfl)
  intro log log' answer _ heffect
  refine ⟨.inl heffect.1, ?_⟩
  rintro a ha m rfl
  exact heffect.2 m ha

theorem peek_loaded : Peek rules headerHash K load fun r log => r = record log := by
  apply Reads.run (h := rfl)
  intro log log' answer hlog heffect
  refine ⟨.inl heffect.1, ?_⟩
  intro a ha
  rw [heffect.1]
  exact heffect.2 a ha

theorem peek_required : Peek rules headerHash K (X402Prog.run .required rfl : X402Prog X402Operation)
    fun _ _ => True := by
  apply Reads.run (h := rfl)
  intro log log' answer _ heffect
  exact ⟨.inl heffect.1, fun _ _ => trivial⟩

theorem peek_loadResult (hK : ∀ log, K log → Open o log) :
    Peek rules headerHash K loadResult fun r log =>
      o.resultLink.isSome → r = resultFile log := by
  apply Reads.run (h := rfl)
  intro log log' answer hlog heffect
  refine ⟨.inl heffect.1, ?_⟩
  intro a ha hlink
  rw [heffect.2 a ha, heffect.1]
  simp [storedResult, (hK log hlog).1, hlink]

theorem peek_loadRecoveryResult (hK : ∀ log, K log → Open o log) :
    Peek rules headerHash K loadRecoveryResult fun r log =>
      ∀ result, r = some result → resultFile log = some result ∧ o.resultLink = none := by
  apply Reads.run (h := rfl)
  intro log log' answer hlog heffect
  refine ⟨.inl heffect.1, ?_⟩
  rintro a ha result rfl
  have hfound := heffect.2 _ ha
  rw [heffect.1]
  simp only [recoveryResult, (hK log hlog).openRecord] at hfound
  split at hfound
  · cases hfound
  · rename_i hlink
    exact ⟨hfound.symm, by simpa using hlink⟩

theorem recoveryReceipt_some {receipt : X402Receipt} (h : Open o log)
    (hr : recoveryReceipt log = .ok (some receipt)) :
    receiptFile log = some receipt ∧ bindsOrphanReceipt o (resultFile log) receipt = true := by
  unfold recoveryReceipt at hr
  rw [h.openRecord] at hr
  simp only at hr
  split at hr
  · cases hr
  · split at hr
    · cases hr
    · rename_i found hfound
      split at hr
      · rename_i hbinds
        cases hr
        exact ⟨hfound, hbinds⟩
      · cases hr

theorem peek_loadRecoveryReceipt (hK : ∀ log, K log → Open o log) :
    Peek rules headerHash K loadRecoveryReceipt fun r log =>
      ∀ receipt, r = some receipt → receiptFile log = some receipt ∧
        bindsOrphanReceipt o (resultFile log) receipt = true := by
  apply Reads.run (h := rfl)
  intro log log' answer hlog heffect
  refine ⟨.inl heffect.1, ?_⟩
  rintro a ha receipt rfl
  rw [heffect.1]
  exact recoveryReceipt_some (hK log hlog) (heffect.2 _ ha)

theorem peek_assertChain : Peek rules headerHash K assertChain fun _ _ => True := by
  apply Reads.run (h := rfl)
  intro log log' answer _ heffect
  exact ⟨.inl heffect, fun _ _ => trivial⟩

theorem peek_nonceState {tag : ProofTag} :
    Peek rules headerHash K (nonceState tag) fun read log =>
      .nonceRead tag read ∈ current log ∧ .nonceRead tag read ∈ inCall log := by
  apply Reads.run (h := rfl)
  intro log log' answer _ heffect
  change Except X402Failure NonceRead at answer
  cases answer with
  | ok read =>
    have hlog : log' = .nonceRead tag read :: log := heffect
    subst hlog
    refine ⟨.inr ⟨.nonceRead tag read, trivial, trivial, rfl⟩, ?_⟩
    intro a ha
    cases ha
    exact ⟨List.mem_cons_self, List.mem_cons_self⟩
  | error e =>
    have hlog : log' = log := heffect
    exact ⟨.inl hlog, fun a ha => nomatch ha⟩

theorem peek_rpcReceipt {hash : String} :
    Peek rules headerHash K (rpcReceipt hash) fun r log =>
      ∀ receipt, r = some receipt → .receiptRead receipt ∈ current log := by
  apply Reads.run (h := rfl)
  intro log log' answer _ heffect
  change Except X402Failure (Option X402RpcReceipt) at answer
  rcases answer with e | (_ | receipt)
  · have hlog : log' = log := heffect
    exact ⟨.inl hlog, fun a ha => nomatch ha⟩
  · have hlog : log' = log := heffect
    refine ⟨.inl hlog, ?_⟩
    intro a ha receipt hreceipt
    cases ha
    cases hreceipt
  · have hlog : log' = .receiptRead receipt :: log := heffect
    subst hlog
    refine ⟨.inr ⟨.receiptRead receipt, trivial, trivial, rfl⟩, ?_⟩
    intro a ha receipt' hreceipt
    cases ha
    cases hreceipt
    exact List.mem_cons_self

end Peeks

/-! ## Writes -/

section Writes

/-- A write fails as itself. -/
def ByStore (e : X402Failure) (_ : List X402Event) : Prop := ∃ fault, e = .apn fault

theorem walk_writeOperation (hR : Lasting R) (hP : ∀ log, P log → R log ∧ WrittenOver log next) :
    Walk rules headerHash P (writeOperation next)
      (fun _ log => record log = some next ∧ current log = [] ∧ P (before log) ∧ R log) ByStore := by
  apply Walks.run (h := rfl)
  intro log log' answer hlawful hlog heffect
  rcases hP log hlog with ⟨hRlog, hover⟩
  change Except X402Failure Unit at answer
  rcases heffect with (⟨⟨fault, rfl⟩, rfl⟩ | ⟨hacc, rfl, hanswer⟩) | ⟨hacc, rfl, fault, rfl⟩
  · exact ⟨hlawful, fault, rfl⟩
  · refine ⟨⟨⟨hacc, hover⟩, hlawful⟩, ?_⟩
    rcases hanswer with rfl | ⟨fault, rfl⟩
    · exact ⟨rfl, rfl, hlog, hR _ _ (by simp) hRlog⟩
    · exact ⟨fault, rfl⟩
  · exact ⟨⟨⟨hacc, hover⟩, hlawful⟩, fault, rfl⟩

theorem walk_writeResult {result : X402Result} (hR : Lasting R)
    (hP : ∀ log, P log → R log ∧ Open o log ∧ Delivered o result) :
    Walk rules headerHash P (writeResult result)
      (fun _ log => Open o log ∧ resultFile log = some result ∧ o.resultLink = none ∧ R log)
      fun _ _ => True := by
  apply Walks.run (h := rfl)
  intro log log' answer hlawful hlog heffect
  rcases hP log hlog with ⟨hRlog, hopen, hdelivered⟩
  change Except X402Failure Unit at answer
  rcases heffect with ⟨⟨fault, rfl⟩, rfl⟩ | ⟨⟨o', ho', hlink⟩, rfl, hanswer⟩
  · exact ⟨hlawful, trivial⟩
  · rw [hopen.openRecord] at ho'
    cases ho'
    refine ⟨⟨⟨o, hopen.1, hopen.2, hlink, hdelivered⟩, hlawful⟩, ?_⟩
    rcases hanswer with rfl | ⟨fault, rfl⟩
    · exact ⟨hopen, rfl, hlink, hR _ _ (by simp) hRlog⟩
    · trivial

theorem walk_writeReceipt {receipt : X402Receipt} {at' : ℤ} (hR : Lasting R)
    (hP : ∀ log, P log → R log ∧ Open o log ∧ .clock at' ∈ current log ∧
      Ends o receipt.terminalState ∧
      receipt = sealReceipt o receipt.terminalState (o.resultLink.bind fun _ => resultFile log) at') :
    Walk rules headerHash P (writeReceipt receipt)
      (fun _ log => Open o log ∧ receiptFile log = some receipt ∧
        receipt = sealReceipt o receipt.terminalState (o.resultLink.bind fun _ => resultFile log) at' ∧
        R log) fun _ _ => True := by
  apply Walks.run (h := rfl)
  intro log log' answer hlawful hlog heffect
  rcases hP log hlog with ⟨hRlog, hopen, hclock, hends, hsealed⟩
  change Except X402Failure Unit at answer
  rcases heffect with ⟨⟨fault, rfl⟩, rfl⟩ | ⟨hacc, rfl, hanswer⟩
  · exact ⟨hlawful, trivial⟩
  · refine ⟨⟨⟨o, at', hopen.1, hopen.2, hclock, hends, hsealed⟩, hlawful⟩, ?_⟩
    rcases hanswer with rfl | ⟨fault, rfl⟩
    · exact ⟨hopen, rfl, hsealed, hR _ _ (by simp) hRlog⟩
    · trivial

-- The request of a pending attempt, and its answer.
theorem walk_sendPaid {purpose : AttemptPurpose} {header : String} (hR : Lasting R)
    (hP : ∀ log, P log → R log ∧ Open o log ∧ BegunHere log o purpose ∧
      o.paymentHeaderHash = some (headerHash header) ∧ ∀ p h, .sent p h ∉ current log) :
    Walk rules headerHash P (X402Prog.sendPaid purpose header)
      (fun raw log => Open o log ∧ R log ∧
        ∀ answer, raw = some answer → .answered purpose answer ∈ current log) fun _ _ => True := by
  apply Walks.perform
  intro log log' answer hlawful hlog heffect
  rcases hP log hlog with ⟨hRlog, hopen, hbegun, hheader, hunsent⟩
  have hsent : Trace.LawfulLog (Lawful headerHash) (.sent purpose header :: log) :=
    ⟨⟨o, hopen.1, hbegun, hheader, hunsent⟩, hlawful⟩
  have hRsent : R (.sent purpose header :: log) := hR _ _ (by simp) hRlog
  change Option PaidResponse at answer
  cases answer with
  | none =>
    have heq : log' = .sent purpose header :: log := heffect
    subst heq
    exact ⟨hsent, hopen, hRsent, fun _ h => nomatch h⟩
  | some raw =>
    have heq : log' = .answered purpose raw :: .sent purpose header :: log := heffect
    subst heq
    refine ⟨⟨⟨header, log, rfl⟩, hsent⟩, hopen, hR _ _ (by simp) hRsent, ?_⟩
    intro a ha
    cases ha
    exact List.mem_cons_self

end Writes

end X402
end PaymentNode
