import PaymentNode.Transfer.Calls

/-!
# Outcome — what every run of a transfer's calls leaves

A released hold means that nothing was or will be sent, every send follows the fence of the same bytes, and
the stored records only ever grow.  Each holds in every run that stays clear of one branch: the first two of
the observe-only resume of a signature without a fence, the last of the catch of a dispatch that goes on from
a Base USDC record the store has moved past.  `Script` plays concrete runs, which show both branches.
-/

namespace PaymentNode

open TransferProg System

variable {keccak : Keccak}

abbrev TransferConfig := Config TransferOp TransferOp.Answer ApnError TransferShared Unit

abbrev TransferLabel := Label TransferOp TransferOp.Answer ApnError Unit

/-- A run of a transfer's calls, from nothing. -/
abbrev TransferRun (keccak : Keccak) (labels : List TransferLabel) (c : TransferConfig) : Prop :=
  Runs.Run (TransferStep keccak) (idle TransferShared.fresh) labels c

/-- The hold was released, or is. -/
def TransferCore.Released (c : TransferCore) : Prop :=
  .released ∈ c.log ∨ c.usage = some .failedBeforeEffect

/-- What a released hold and a send promise. -/
structure ReleasedNeverSent (keccak : Keccak) (c : TransferCore) : Prop where
  neverSent : c.Released → ∀ raw, .sent raw ∉ c.log
  sameBytes : ∀ raw, .sent raw ∈ c.log →
    ∃ r, c.record = some r ∧ r.transactionHash = some (keccak raw)
  fencedFirst : SendsFenced keccak c.log

theorem fenced_of_sent {log : List TransferEvent} {raw : Hex} (h : SendsFenced keccak log)
    (hsent : .sent raw ∈ log) : .fenced (keccak raw) ∈ log := by
  induction log with
  | nil => cases hsent
  | cons e before ih =>
    rcases List.mem_cons.mp hsent with rfl | hbefore
    · exact List.mem_cons_of_mem _ h.1
    · have hrest : SendsFenced keccak before := by
        cases e with
        | sent _ => exact h.2
        | _ => exact h
      exact List.mem_cons_of_mem _ (ih hrest hbefore)

theorem Charged.releasedNeverSent {c : TransferCore} (h : Charged keccak c) :
    ReleasedNeverSent keccak c := by
  have hfence : ∀ raw, .sent raw ∈ c.log → c.fence = some (keccak raw) :=
    fun raw hsent => (h.logged _).mp (fenced_of_sent h.sends hsent)
  refine ⟨?_, ?_, h.sends⟩
  · intro hreleased raw hsent
    have husage : c.usage = some .failedBeforeEffect := hreleased.elim h.released id
    rcases h.failed husage with ⟨r, hr, hfailed⟩
    rcases h.bound _ (hfence raw hsent) with ⟨r', hr', _, hafter⟩
    rw [hr] at hr'
    cases hr'
    exact hafter.2.2 hfailed
  · intro raw hsent
    rcases h.bound _ (hfence raw hsent) with ⟨r, hr, hhash, _⟩
    exact ⟨r, hr, hhash⟩

/-- **A released hold means never sent**, and every send follows its fence: in every run in which no
observe-only resume meets a signature without a fence. -/
theorem released_never_sent {labels : List TransferLabel} {c : TransferConfig}
    (hrun : TransferRun keccak labels c) (hfenced : .observedUnfenced ∉ c.shared.core.log) :
    ReleasedNeverSent keccak c.shared.core :=
  ((transferInv_run hrun).charged hfenced).releasedNeverSent

/-- **The stored records are append-only**, in every run in which no catch of a dispatch goes on from a Base
USDC record that the store has moved past. -/
theorem stored_records_append_only {labels : List TransferLabel} {c : TransferConfig}
    (hrun : TransferRun keccak labels c) (hcaught : .leftBehind ∉ c.shared.core.log) :
    AppendOnly (storedRecords c.shared.core.log) ∧
      c.shared.core.record = (storedRecords c.shared.core.log).head? :=
  ⟨(transferInv_run hrun).history hcaught, (transferInv_run hrun).stored⟩

/-! ## Concrete runs -/

namespace TransferRuns

/-- How one run's questions are answered, and which receipt is never written. -/
structure Script where
  answer : (q : TransferAsk) → q.Answer
  returned : Hex
  lost : OperationRecord → Bool

def made (allowed : Prop) [Decidable allowed] (s next : TransferShared) : Result Unit × TransferShared :=
  if allowed then (.ok (), next) else (.error ⟨.stateCorrupt, ""⟩, s)

/-- Reads and writes succeed where they may. -/
def Script.play (script : Script) (s : TransferShared) : (o : TransferOp) → o.Answer × TransferShared
  | .find =>
    if ∀ r ∈ s.core.record, validateOperation r = .ok () then
      ((.ok s.core.record : Result (Option OperationRecord)), s)
    else ((corrupt "" : Result (Option OperationRecord)), s)
  | .writeOperation next =>
    made (validateEvmOperationWrite next s.core.record = .ok ()) s
      { s with core := s.core.stores next }
  | .writeReceipt of' => ((if script.lost of' then corrupt "" else .ok () : Result Unit), s)
  | .readUsage => ((.ok s.core.usage : Result (Option AssetUsageState)), s)
  | .moveUsage target =>
    made (s.core.allowsMove target) s { s with core := s.core.moves target }
  | .reserveUsage =>
    if s.core.usage = none ∨ s.core.usage = some .reserved then
      ((.ok "lease" : Result String), { s with core := s.core.reserves })
    else ((corrupt "" : Result String), s)
  | .hasPrepared => ((.ok s.preparedClaim : Result Bool), s)
  | .hasSigning => ((.ok s.signing : Result Bool), s)
  | .readSigned => ((.ok s.signed : Result (Option Hex)), s)
  | .readNoPrivate => ((.ok s.noPrivate : Result (Option OperationRecord)), s)
  | .readFence => ((.ok s.core.fence : Result (Option Hex)), s)
  | .writePrepared => made (s.preparedClaim = false) s { s with preparedClaim := true }
  | .writeSigning => made (s.signing = false) s { s with signing := true }
  | .writeSigned hash => made (s.signed = none) s { s with signed := some hash }
  | .writeNoPrivate attempt => made (s.noPrivate = none) s { s with noPrivate := some attempt }
  | .writeFence hash => made (s.core.fence = none) s { s with core := s.core.fences hash }
  | .submitRaw raw => ((.ok script.returned : Result Hex), { s with core := s.core.marks (.sent raw) })
  | .now => ((0 : ℤ), s)
  | .ask q => (script.answer q, s)
  | .observesUnfenced => ((), { s with core := s.core.marks .observedUnfenced })
  | .catches operation => ((), { s with core := s.core.catches operation })

theorem made_allowed (allowed : Prop) [Decidable allowed] (s next : TransferShared) :
    writes (made allowed s next).1 allowed s next (made allowed s next).2 := by
  unfold made
  split
  · rename_i h
    exact Or.inr ⟨h, rfl⟩
  · exact Or.inl ⟨rfl, fun _ => by simp⟩

theorem play_allowed (script : Script) (s : TransferShared) (o : TransferOp) :
    transferExec () s o (script.play s o).1 (script.play s o).2 := by
  have hread : ∀ {α : Type} (value : α), reads (.ok value : Result α) value s s :=
    fun value => ⟨rfl, fun a h => (Except.ok.inj h).symm⟩
  cases o with
  | find =>
    unfold Script.play
    split
    · rename_i hvalid
      refine ⟨hread _, ?_⟩
      intro r hr
      exact hvalid r (Except.ok.inj hr)
    · refine ⟨⟨rfl, ?_⟩, ?_⟩
      · intro a h
        cases h
      · intro r h
        cases h
  | readUsage | hasPrepared | hasSigning | readSigned | readNoPrivate | readFence => exact hread _
  | writeOperation | moveUsage | writePrepared | writeSigning | writeSigned | writeNoPrivate
  | writeFence =>
    exact made_allowed _ s _
  | reserveUsage =>
    by_cases hfree : s.core.usage = none ∨ s.core.usage = some .reserved
    · have hplay : script.play s .reserveUsage =
          ((.ok "lease" : Result String), { s with core := s.core.reserves }) := if_pos hfree
      rw [hplay]
      exact Or.inr ⟨hfree, rfl⟩
    · have hplay : script.play s .reserveUsage = ((corrupt "" : Result String), s) := if_neg hfree
      rw [hplay]
      exact Or.inl ⟨rfl, fun _ => by simp⟩
  | writeReceipt | submitRaw | now | ask | observesUnfenced | catches => rfl

/-- One call, with its answers, for as many of its operations. -/
def call (script : Script) (prog : TransferProg Unit) (operations : Nat) :
    Call TransferOp TransferOp.Answer ApnError TransferShared :=
  ⟨prog, script.play, operations⟩

def after (calls : List (Call TransferOp TransferOp.Answer ApnError TransferShared)) : TransferShared :=
  calls.foldl (fun s call => call.after s) TransferShared.fresh

/-- `keccak256` of the one transaction of these runs. -/
def keccak256 (raw : Hex) : Hex :=
  if raw = "0x02" then "0xf2ee15ea639b73fa3db9b34a245bdfa015c260c598b211bf05a1ecc4b3e3b4f2" else raw

theorem run_after (calls : List (Script × TransferProg Unit × Nat))
    (hcalls : ∀ c ∈ calls, TransferCall keccak c.2.1) :
    ∃ labels, TransferRun keccak labels
      (idle (after (calls.map fun c => call c.1 c.2.1 c.2.2))) := by
  apply run_calls
  · exact fun _ => rfl
  · intro c hc
    rcases List.mem_map.mp hc with ⟨given, hgiven, rfl⟩
    exact ⟨hcalls given hgiven, fun s o => play_allowed given.1 s o⟩

def effect : NativeEffect := ⟨"0x02", keccak256 "0x02", keccak256 "0x02"⟩

/-- The chain never shows a receipt, and custody signs the one transaction. -/
def answers : (q : TransferAsk) → q.Answer
  | .sign => (.ok "0x02" : Result Hex)
  | .signedMaterial => (.ok effect : Result NativeEffect)
  | .receipt => (.ok none : Result (Option RpcReceipt))
  | .checkApproval => (.ok none : Result (Option String))
  | .actualFee => (.ok none : Result (Option String))
  | .evidence => (.ok true : Except String Bool)
  | .neverLands => (.ok ⟨false, false, false, false⟩ : Result NeverLandsCheck)
  | .finalizedBatch | .rpcConfigured => true
  | .ready | .admitted | .custody | .frozenTransaction | .confirmPolicy | .foregroundApproval | .openWallet
  | .saveWallet | .attest | .abandonApproval => (.ok () : Result Unit)

def script : Script := ⟨answers, keccak256 "0x02", fun _ => false⟩

/-- A prepared transfer of either lane. -/
def prepared (evm : Option EvmDirectBinding) : OperationRecord :=
  ⟨evm, 1, some "revision 1", none, none, none, none, none,
    ⟨0, .awaitingApproval, false, "prepared_and_frozen", "durable_pre_effect"⟩, []⟩

theorem prepared_fresh (evm : Option EvmDirectBinding) : (prepared evm).Fresh :=
  ⟨rfl, rfl, rfl, rfl, rfl, rfl, rfl⟩

def native : Option EvmDirectBinding := some ⟨true, true, false, false⟩

/-- Approval stops after the signature is recorded and before its fence; an observe-only resume then writes
`unknown_finality`, and a later resume sends the bytes again. -/
def unfenced : List (Script × TransferProg Unit × Nat) :=
  [(script, LocalDirect.prepareOperation (prepared native), 40),
    (script, LocalDirect.approve keccak256, 43),
    (script, LocalDirect.resume keccak256 true, 100),
    (script, LocalDirect.resume keccak256 false, 100)]

/-- Approval to the end, and a resume that sends the bytes once more. -/
def resent : List (Script × TransferProg Unit × Nat) :=
  [(script, LocalDirect.prepareOperation (prepared native), 40),
    (script, LocalDirect.approve keccak256, 100),
    (script, LocalDirect.resume keccak256 false, 100)]

/-- The receipt of the submission is lost after its record was written. -/
def staleCatch : List (Script × TransferProg Unit × Nat) :=
  [(script, LocalDirect.prepareOperation (prepared none), 40),
    (⟨answers, keccak256 "0x02", fun r => r.state = .submittedPending⟩,
      LocalDirect.approve keccak256, 100)]

theorem calls_of {evm : Option EvmDirectBinding} {s : Script} {n : Nat}
    {rest : List (Script × TransferProg Unit × Nat)}
    (hrest : ∀ c ∈ rest, TransferCall keccak256 c.2.1) :
    ∀ c ∈ (s, LocalDirect.prepareOperation (prepared evm), n) :: rest, TransferCall keccak256 c.2.1 := by
  intro c hc
  rcases List.mem_cons.mp hc with rfl | hc
  · exact TransferCall.prepare _ (prepared_fresh evm)
  · exact hrest c hc

def reached (calls : List (Script × TransferProg Unit × Nat)) : TransferShared :=
  after (calls.map fun c => call c.1 c.2.1 c.2.2)

theorem run_unfenced : ∃ labels, TransferRun keccak256 labels (idle (reached unfenced)) := by
  apply run_after
  apply calls_of
  intro c hc
  simp only [List.mem_cons, List.not_mem_nil, or_false] at hc
  rcases hc with rfl | rfl | rfl
  · exact TransferCall.approve
  · exact TransferCall.resume true
  · exact TransferCall.resume false

theorem run_resent : ∃ labels, TransferRun keccak256 labels (idle (reached resent)) := by
  apply run_after
  apply calls_of
  intro c hc
  simp only [List.mem_cons, List.not_mem_nil, or_false] at hc
  rcases hc with rfl | rfl
  · exact TransferCall.approve
  · exact TransferCall.resume false

theorem run_staleCatch : ∃ labels, TransferRun keccak256 labels (idle (reached staleCatch)) := by
  apply run_after
  apply calls_of
  intro c hc
  rw [List.mem_singleton.mp hc]
  exact TransferCall.approve

/-- Bytes leave the machine without a dispatch fence. -/
theorem sent_without_fence :
    ∃ labels c, TransferRun keccak256 labels c ∧ ¬ ReleasedNeverSent keccak256 c.shared.core := by
  rcases run_unfenced with ⟨labels, hrun⟩
  refine ⟨labels, _, hrun, ?_⟩
  intro h
  have hsent : .sent "0x02" ∈ (reached unfenced).core.log := by decide +kernel
  have hnone : .fenced (keccak256 "0x02") ∉ (reached unfenced).core.log := by decide +kernel
  exact hnone (fenced_of_sent h.fencedFirst hsent)

theorem released_never_sent_of_resent :
    ∃ labels c, TransferRun keccak256 labels c ∧ .sent "0x02" ∈ c.shared.core.log ∧
      ReleasedNeverSent keccak256 c.shared.core := by
  rcases run_resent with ⟨labels, hrun⟩
  exact ⟨labels, _, hrun, by decide +kernel, released_never_sent hrun (by decide +kernel)⟩

/-- A stored record is replaced by one that does not extend it. -/
theorem replaced_from_stale_record :
    ∃ labels c, TransferRun keccak256 labels c ∧ ¬ AppendOnly (storedRecords c.shared.core.log) := by
  rcases run_staleCatch with ⟨labels, hrun⟩
  refine ⟨labels, _, hrun, ?_⟩
  intro h
  have hstale : ¬ AppendOnly ((storedRecords (reached staleCatch).core.log).take 2) := by
    unfold AppendOnly Extends
    decide +kernel
  exact hstale (h.sublist (List.take_sublist _ _))

theorem stored_records_append_only_of_resent :
    ∃ labels c, TransferRun keccak256 labels c ∧ (storedRecords c.shared.core.log).length = 5 ∧
      AppendOnly (storedRecords c.shared.core.log) ∧
      c.shared.core.record = (storedRecords c.shared.core.log).head? := by
  rcases run_resent with ⟨labels, hrun⟩
  exact ⟨labels, _, hrun, by decide +kernel, stored_records_append_only hrun (by decide +kernel)⟩

end TransferRuns
end PaymentNode
