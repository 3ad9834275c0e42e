import PaymentNode.Permit2.Results

/-!
# Exposure — a Permit2 payment is exposed once, and its hold is released on proof

`PermitSafe` is what every interleaving of the calls on one operation leaves true, from its prepared record on.
`Permit2Runs` is a payment of one unit, by processes that are never refused.
-/

open System Guarded

namespace PaymentNode.Permit2

section Interleavings

variable {H : Permit2Hashes} {π : Type} {origin : Permit2ProductionRecord} {addresses : Addresses}

/-- A prepared operation that nothing has been done to. -/
def Permit2State.prepared (origin : Permit2ProductionRecord) (clock : Instant) : Permit2State H π :=
  ⟨origin, [], none, clock, 0, 0, none, none⟩

/-- Everything that happened: every record that was ever stored. -/
def Permit2State.history (c : Permit2State H π) : List Permit2ProductionRecord := c.record :: c.past

def NeverExposed (c : Permit2State H π) : Prop := ∀ r ∈ c.history, r.exposureJournal = none

def DeadlinePassed (c : Permit2State H π) : Prop := (c.record.material.expiresAtUnix : ℤ) * 1000 ≤ c.clock.ms

/-- A later record has the bundle, the request marker and the intent of an earlier one. -/
structure KeepsMarkers (newer older : Permit2ProductionRecord) : Prop where
  signed : ∀ s, older.signed = some s → newer.signed = some s
  request : ∀ q, older.request = some q → newer.request = some q
  intent : ∀ i, older.intent = some i → newer.intent = some i

structure PermitSafe (c : Permit2State H π) : Prop where
  oneSigning : c.signings ≤ 1
  oneFirst : c.firsts ≤ 1
  kept : c.history.Pairwise KeepsMarkers
  released : ∀ row, c.row = some row → row.state = .releasedUnsubmitted →
    (NeverExposed c ∧ DeadlinePassed c) ∨ Intends .expiredUnused c.record
  finalized : ∀ row, c.row = some row → row.state = .finalized → Intends .settled c.record
  /-- The hold of a signed bundle is freed only once the bundle can no longer be settled. -/
  bundle : c.record.signed.isSome → ∀ row, c.row = some row → row.state = .releasedUnsubmitted →
    Intends .expiredUnused c.record

theorem Grows.markers {older newer : Permit2ProductionRecord} (h : Grows older newer) : KeepsMarkers newer older :=
  ⟨fun _ hs => h.signed hs, fun _ hq => h.request hq, fun _ hi => h.intent hi⟩

theorem PermitInv.safe {c : Permit2State H π} (h : PermitInv H origin c) : PermitSafe c := by
  have hunexposed : ∀ row, c.row = some row → row.state = .releasedUnsubmitted →
      ¬ Intends .expiredUnused c.record → c.record.exposureJournal = none ∧ c.record.state.releasing := by
    intro row hrow hstate hnot
    have hreleasing := (h.released row hrow hstate).resolve_right hnot
    exact ⟨h.good.unexposed_of_releasing hreleasing, hreleasing⟩
  refine ⟨h.oneSigning, h.oneFirst, h.grows.imp Grows.markers, ?_, h.finalized, ?_⟩
  · intro row hrow hstate
    by_cases hintends : Intends .expiredUnused c.record
    · exact Or.inr hintends
    rcases hunexposed row hrow hstate hintends with ⟨hnone, hreleasing⟩
    refine Or.inl ⟨?_, ?_⟩
    · intro r hr
      -- An older journal would still be there.
      rcases List.mem_cons.mp hr with rfl | hpast
      · exact hnone
      · by_contra hsome
        have hgrows := (List.pairwise_cons.mp h.grows).1 r hpast
        have hkept := hgrows.isSome (Option.isSome_iff_ne_none.mpr hsome)
        rw [hnone] at hkept
        cases hkept
    · have hdeadline := h.good.deadline_of_releasing hreleasing
      have hstamped : c.record.updatedAt.ms ≤ c.clock.ms := h.stamped
      unfold DeadlinePassed
      omega
  · intro hsigned row hrow hstate
    by_contra hnot
    have hnone := (hunexposed row hrow hstate hnot).1
    rw [Permit2ProductionRecord.signed, hnone] at hsigned
    cases hsigned

theorem permitInv_prepared {clock : Instant} (hvalid : validatePermit2ProductionRecord H origin = .ok ())
    (hprepared : origin.state = .prepared) (hclock : origin.updatedAt ≤ clock) :
    PermitInv H origin (Permit2State.prepared origin clock : Permit2State H π) := by
  have hjournal : origin.exposureJournal = none := by
    by_contra hsome
    have hconsistent := (valid_parts hvalid).2.1
    rcases Option.isSome_iff_exists.mp (Option.isSome_iff_ne_none.mpr hsome) with ⟨j, hj⟩
    rw [exposureConsistent, hj] at hconsistent
    simp [hprepared, Permit2ProductionState.exposed] at hconsistent
  have hnone : origin.signed = none := by rw [Permit2ProductionRecord.signed, hjournal, Option.bind_none]
  refine ⟨⟨hvalid, Frozen.refl, ?_, ?_⟩, hclock, List.pairwise_singleton _ _, ?_, ?_, ?_, ?_, ?_, ?_, ?_, ?_, ?_⟩
  · intro hexposed
    have hexposed : origin.state.exposed = true := hexposed
    rw [hprepared] at hexposed
    cases hexposed
  · intro s hs
    have hs : origin.signed = some s := hs
    rw [hnone] at hs
    cases hs
  all_goals simp [Permit2State.prepared]

variable [DecidableEq π]

/-- Any processes, each with one call of the family at a time, killed anywhere. -/
abbrev Permit2Step (H : Permit2Hashes) (π : Type) [DecidableEq π] (addresses : Addresses)
    (origin : Permit2ProductionRecord) :=
  System.Step (Guarded.system (permitWorld (H := H) (π := π) (leaseKey addresses origin)))
    fun (_ : π) prog => ∃ call : Permit2Call, prog = call.program

abbrev Permit2Config (H : Permit2Hashes) (π : Type) :=
  System.Config (Guarded.Op Permit2Op) (Guarded.Op.Answer (Permit2Op.Answer H)) ApnError
    (Guarded.State (Permit2State H π) π) π

theorem permitInv_of_run (hapart : OutcomesApart H) {clock : Instant}
    (hvalid : validatePermit2ProductionRecord H origin = .ok ()) (hprepared : origin.state = .prepared)
    (hclock : origin.updatedAt ≤ clock) {labels} {c : Permit2Config H π}
    (hrun : Runs.Run (Permit2Step H π addresses origin)
      (System.idle ⟨Permit2State.prepared origin clock, none⟩) labels c) : PermitInv H origin c.shared.core := by
  have hstart : (permitLaw H origin π).inv (Permit2State.prepared origin clock) :=
    permitInv_prepared hvalid hprepared hclock
  refine Guarded.inv_of_run (L := permitLaw H origin π) (s := ⟨_, none⟩) ?_ (fun p c c' hc => keeps_crash hc)
    hstart hrun
  rintro p prog ⟨call, rfl⟩
  exact call.safe hapart

/-- **A Permit2 authorization is exposed once and sent once, and its hold is released only on proof**, in every
interleaving of any number of processes that die anywhere. -/
theorem permit2_exposed_once_and_released_on_proof (hapart : OutcomesApart H) {clock : Instant}
    (hvalid : validatePermit2ProductionRecord H origin = .ok ()) (hprepared : origin.state = .prepared)
    (hclock : origin.updatedAt ≤ clock) {labels} {c : Permit2Config H π}
    (hrun : Runs.Run (Permit2Step H π addresses origin)
      (System.idle ⟨Permit2State.prepared origin clock, none⟩) labels c) : PermitSafe c.shared.core :=
  (permitInv_of_run hapart hvalid hprepared hclock hrun).safe

end Interleavings

/-! ## A payment of one unit -/

namespace Permit2Runs

/-- A text after its length. -/
def framed (cs : List Char) : List Char := List.replicate cs.length '.' ++ '|' :: cs

theorem bars_inj : ∀ {m n : ℕ} {u v : List Char},
    List.replicate m '.' ++ '|' :: u = List.replicate n '.' ++ '|' :: v → m = n ∧ u = v
  | 0, 0, _, _, h => by simpa using h
  | 0, _ + 1, _, _, h => by simp [List.replicate_succ] at h
  | _ + 1, 0, _, _, h => by simp [List.replicate_succ] at h
  | m + 1, n + 1, u, v, h => by
    rw [List.replicate_succ, List.replicate_succ, List.cons_append, List.cons_append] at h
    rcases bars_inj (List.cons.inj h).2 with ⟨hcount, hrest⟩
    exact ⟨by omega, hrest⟩

theorem frames_inj : ∀ {ks ls : List (List Char)}, ks.flatMap framed = ls.flatMap framed → ks = ls
  | [], [], _ => rfl
  | [], l :: ls, h => by simp [framed] at h
  | k :: ks, [], h => by simp [framed] at h
  | k :: ks, l :: ls, h => by
    simp only [List.flatMap_cons, framed, List.append_assoc, List.cons_append] at h
    rcases bars_inj h with ⟨hlength, hrest⟩
    rcases List.append_inj hrest hlength with ⟨rfl, hothers⟩
    rw [frames_inj hothers]

def textOf (s : String) : List Char := s.toList

def countOf (n : ℕ) : List Char := List.replicate n '1'

def optionOf {α : Type} (text : α → List Char) : Option α → List Char
  | none => []
  | some a => '!' :: text a

def outcomeOf : Permit2Outcome → List Char
  | .hold => ['h']
  | .settled => ['s']
  | .expiredUnused => ['e']

theorem textOf_inj : Function.Injective textOf := fun _ _ h => String.toList_inj.mp h

theorem countOf_inj : Function.Injective countOf := by
  intro m n h
  have hlength := congrArg List.length h
  simpa [countOf] using hlength

theorem optionOf_inj {α : Type} {text : α → List Char} (h : Function.Injective text) :
    Function.Injective (optionOf text)
  | none, none, _ => rfl
  | none, some b, heq => by simp [optionOf] at heq
  | some a, none, heq => by simp [optionOf] at heq
  | some a, some b, heq => congrArg some (h (List.cons.inj heq).2)

theorem outcomeOf_inj : Function.Injective outcomeOf := by
  intro a b
  cases a <;> cases b <;> simp [outcomeOf]

def factsOf : Permit2TerminalFacts → List (List Char)
  | .settled transactionHash blockNumber blockHash =>
    [optionOf textOf transactionHash, countOf blockNumber, textOf blockHash]
  | .expired nonce word bit tokenNonce tokenDomain permit2Deadline eip2612Deadline =>
    [countOf nonce, countOf word, countOf bit, optionOf countOf tokenNonce, optionOf textOf tokenDomain,
      countOf permit2Deadline, optionOf countOf eip2612Deadline]

theorem factsOf_inj : Function.Injective factsOf := by
  intro a b
  cases a <;> cases b <;>
    simp [factsOf, textOf_inj.eq_iff, countOf_inj.eq_iff, (optionOf_inj textOf_inj).eq_iff,
      (optionOf_inj countOf_inj).eq_iff]

def terminalText (t : Permit2TerminalPreimage) : String :=
  String.ofList ((outcomeOf t.outcome :: factsOf t.facts).flatMap framed)

theorem terminalText_inj {s t : Permit2TerminalPreimage} (h : terminalText s = terminalText t) :
    s.outcome = t.outcome ∧ s.facts = t.facts := by
  rcases List.cons.inj (frames_inj (String.ofList_injective h)) with ⟨houtcome, hfacts⟩
  exact ⟨outcomeOf_inj houtcome, factsOf_inj hfacts⟩

def digest : String := "aaaaaaaaaaaaaaaaaaaaaaaaaaaaaaaaaaaaaaaaaaaaaaaaaaaaaaaaaaaaaaaa"

def hashes : Permit2Hashes where
  idempotency key := key
  reservationIdFor _ _ := digest
  hashObject proof := proof.receiptHash
  sha256 text := text
  reservationDigest _ := digest
  integrity _ := digest
  wallet binding := binding.bindingHash
  approvalFingerprint operationId _ := operationId
  riskBinding operationId _ _ _ := operationId
  terminal := terminalText
  stable operationId _ _ _ _ _ := operationId
  unsignedExpiry operationId _ _ := operationId
  signed _ _ _ _ _ := digest
  validMaterial _ := true
  decodes _ _ _ := true
  verifies _ _ := true

theorem hashes_apart : OutcomesApart hashes := by
  intro a b h
  exact (terminalText_inj h).1

theorem second_lower (n : ℕ) : firstInstantMs ≤ (n % 1000 : ℕ) * 1000 := by
  unfold firstInstantMs
  omega

theorem second_upper (n : ℕ) : ((n % 1000 : ℕ) : ℤ) * 1000 ≤ lastInstantMs := by
  unfold lastInstantMs
  omega

/-- The `n`-th second. -/
def second (n : ℕ) : Instant := ⟨(n % 1000 : ℕ) * 1000, second_lower n, second_upper n⟩

def wallet : Permit2WalletBinding := ⟨"p", digest, "0x1", "b", none, 1, "t"⟩

/-- One unit of a token, until second 100. -/
def material : Permit2ProductionMaterial where
  wallet := wallet
  policyDigest := "p"
  registryVersion := "r1"
  policyRevision := 1
  activationDigest := "a"
  requestHash := "q"
  challengeHash := "c"
  signingSecond := 0
  nonce := 3
  identity := ⟨"0x1", "eip155:1", .token "0x2"⟩
  amountAtomic := 1
  permit2Deadline := 100
  eip2612 := none
  tokenDomainSeparator := none
  materialHash := "m"

def prepared : Permit2ProductionRecord where
  operationId := digest
  profileHash := digest
  idempotencyHash := digest
  requestHash := digest
  material := material
  createdAt := second 0
  updatedAt := second 0
  state := .prepared
  terminal := false
  reservationStarted := false
  usageReservationId := digest
  usageReservationDigest := none
  exposureAt := none
  releaseDigest := none
  exposureJournal := none

def anyAddress : Addresses := ⟨fun _ _ => true, fun _ _ => true⟩

def registry : AssetPolicyRegistry where
  schemaVersion := .v1
  registryVersion := "r1"
  effectiveDate := 0
  effectiveAt := none
  expiresAt := none
  chains := [⟨"eip155:1", .evm, [⟨.token "0x2", fun _ => true, some ⟨10, 10⟩, fun _ => none, none⟩]⟩]
  policyDigest := "p"

def approval : Permit2ForegroundApproval := ⟨digest, .signAndSubmitOnce, "m", "d", "f", 2000⟩

def bundle : Permit2ProductionSigned := ⟨digest, "s", none, "h", "h", digest⟩

def signedOrigin : Permit2SignedOrigin := ⟨approval, digest, digest, "b"⟩

abbrev Shared := Guarded.State (Permit2State hashes ℕ) ℕ

def key : HoldKey := leaseKey anyAddress prepared

/-- The nonce is consumed at a block, and the receipt of the locator is in it. -/
def readsAt (head : Permit2ObservedBlock) : Permit2ObserverReads := ⟨.ok head, some head.number, .ok 8, .ok 0⟩

def withRow (s : Shared) (write : Bucket hashes.toLedgerHash → Result (Lease hashes × Bucket hashes.toLedgerHash)) :
    Result (Lease hashes) × Shared :=
  ((ownWrite key s.core.row write).1, { s with core := { s.core with row := (ownWrite key s.core.row write).2 } })

/-- Nothing refuses: the lock is free or held, writes reach the disk, the clock of process `p` shows second `p`,
and every observation reads the same head. -/
def answer (head : Permit2ObservedBlock) (p : ℕ) (s : Shared) :
    (o : Guarded.Op Permit2Op) → Guarded.Op.Answer (Permit2Op.Answer hashes) o × Shared
  | .lock => if s.holder = none then (true, { s with holder := some p }) else (false, s)
  | .unlock => ((), { s with holder := dropped p s.holder })
  | .act .read => (Except.ok s.core.record, s)
  | .act (.write next) => (Except.ok (), { s with core := s.core.store p next })
  | .act (.lease .usageWithReservation) => (Except.ok ((1 : ℕ), s.core.row), s)
  | .act (.lease (.transition input)) => withRow s fun bucket => transition key.identity bucket input
  | .act (.lease (.reserve input)) => withRow s fun bucket => reserveBound key.addresses key.identity bucket input none
  | .act (.lease (.cancel input)) => withRow s fun bucket => cancelUnsubmittedReservation key.identity bucket input
  | .act .now =>
    (Except.ok (max s.core.clock (second p)), { s with core := { s.core with clock := max s.core.clock (second p) } })
  | .act (.ask (.ownerLocked ..)) => (Except.ok (), s)
  | .act (.ask (.activePolicy ..)) => (Except.ok (some ⟨registry, 1, "a"⟩), s)
  | .act (.ask (.approvalDisplay ..)) => (Except.ok ("d", "f"), s)
  | .act (.ask (.consume _)) => (Except.ok (), s)
  | .act (.ask (.hint _)) => (Except.ok none, s)
  | .act (.ask (.walletBinding _)) => (Except.ok wallet, s)
  | .act (.ask (.observerReads ..)) => (Except.ok (readsAt head), s)
  | .act (.receive (.signing _)) =>
    ((), { s with core := { s.core with signings := s.core.signings + 1, exposer := dropped p s.core.exposer } })
  | .act (.receive (.first _)) =>
    ((), { s with core := { s.core with firsts := s.core.firsts + 1, requester := dropped p s.core.requester } })

def OwnId (s : Shared) : Prop := ∀ r, s.core.row = some r → r.reservationId = key.reservationId hashes.toLedgerHash

theorem withRow_id {s : Shared} {write : Bucket hashes.toLedgerHash →
    Result (Lease hashes × Bucket hashes.toLedgerHash)} (h : OwnId s) : OwnId (withRow s write).2 :=
  ownWrite_id h

theorem answer_allowed (head : Permit2ObservedBlock) (p : ℕ) (s : Shared) (o : Guarded.Op Permit2Op) (hs : OwnId s) :
    (Guarded.system (permitWorld key)).exec p s o (answer head p s o).1 (answer head p s o).2 ∧
      OwnId (answer head p s o).2 := by
  cases o with
  | lock =>
    by_cases hfree : s.holder = none
    · simp only [answer, if_pos hfree]
      exact ⟨⟨hfree, rfl⟩, hs⟩
    · simp only [answer, if_neg hfree]
      exact ⟨rfl, hs⟩
  | unlock => exact ⟨rfl, hs⟩
  | act o =>
    cases o with
    | read => exact ⟨⟨rfl, rfl, fun r h => (Except.ok.inj h).symm⟩, hs⟩
    | write next => exact ⟨⟨rfl, rfl⟩, hs⟩
    | lease op =>
      cases op with
      | usageWithReservation =>
        refine ⟨⟨rfl, ⟨rfl, ?_⟩, rfl⟩, hs⟩
        intro usage h
        cases h
        rfl
      | transition input => exact ⟨⟨rfl, writeExec_own hs, rfl⟩, withRow_id hs⟩
      | reserve input => exact ⟨⟨rfl, writeExec_own hs, rfl⟩, withRow_id hs⟩
      | cancel input =>
        let write := fun bucket : Bucket hashes.toLedgerHash => cancelUnsubmittedReservation key.identity bucket input
        have hwrite : writeExec key s.core.row write (ownWrite key s.core.row write).1 (ownWrite key s.core.row write).2 :=
          writeExec_own hs
        exact ⟨⟨rfl, hwrite, rfl⟩, withRow_id hs⟩
    | now => exact ⟨⟨rfl, le_max_left _ _, rfl⟩, hs⟩
    | ask q => cases q <;> exact ⟨⟨rfl, rfl⟩, hs⟩
    | receive what => cases what <;> exact ⟨⟨rfl, rfl⟩, hs⟩

abbrev Turns := List (System.Turn (Guarded.Op Permit2Op) (Guarded.Op.Answer (Permit2Op.Answer hashes)) ApnError ℕ)

def start : Permit2Config hashes ℕ := System.idle ⟨Permit2State.prepared prepared (second 0), none⟩

def reached (head : Permit2ObservedBlock) (turns : Turns) : Permit2Config hashes ℕ :=
  turns.foldl (takeTurn (answer head)) start

def calls (p n : ℕ) (call : Permit2Call) : Turns := [.begins p call.program, .goesOn p n]

/-- A payment that two processes try to expose and two to send, up to its settlement. -/
def paid : Turns :=
  calls 1 200 .reserve ++ calls 2 200 (.markApprovedSignatureRisk approval) ++
    calls 3 200 (.markApprovedSignatureRisk approval) ++ calls 4 200 (.storeSigned bundle) ++
    calls 5 200 (.markFirstRequest signedOrigin) ++ calls 6 200 (.markFirstRequest signedOrigin) ++
    calls 7 200 (.observe .settlement none)

theorem run_reached (head : Permit2ObservedBlock) (turns : Turns)
    (hcalls : ∀ p prog, .begins p prog ∈ turns → ∃ call : Permit2Call, prog = call.program) :
    ∃ labels, Runs.Run (Permit2Step hashes ℕ anyAddress prepared) start labels (reached head turns) :=
  run_turns_kept (answer_allowed head) turns hcalls start fun _ h => (nomatch h)

theorem calls_begin {n m : ℕ} {call : Permit2Call} {p : ℕ} {prog : Permit2Prog hashes Unit}
    (h : .begins p prog ∈ calls n m call) : prog = call.program := by
  simp only [calls, List.mem_cons, Turn.begins.injEq, List.not_mem_nil, reduceCtorEq, or_false] at h
  exact h.2

def block5 : Permit2ObservedBlock := ⟨5, "0x" ++ digest, 50⟩

end Permit2Runs

open Permit2Runs in
/-- Two processes try to expose it and two to send it: one is handed the continuation and one the request, and the
settlement finalizes the hold. -/
theorem permit2_paid_once :
    PermitSafe (reached block5 paid).shared.core ∧
      ((reached block5 paid).shared.core.signings, (reached block5 paid).shared.core.firsts,
        (reached block5 paid).shared.core.row.map (·.state)) = (1, 1, some .finalized) := by
  have hcalls : ∀ p prog, .begins p prog ∈ paid → ∃ call : Permit2Call, prog = call.program := by
    intro p prog h
    simp only [paid, List.mem_append] at h
    rcases h with (((((h | h) | h) | h) | h) | h) | h <;> exact ⟨_, calls_begin h⟩
  rcases run_reached block5 paid hcalls with ⟨labels, hrun⟩
  refine ⟨?_, by decide +kernel⟩
  exact permit2_exposed_once_and_released_on_proof hashes_apart (by decide +kernel) rfl (le_refl _) hrun

end PaymentNode.Permit2
