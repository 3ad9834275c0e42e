import PaymentNode.Lib.Chain
import PaymentNode.X402.Sends

/-!
# Truth — the terminal outcomes against the chain

The world is the chain of the payment token: the included authorization uses its nonce, once, in time.  What a
tag reports is final, and a nonce read is truthful for one block of its tag.  Evidence is written from such a
read, no later record drops it, and a record that ends rests on it.
-/

namespace PaymentNode

open Trace

/-- The last second in which the authorization can be included. -/
def X402Frozen.executableAt (f : X402Frozen) (timestamp : ℕ) : Prop :=
  match f.method with
  | .permit2 => timestamp ≤ f.validBefore
  | _ => timestamp < f.validBefore

theorem X402Frozen.executableAt.mono {f : X402Frozen} {timestamp earlier : ℕ}
    (h : f.executableAt timestamp) (hle : earlier ≤ timestamp) : f.executableAt earlier := by
  unfold X402Frozen.executableAt at h ⊢
  cases hmethod : f.method <;> simp only [hmethod] at h ⊢ <;> omega

/-- Block timestamps never decrease, and the authorization is included once, in time. -/
structure X402Chain {τ : Type} [DecidableEq τ] (f : X402Frozen) (authorization : τ)
    (c : List (Chain.Block τ)) : Prop where
  timed : Chain.Timed c
  once : (Chain.included c).count authorization ≤ 1
  inTime : ∀ b ∈ c, authorization ∈ b.transactions → f.executableAt b.timestamp

/-- The chain, and how much of it each tag reports. -/
structure X402World (τ : Type) [DecidableEq τ] (f : X402Frozen) (authorization : τ) where
  head : List (Chain.Block τ)
  safe : List (Chain.Block τ)
  finalized : List (Chain.Block τ)
  chain : X402Chain f authorization head
  safe_head : safe <:+ head
  finalized_safe : finalized <:+ safe

namespace X402World

variable {τ : Type} [DecidableEq τ] {f : X402Frozen} {authorization : τ}

def reported (w : X402World τ f authorization) : ProofTag → List (Chain.Block τ)
  | .safe => w.safe
  | .finalized => w.finalized

/-- The finalized blocks and the blocks of the operation's proof tag stay. -/
def moves (w w' : X402World τ f authorization) : Prop :=
  w.finalized <:+ w'.finalized ∧ w.reported f.proofTag <:+ w'.reported f.proofTag

/-- The read is truthful for one block of its tag. -/
def Shows (w : X402World τ f authorization) (blockHash : List (Chain.Block τ) → String)
    (read : NonceRead) : Prop :=
  ∃ b below, b :: below <:+ w.reported read.blockTag ∧ read.timestamp = b.timestamp ∧
    read.block = ⟨Chain.height (b :: below), blockHash (b :: below)⟩ ∧
    (read.value = true ↔ authorization ∈ Chain.included (b :: below))

/-- Every nonce read is truthful; everything else is answered in any way. -/
def rules (f : X402Frozen) (authorization : τ) (blockHash : List (Chain.Block τ) → String) :
    Rules (X402World τ f authorization) X402Event where
  moves := moves
  allows := fun w _ e => match e with
    | .nonceRead _ read => w.Shows blockHash read
    | _ => True

/-- The reads of the tags that prove stay true. -/
def Remembers (blockHash : List (Chain.Block τ) → String) (w : X402World τ f authorization)
    (log : List X402Event) : Prop :=
  ∀ tag read, .nonceRead tag read ∈ log → read.blockTag = .finalized ∨ read.blockTag = f.proofTag →
    w.Shows blockHash read

variable {blockHash : List (Chain.Block τ) → String} {w w' : X402World τ f authorization}

theorem moves_refl : moves w w := ⟨List.suffix_refl _, List.suffix_refl _⟩

theorem Shows.of_moves {read : NonceRead} (hmoves : moves w w')
    (htag : read.blockTag = .finalized ∨ read.blockTag = f.proofTag) (h : w.Shows blockHash read) :
    w'.Shows blockHash read := by
  rcases h with ⟨b, below, hsuffix, hread⟩
  have hstays : w.reported read.blockTag <:+ w'.reported read.blockTag := by
    rcases htag with htag | htag <;> rw [htag]
    · exact hmoves.1
    · exact hmoves.2
  exact ⟨b, below, hsuffix.trans hstays, hread⟩

theorem reported_head {tag : ProofTag} : w.reported tag <:+ w.head := by
  cases tag with
  | safe => exact w.safe_head
  | finalized => exact w.finalized_safe.trans w.safe_head

-- A block past the last second has the authorization below it or nothing has it above.
theorem not_included_of_expired {c : List (Chain.Block τ)} {b : Chain.Block τ}
    {below : List (Chain.Block τ)} (hchain : X402Chain f authorization c) (hbelow : b :: below <:+ c)
    (hexpired : ¬ f.executableAt b.timestamp) (hnone : authorization ∉ Chain.included (b :: below)) :
    authorization ∉ Chain.included c := by
  intro hincluded
  rcases hbelow with ⟨above, rfl⟩
  rw [Chain.included_append, List.mem_append] at hincluded
  rcases hincluded with habove | hbelow
  · rcases Chain.exists_block habove with ⟨b', below', hsuffix, htx⟩
    have hmem : b' ∈ above := hsuffix.mem List.mem_cons_self
    have hlate := hchain.timed.le_of_above hmem
    have hintime := hchain.inTime b' (List.mem_append_left _ hmem) htx
    exact hexpired (hintime.mono hlate)
  · exact hnone hbelow

end X402World

namespace X402

variable {headerHash : String → String} {o next : X402Operation} {log : List X402Event}

theorem expired_iff {f : X402Frozen} {timestamp : ℕ} :
    x402ExpiredAt f.method timestamp f.validBefore = true ↔ ¬ f.executableAt timestamp := by
  unfold x402ExpiredAt X402Frozen.executableAt
  cases f.method <;> simp

theorem effect_suffix {op : X402Op} {answer : op.Answer} {log' : List X402Event}
    (h : effect headerHash log op answer log') : log <:+ log' := by
  have hwrote : ∀ {answer : Except X402Failure Unit} {allowed : Prop} {e : X402Event},
      wrote answer allowed log e log' → log <:+ log' := by
    intro answer allowed e h
    rcases h with ⟨_, rfl⟩ | ⟨_, rfl, _⟩
    · exact List.suffix_refl _
    · exact List.suffix_cons _ _
  have hsame : log' = log → log <:+ log' := by
    rintro rfl
    exact List.suffix_refl _
  have hone : ∀ e : X402Event, log' = e :: log → log <:+ log' := by
    rintro e rfl
    exact List.suffix_cons _ _
  cases op with
  | lock =>
    rcases h with ⟨_, h⟩ | ⟨_, h⟩
    · exact hone _ h
    · exact hsame h
  | required | load | loadResult | loadRecoveryResult | loadRecoveryReceipt | ask => exact hsame h.1
  | assertChain => exact hsame h
  | writeOperation next =>
    rcases h with h | ⟨_, h, _⟩
    · exact hwrote h
    · exact hone _ h
  | writeResult | writeReceipt => exact hwrote h
  | now => exact hone _ h
  | sendPaid purpose header =>
    change Option PaidResponse at answer
    cases answer with
    | none => exact hone _ h
    | some raw =>
      have heq : log' = .answered purpose raw :: .sent purpose header :: log := h
      rw [heq]
      exact (List.suffix_cons _ _).trans (List.suffix_cons _ _)
  | nonceState tag =>
    change Except X402Failure NonceRead at answer
    cases answer with
    | ok read => exact hone _ h
    | error e => exact hsame h
  | rpcReceipt hash =>
    change Except X402Failure (Option X402RpcReceipt) at answer
    rcases answer with e | _ | receipt
    · exact hsame h
    · exact hsame h
    · exact hone _ h

/-! ## Evidence comes from a read -/

theorem current_subset {e : X402Event} (h : e ∈ current log) : e ∈ log := by
  induction log with
  | nil => cases h
  | cons e' log ih =>
    cases e' with
    | stored next => cases h
    | began | clock | refused | resultStored | receiptStored | nonceRead | receiptRead | sent
    | answered =>
      rcases List.mem_cons.mp h with rfl | h
      · exact List.mem_cons_self
      · exact List.mem_cons_of_mem _ (ih h)

theorem writes_settlement (hmethod : o.frozen.method ≠ .erc7710) (h : Writes log o next) :
    next.settlementEvidence = o.settlementEvidence ∨ ∃ e, ProvesUsed log o e := by
  cases h with
  | proves _ e _ _ _ _ hproves => exact .inr ⟨e, hproves⟩
  | delegated _ _ _ hm => exact absurd hm hmethod
  | contradicts =>
    left
    split <;> rfl
  | approves | retries | authorizes | begins | interrupts | observes | undelivered | settlesAttempt
  | links | expires | recovers | ends => exact .inl rfl

theorem writes_unused (hmethod : o.frozen.method ≠ .erc7710) (h : Writes log o next) :
    next.unusedExpiryEvidence = o.unusedExpiryEvidence ∨ ∃ e, ProvesUnused log o e := by
  cases h with
  | expires _ e _ _ _ hproves => exact .inr ⟨e, hproves⟩
  | delegated _ _ _ hm => exact absurd hm hmethod
  | contradicts =>
    left
    split <;> rfl
  | approves | retries | authorizes | begins | interrupts | observes | undelivered | settlesAttempt
  | links | proves | recovers | ends => exact .inl rfl

/-- The nonce was read used at the proof tag. -/
def ReadUsed (log : List X402Event) (f : X402Frozen) : Prop :=
  ∃ read, .nonceRead f.proofTag read ∈ log ∧ read.value = true ∧ read.blockTag = f.proofTag

/-- The nonce was read unused at a finalized block past the last second. -/
def ReadExpired (log : List X402Event) (f : X402Frozen) : Prop :=
  ∃ read, .nonceRead .finalized read ∈ log ∧ read.value = false ∧ read.blockTag = .finalized ∧
    x402ExpiredAt f.method read.timestamp f.validBefore = true

/-- The evidence of a record was read. -/
structure Grounded (log : List X402Event) (o : X402Operation) : Prop where
  settlement : o.settlementEvidence.isSome = true → ReadUsed log o.frozen
  unused : o.unusedExpiryEvidence.isSome = true → ReadExpired log o.frozen

theorem Grounded.later {e : X402Event} (h : Grounded log o) : Grounded (e :: log) o := by
  constructor
  · intro hsome
    rcases h.settlement hsome with ⟨read, hmem, hread⟩
    exact ⟨read, List.mem_cons_of_mem _ hmem, hread⟩
  · intro hsome
    rcases h.unused hsome with ⟨read, hmem, hread⟩
    exact ⟨read, List.mem_cons_of_mem _ hmem, hread⟩

-- A write adds evidence only after its read.
theorem grounded_writes (hmethod : o.frozen.method ≠ .erc7710) (hfrozen : o.frozen = next.frozen)
    (h : Grounded log o) (hwrites : Writes log o next) : Grounded log next := by
  constructor
  · intro hsome
    rw [← hfrozen]
    rcases writes_settlement hmethod hwrites with hsame | ⟨e, _, _, _, ⟨read, hmem, hvalue, htag, _⟩, _⟩
    · rw [hsame] at hsome
      exact h.settlement hsome
    · exact ⟨read, current_subset hmem, hvalue, htag⟩
  · intro hsome
    rw [← hfrozen]
    rcases writes_unused hmethod hwrites with
      hsame | ⟨e, _, _, hexpired, read, hmem, hvalue, htag, _, htime⟩
    · rw [hsame] at hsome
      exact h.unused hsome
    · exact ⟨read, current_subset hmem, hvalue, htag, by rw [htime]; exact hexpired⟩

theorem record_grounded (hlog : LawfulLog (Lawful headerHash) log) (h : record log = some o)
    (hmethod : o.frozen.method ≠ .erc7710) : Grounded log o := by
  induction log generalizing o with
  | nil => cases h
  | cons e log ih =>
    cases e with
    | stored next =>
      cases h
      rcases hlog with ⟨⟨hacc, hover⟩, hlog⟩
      apply Grounded.later
      unfold WrittenOver at hover
      cases hrecord : record log with
      | none =>
        rw [hrecord] at hover
        constructor
        · intro hsome
          rw [hover.settlementEvidence] at hsome
          cases hsome
        · intro hsome
          rw [hover.unusedExpiryEvidence] at hsome
          cases hsome
      | some p =>
        rw [hrecord] at hover
        have hfrozen : p.frozen = o.frozen := ((accepted_iff.mp hacc).2.1 p hrecord).frozen
        rw [← hfrozen] at hmethod
        exact grounded_writes hmethod hfrozen (ih hlog hrecord hmethod) hover.2
    | began | clock | refused | resultStored | receiptStored | nonceRead | receiptRead | sent
    | answered => exact (ih hlog.2 h hmethod).later

/-! ## What an ended record rests on -/

theorem settled_of_state (hvalid : Valid o) (h : o.state = .completed ∨
    o.state = .failedSettledWithoutResult ∨ o.state = .sellerResultRecoveryPending) :
    o.settlementEvidence.isSome = true := by
  have hfault := hvalid.summary.fault
  unfold summaryFault at hfault
  by_contra hnone
  rw [Bool.not_eq_true, Option.isSome_eq_false_iff] at hnone
  rcases h with h | h | h <;> simp [h, hnone] at hfault

theorem unused_of_state (hvalid : Valid o) (h : o.state = .failedExpiredUnused) :
    o.unusedExpiryEvidence.isSome = true := by
  have hfault := hvalid.summary.fault
  unfold summaryFault at hfault
  by_contra hnone
  rw [Bool.not_eq_true, Option.isSome_eq_false_iff] at hnone
  simp [h, hnone] at hfault

section World

variable {τ : Type} [DecidableEq τ] {f : X402Frozen} {authorization : τ}
  {blockHash : List (Chain.Block τ) → String} {w : X402World τ f authorization}

theorem included_of_used (hremembers : w.Remembers blockHash log) (h : ReadUsed log f) :
    authorization ∈ Chain.included (w.reported f.proofTag) := by
  rcases h with ⟨read, hmem, hvalue, htag⟩
  rcases hremembers _ read hmem (.inr htag) with ⟨b, below, hsuffix, _, _, hincluded⟩
  rw [htag] at hsuffix
  exact Chain.mem_included_of_suffix hsuffix (hincluded.mp hvalue)

theorem never_included_of_expired (hremembers : w.Remembers blockHash log) (h : ReadExpired log f)
    {c : List (Chain.Block τ)} (hchain : X402Chain f authorization c) (hextends : w.finalized <:+ c) :
    authorization ∉ Chain.included c := by
  rcases h with ⟨read, hmem, hvalue, htag, hexpired⟩
  rcases hremembers _ read hmem (.inl htag) with ⟨b, below, hsuffix, htime, _, hincluded⟩
  rw [htag] at hsuffix
  apply X402World.not_included_of_expired hchain (hsuffix.trans hextends)
  · rw [← htime]
    exact expired_iff.mp hexpired
  · rw [← hincluded, hvalue]
    exact Bool.false_ne_true

theorem remembers_run {labels : List (System.Label X402Op X402Op.Answer X402Failure Unit)}
    {c : System.Config X402Op X402Op.Answer X402Failure (Shared (X402World τ f authorization) X402Event)
      Unit}
    (hrun : Runs.Run (X402Step (X402World.rules f authorization blockHash) headerHash)
      (System.idle ⟨w, []⟩) labels c) : c.shared.world.Remembers blockHash c.shared.log := by
  apply world_of_run (I := X402World.Remembers blockHash) _ _ (fun _ _ _ _ h => effect_suffix h) _ hrun
  · intro w w' log hmoves h tag read hmem htag
    exact (h tag read hmem htag).of_moves hmoves htag
  · intro w log e hallows h tag read hmem htag
    rcases List.mem_cons.mp hmem with rfl | hmem
    · exact hallows
    · exact h tag read hmem htag
  · exact fun _ _ h => nomatch h

end World
end X402

/-- **The terminal outcomes are true on chain**: an authorization that expired unused is in no chain that
extends the finalized one, and one that was settled is in the chain that its proof tag reports. -/
theorem x402_outcome_true {τ : Type} [DecidableEq τ] {f : X402Frozen} {authorization : τ}
    {blockHash : List (Chain.Block τ) → String} {headerHash : String → String}
    {w : X402World τ f authorization}
    {labels : List (System.Label X402Op X402Op.Answer X402Failure Unit)}
    {c : System.Config X402Op X402Op.Answer X402Failure (Shared (X402World τ f authorization) X402Event)
      Unit}
    (hrun : Runs.Run (X402Step (X402World.rules f authorization blockHash) headerHash)
      (System.idle ⟨w, []⟩) labels c)
    (hmethod : f.method ≠ .erc7710) {o : X402Operation} (hrecord : X402.record c.shared.log = some o)
    (hfrozen : o.frozen = f) :
    (o.state = .failedExpiredUnused → ∀ chain, X402Chain f authorization chain →
        c.shared.world.finalized <:+ chain → authorization ∉ Chain.included chain) ∧
      (o.state = .completed ∨ o.state = .failedSettledWithoutResult ∨
          o.state = .sellerResultRecoveryPending →
        authorization ∈ Chain.included (c.shared.world.reported f.proofTag)) := by
  have hlog := X402.lawful_run hrun
  have hremembers := X402.remembers_run hrun
  have hvalid := X402.record_valid hlog hrecord
  subst hfrozen
  have hgrounded := X402.record_grounded hlog hrecord hmethod
  constructor
  · intro hstate chain hchain hextends
    exact X402.never_included_of_expired hremembers
      (hgrounded.unused (X402.unused_of_state hvalid hstate)) hchain hextends
  · intro hstate
    exact X402.included_of_used hremembers (hgrounded.settlement (X402.settled_of_state hvalid hstate))

/-! ## Concrete runs -/

namespace X402Runs

open X402

/-- A payment from block 1, with the proof tag `safe`. -/
def early : X402Frozen := { frozen with preparedBlock := ⟨1, "0x01"⟩ }

/-- The nonce as the last reported block has it. -/
def nonceRead (w : X402World Bool early true) (tag : ProofTag) : Except X402Failure NonceRead :=
  match w.reported tag with
  | [] => .error .rpcAmbiguous
  | b :: below => .ok ⟨true ∈ Chain.included (b :: below), ⟨Chain.height (b :: below), "0x14"⟩,
      b.timestamp, tag, ""⟩

theorem nonceRead_shows {w : X402World Bool early true} {tag : ProofTag} {read : NonceRead}
    (h : nonceRead w tag = .ok read) : w.Shows (fun _ => "0x14") read := by
  unfold nonceRead at h
  split at h
  · cases h
  · rename_i b below hreported
    cases h
    exact ⟨b, below, by rw [hreported], rfl, rfl, by simp⟩

/-- The seller never answers, and the chain answers as it is. -/
def truthful (at' : ℤ) : Script (X402World Bool early true) :=
  ⟨at', fun _ => none, nonceRead, fun _ => .ok none, agrees⟩

theorem allowed_self {W : Type} {rules : Rules W X402Event} {w : W} {log : List X402Event} :
    Allowed rules w log log := by
  cases log with
  | nil => trivial
  | cons e log => exact .inl rfl

theorem truthful_allowed {at' : ℤ} (w : X402World Bool early true) (log : List X402Event) (o : X402Op) :
    Allowed (X402World.rules early true fun _ => "0x14") w log ((truthful at').play w log o).2 := by
  have hmade : ∀ (allowed : Prop) [Decidable allowed] (e : X402Event), (∀ tag read, e ≠ .nonceRead tag read) →
      Allowed (X402World.rules early true fun _ => "0x14") w log (made allowed log e).2 := by
    intro allowed _ e he
    unfold made
    split
    · refine .inr ⟨?_, allowed_self⟩
      cases e <;> first | trivial | exact absurd rfl (he _ _)
    · exact allowed_self
  cases o with
  | lock | now => exact .inr ⟨trivial, allowed_self⟩
  | required | load | loadResult | loadRecoveryResult | loadRecoveryReceipt | assertChain | rpcReceipt | ask =>
    exact allowed_self
  | writeOperation next =>
    show Allowed _ w log (written log next).2
    unfold written
    split <;> exact .inr ⟨trivial, allowed_self⟩
  | writeResult | writeReceipt => exact hmade _ _ fun _ _ h => nomatch h
  | sendPaid => exact .inr ⟨trivial, allowed_self⟩
  | nonceState tag =>
    show Allowed _ w log (nonceEvents tag log (nonceRead w tag))
    cases hread : nonceRead w tag with
    | error e => exact allowed_self
    | ok read => exact .inr ⟨nonceRead_shows hread, allowed_self⟩

/-- Prepared and approved in time, and resumed at this time. -/
def resumedAt (later : ℤ) : List (Script (X402World Bool early true) × X402Prog Unit × ℕ) :=
  [(truthful 0, prepare (prepared early), 100), (truthful 0, approve, 100),
    (truthful later, resume false, 100)]

/-- Without the authorization, past its last second. -/
def expired : X402World Bool early true where
  head := [⟨1000, [], 0⟩, ⟨400, [], 0⟩]
  safe := [⟨1000, [], 0⟩, ⟨400, [], 0⟩]
  finalized := [⟨1000, [], 0⟩, ⟨400, [], 0⟩]
  chain := ⟨by simp [Chain.Timed], by decide, by simp [X402Frozen.executableAt, early, frozen]⟩
  safe_head := List.suffix_refl _
  finalized_safe := List.suffix_refl _

/-- With the authorization in a safe block. -/
def settled : X402World Bool early true where
  head := [⟨500, [true], 0⟩, ⟨400, [], 0⟩]
  safe := [⟨500, [true], 0⟩, ⟨400, [], 0⟩]
  finalized := [⟨400, [], 0⟩]
  chain := ⟨by simp [Chain.Timed], by decide, by simp [X402Frozen.executableAt, early, frozen]⟩
  safe_head := List.suffix_refl _
  finalized_safe := List.suffix_cons _ _

theorem early_fresh : (prepared early).Fresh :=
  ⟨rfl, rfl, rfl, rfl, rfl, rfl, rfl, rfl, rfl, rfl, rfl, by decide, by decide, by decide⟩

theorem run_truthful (w : X402World Bool early true) (later : ℤ) : ∃ labels,
    Runs.Run (X402Step (X402World.rules early true fun _ => "0x14") fun header => header)
      (System.idle ⟨w, []⟩) labels (System.idle (after w (resumedAt later))) := by
  apply run_after fun _ => X402World.moves_refl
  · intro c hc
    simp only [resumedAt, List.mem_cons, List.not_mem_nil, or_false] at hc
    rcases hc with rfl | rfl | rfl
    · exact X402Call.prepare _ early_fresh
    · exact X402Call.approve
    · exact X402Call.resume false
  · intro c hc
    simp only [resumedAt, List.mem_cons, List.not_mem_nil, or_false] at hc
    rcases hc with rfl | rfl | rfl <;> exact agrees_asks
  · intro c hc
    simp only [resumedAt, List.mem_cons, List.not_mem_nil, or_false] at hc
    rcases hc with rfl | rfl | rfl <;> exact truthful_allowed

def reached (w : X402World Bool early true) (later : ℤ) : Shared (X402World Bool early true) X402Event :=
  after w (resumedAt later)

/-- One authorization that expired unused, and one that was settled. -/
theorem x402_outcome_true_of_resumed :
    (∃ o, record (reached expired 1000000).log = some o ∧ o.state = .failedExpiredUnused ∧
        true ∉ Chain.included (reached expired 1000000).world.head) ∧
      ∃ o, record (reached settled 0).log = some o ∧ o.state = .failedSettledWithoutResult ∧
        true ∈ Chain.included ((reached settled 0).world.reported early.proofTag) := by
  constructor
  · rcases run_truthful expired 1000000 with ⟨labels, hrun⟩
    have hrecord : (record (reached expired 1000000).log).isSome = true := by decide +kernel
    rcases Option.isSome_iff_exists.mp hrecord with ⟨o, ho⟩
    have hstate : (record (reached expired 1000000).log).all (fun o =>
        o.state = .failedExpiredUnused ∧ o.frozen = early) = true := by decide +kernel
    rw [ho] at hstate
    simp only [Option.all_some, decide_eq_true_eq] at hstate
    have htrue := x402_outcome_true hrun (by decide) ho hstate.2
    have hextends : (reached expired 1000000).world.finalized <:+ (reached expired 1000000).world.head :=
      @X402World.reported_head _ _ _ _ _ .finalized
    exact ⟨o, ho, hstate.1, htrue.1 hstate.1 _ (reached expired 1000000).world.chain hextends⟩
  · rcases run_truthful settled 0 with ⟨labels, hrun⟩
    have hrecord : (record (reached settled 0).log).isSome = true := by decide +kernel
    rcases Option.isSome_iff_exists.mp hrecord with ⟨o, ho⟩
    have hstate : (record (reached settled 0).log).all (fun o =>
        o.state = .failedSettledWithoutResult ∧ o.frozen = early) = true := by decide +kernel
    rw [ho] at hstate
    simp only [Option.all_some, decide_eq_true_eq] at hstate
    have htrue := x402_outcome_true hrun (by decide) ho hstate.2
    exact ⟨o, ho, hstate.1, htrue.2 (.inr (.inl hstate.1))⟩

end X402Runs

end PaymentNode
