import PaymentNode.Ledger.Moves
import PaymentNode.Lib.Runs
import PaymentNode.Rail.State

/-!
# UsageFollow — the usage ledger simulates the direct-rail journal

The journal and the ledger are written in separate transactions, so a crash can leave the ledger any number
of transitions behind.  `followPlan` is the decision of `DirectAllowlistGate.follow` and the step relation
runs its ledger moves one by one, with crashes, other operations' ledger writes and arbitrary clocks in
between.  `lags` is the simulation relation: the ledger states a journal state can have been left with.
Every edge of the journal keeps it, and from every related pair the plan is a legal sequence of ledger moves
to the journal's own target.
-/

namespace PaymentNode

variable {H : LedgerHash}

/-- The reservation key is derived from the operation, so a replayed approval can never reserve twice. -/
def directUsageKey (operationId : String) : String := "apn.direct-usage:" ++ operationId

/-- A direct transfer as the gate sees it. -/
structure DirectAllowlistSubject where
  identity : AssetUsageIdentity
  operationId : String
  amountAtomic : ℕ
deriving DecidableEq, Repr

def DirectAllowlistSubject.reservationId (H : LedgerHash) (subject : DirectAllowlistSubject) : String :=
  H.reservationIdFor subject.identity (H.idempotency (directUsageKey subject.operationId))

/-- The operation's own row. -/
def DirectAllowlistSubject.existing (subject : DirectAllowlistSubject) (bucket : Bucket H) :
    Option (Reservation H) :=
  bucket.find? (subject.reservationId H)

/-- What one `reserve` call reads besides the ledger: the active owner policy and its own checks of it. -/
structure GateReserveInput where
  addresses : Addresses
  registry : AssetPolicyRegistry
  policyCheck : Result Unit
  now : Instant

/-- Approval, before any signature: a reservation left by an interrupted approval is replayed. -/
def gateReserve (subject : DirectAllowlistSubject) (bucket : Bucket H) (input : GateReserveInput) :
    Result (Reservation H × Bucket H) := do
  input.policyCheck
  if (subject.existing bucket).any fun r => r.state ≠ .reserved then
    blocked "The direct usage reservation already crossed a durable transition."
  else do
    let (r, next) ← reserveBound input.addresses subject.identity bucket
      { registry := input.registry, rail := .direct, mechanism := none,
        amountAtomic := subject.amountAtomic, idempotencyKey := directUsageKey subject.operationId,
        now := input.now, retryFailedBeforeEffect := false } none
    if r.state ≠ .reserved then
      blocked "The direct usage reservation already crossed a durable transition."
    else return (r, next)

def AssetUsageState.directTerminal : AssetUsageState → Bool
  | .finalized | .failedBeforeEffect | .failedConfirmedRevert => true
  | _ => false

/-- The moves from a row that is neither at the target nor at another outcome. -/
def followMoves (current : AssetUsageState) : DirectUsageTarget → Result (List AssetUsageState)
  | .submitted => .ok (if current = .reserved then [.submitted] else [])
  | .unknownFinality => .ok [.unknownFinality]
  | .failedBeforeEffect =>
    if current ≠ .reserved then
      corrupt "A direct usage reservation past the effect boundary cannot be released before effect."
    else .ok [.failedBeforeEffect]
  | .failedConfirmedRevert =>
    .ok (if current = .reserved then [.submitted, .failedConfirmedRevert] else [.failedConfirmedRevert])
  | target => .ok [target.state]

/-- The ledger moves `follow` makes from the row it loaded. -/
def followPlan (current : Option AssetUsageState) (target : DirectUsageTarget) :
    Result (List AssetUsageState) :=
  if target = .reserved then .ok []
  else
    match current with
    | none =>
      if target = .failedBeforeEffect then .ok []
      else corrupt "The operation journal names a direct usage reservation that the ledger does not hold."
    | some current =>
      if current = target.state then .ok []
      else if current.directTerminal then
        corrupt "The direct usage reservation reached a different terminal state than its operation."
      else followMoves current target

/-- A `follow` call: not running, about to make the listed moves of the row it loaded, or completed. -/
inductive FollowStatus (H : LedgerHash)
  | idle
  | moving (loaded : Reservation H) (moves : List AssetUsageState)
  | done

def FollowStatus.isMoving : FollowStatus H → Bool
  | .moving _ _ => true
  | .idle | .done => false

/-- One rail operation, its bucket, and the call in progress under its locks.  `past` are the journal's
earlier states, `leased` says that a `reserve` of this operation has answered, and `fault` is the first
error a `follow` threw. -/
structure FollowSystem (H : LedgerHash) where
  journal : RailState
  past : List RailState
  leased : Bool
  bucket : Bucket H
  follow : FollowStatus H
  fault : Option ApnError

inductive FollowLabel (H : LedgerHash)
  | journal (next : RailState)
  | reserve (input : GateReserveInput) (crashed : Bool)
  | begin
  | move (now : Instant) (outcomeDigest : String)
  | crash
  | other (bucket : Bucket H)

/-- The row, policy digest and outcome `follow` names for one move: those of the row it loaded. -/
def FollowSystem.afterMove (s : FollowSystem H) (subject : DirectAllowlistSubject)
    (loaded : Reservation H) (target : AssetUsageState) (rest : List AssetUsageState) (now : Instant)
    (outcomeDigest : String) : FollowSystem H :=
  match transition subject.identity s.bucket
      (plainMove loaded.toReservationBody target now outcomeDigest) with
  | .error e => { s with follow := .idle, fault := some e }
  | .ok (_, bucket) =>
    { s with bucket := bucket, follow := if rest = [] then .done else .moving loaded rest }

def FollowSystem.afterBegin (s : FollowSystem H) (subject : DirectAllowlistSubject) : FollowSystem H :=
  let current := subject.existing s.bucket
  match followPlan (current.map fun r => r.state) (railUsageTarget s.journal), current with
  | .error e, _ => { s with fault := some e }
  | .ok (move :: moves), some loaded => { s with follow := .moving loaded (move :: moves) }
  | .ok _, _ => { s with follow := .done }

def FollowSystem.afterReserve (s : FollowSystem H) (subject : DirectAllowlistSubject)
    (input : GateReserveInput) (crashed : Bool) : FollowSystem H :=
  match gateReserve subject s.bucket input with
  | .error _ => { s with follow := .idle }
  | .ok (_, bucket) => { s with bucket := bucket, leased := s.leased || !crashed, follow := .idle }

/-- One step under the operation's locks: a journal transition never falls inside a `follow`. -/
inductive FollowStep (subject : DirectAllowlistSubject) :
    FollowSystem H → FollowLabel H → FollowSystem H → Prop
  | journal (s : FollowSystem H) (next : RailState) :
      ¬ s.follow.isMoving → next ∈ s.journal.edges →
      (s.journal = .awaitingApproval → next.needsLease → s.leased) →
      FollowStep subject s (.journal next)
        { s with journal := next, past := s.journal :: s.past, follow := .idle }
  | reserve (s : FollowSystem H) (input : GateReserveInput) (crashed : Bool) :
      ¬ s.follow.isMoving → s.journal = .awaitingApproval →
      FollowStep subject s (.reserve input crashed) (s.afterReserve subject input crashed)
  | begin (s : FollowSystem H) :
      ¬ s.follow.isMoving →
      FollowStep subject s .begin (s.afterBegin subject)
  | move (s : FollowSystem H) (loaded : Reservation H) (target : AssetUsageState)
      (rest : List AssetUsageState) (now : Instant) (outcomeDigest : String) :
      s.follow = .moving loaded (target :: rest) →
      FollowStep subject s (.move now outcomeDigest)
        (s.afterMove subject loaded target rest now outcomeDigest)
  | crash (s : FollowSystem H) :
      FollowStep subject s .crash { s with follow := .idle }
  | other (s : FollowSystem H) (bucket : Bucket H) :
      -- Every other owner writes rows under keys of its own.
      subject.existing bucket = subject.existing s.bucket →
      FollowStep subject s (.other bucket) { s with bucket := bucket }

/-! ## The simulation relation -/

/-- The ledger states a journal state can have been left with. -/
def lags (journal : RailState) : AssetUsageState → Bool
  | .reserved => true
  | .submitted => journal.crossed
  | .unknownFinality =>
    journal = .unknownFinality || journal = .abandonedUnknown || journal = .completed ||
      journal = .failedConfirmedRevert
  | .finalized => journal = .completed
  | .failedBeforeEffect => journal = .failedBeforeEffect
  | .failedConfirmedRevert => journal = .failedConfirmedRevert
  | .releasedUnsubmitted => false

/-- A legal sequence of ledger moves. -/
def movesTo (source : AssetUsageState) : List AssetUsageState → AssetUsageState → Prop
  | [], target => source = target
  | move :: moves, target => move ∈ allowedTransitions source ∧ movesTo move moves target

theorem lags_of_edge {s t : RailState} {row : AssetUsageState} (h : lags s row) (hedge : t ∈ s.edges) :
    lags t row := by
  revert h hedge
  cases s <;> cases t <;> cases row <;> decide

/-- **Every lag has a legal way forward.**  From each ledger state a crash can have left behind, the plan
exists, its moves are legal up to the journal's target, and each of them is again a lag of the journal. -/
theorem followPlan_legal {journal : RailState} {row : AssetUsageState} (h : lags journal row) :
    ∃ moves, followPlan (some row) (railUsageTarget journal) = .ok moves ∧
      (railUsageTarget journal ≠ .reserved →
        movesTo row moves (railUsageTarget journal).state) ∧
      ∀ move ∈ moves, lags journal move := by
  cases journal <;> cases row <;>
    first
    | exact absurd h (by decide)
    | exact ⟨_, rfl, by simp [movesTo, railUsageTarget, DirectUsageTarget.state, allowedTransitions],
        by decide⟩

/-- The invariant of a run.  `moving` says that the rest of a call's plan still fits the row as it is. -/
structure FollowInv (subject : DirectAllowlistSubject) (s : FollowSystem H) : Prop where
  noFault : s.fault = none
  absent : subject.existing s.bucket = none →
    (s.journal = .awaitingApproval ∨ s.journal = .failedBeforeEffect) ∧ s.leased = false
  row : ∀ r, subject.existing s.bucket = some r →
    PlainHold subject.identity r.toReservationBody ∧ lags s.journal r.state
  moving : ∀ loaded moves, s.follow = .moving loaded moves →
    ∃ r, subject.existing s.bucket = some r ∧ loaded.reservationId = r.reservationId ∧
      loaded.policyDigest = r.policyDigest ∧ moves ≠ [] ∧
      movesTo r.state moves (railUsageTarget s.journal).state ∧ ∀ move ∈ moves, lags s.journal move
  done : s.follow = .done → railUsageTarget s.journal ≠ .reserved →
    ∀ r, subject.existing s.bucket = some r → r.state = (railUsageTarget s.journal).state
  crossed : s.past.any RailState.crossed → s.journal.crossed

section Invariant

variable {subject : DirectAllowlistSubject} {s : FollowSystem H}

theorem existing_put {bucket : Bucket H} {r : Reservation H}
    (h : r.reservationId = subject.reservationId H) : subject.existing (bucket.put r) = some r := by
  unfold DirectAllowlistSubject.existing
  rw [← h]
  exact KeyedStore.find?_put_self bucket r

theorem reservationId_of_existing {bucket : Bucket H} {r : Reservation H}
    (h : subject.existing bucket = some r) : r.reservationId = subject.reservationId H := by
  have hkey := KeyedStore.key_of_find? h
  exact hkey

-- A journal transition: the row is untouched, and lags at most one state more.
theorem FollowInv.journal (hinv : FollowInv subject s) {next : RailState}
    (hedge : next ∈ s.journal.edges)
    (hlease : s.journal = .awaitingApproval → next.needsLease → s.leased) :
    FollowInv subject { s with
      journal := next, past := s.journal :: s.past, follow := .idle } := by
  refine ⟨hinv.noFault, ?_, ?_, ?_, ?_, ?_⟩
  · intro hnone
    rcases hinv.absent hnone with ⟨hjournal, hleased⟩
    -- Without a row the journal can only have ended before any signature.
    rcases hjournal with hj | hj
    · have hnext : ¬ next.needsLease := fun hn => by simpa [hleased] using hlease hj hn
      rw [hj] at hedge
      cases next <;> simp [RailState.edges] at hedge <;> simp [RailState.needsLease] at hnext
      exact ⟨Or.inr rfl, hleased⟩
    · rw [hj] at hedge
      cases hedge
  · intro r hr
    exact ⟨(hinv.row r hr).1, lags_of_edge (hinv.row r hr).2 hedge⟩
  · intro loaded moves h
    cases h
  · intro h
    cases h
  · intro h
    rw [List.any_cons, Bool.or_eq_true] at h
    rcases h with h | h
    · exact RailState.crossed_of_edge h hedge
    · exact RailState.crossed_of_edge (hinv.crossed h) hedge

-- A reserve, crashed or not: refused, replayed on a reserved row, or a fresh hold.
theorem FollowInv.reserve (hinv : FollowInv subject s) (input : GateReserveInput) (crashed : Bool) :
    FollowInv subject (s.afterReserve subject input crashed) := by
  unfold FollowSystem.afterReserve
  split
  · refine ⟨hinv.noFault, hinv.absent, hinv.row, ?_, ?_, hinv.crossed⟩
    · intro loaded moves h
      cases h
    · intro h
      cases h
  · rename_i r bucket hreserve
    unfold gateReserve at hreserve
    rcases bind_ok.mp hreserve with ⟨_, _, hreserve⟩
    rcases bind_ok.mp (blocked_guard.mp hreserve).2 with ⟨⟨r', next⟩, hbound, hreserve⟩
    rcases blocked_guard.mp hreserve with ⟨hstate, hreserve⟩
    cases hreserve
    have hrow := reserveBound_row rfl hbound
    have hid : r.reservationId = subject.reservationId H := hrow.1
    have hsome : subject.existing bucket = some r ∧
        PlainHold subject.identity r.toReservationBody := by
      rcases hrow.2 with ⟨hsame, hfind⟩ | ⟨hput, _, _, hplain⟩
      · rw [hid] at hfind
        have hold : subject.existing s.bucket = some r := hfind
        exact ⟨by rw [hsame]; exact hold, (hinv.row r hold).1⟩
      · exact ⟨by rw [hput]; exact existing_put hid, hplain⟩
    refine ⟨hinv.noFault, ?_, ?_, ?_, ?_, hinv.crossed⟩
    · intro hnone
      rw [hsome.1] at hnone
      cases hnone
    · intro x hx
      rw [hsome.1] at hx
      cases hx
      refine ⟨hsome.2, ?_⟩
      rw [not_not.mp hstate]
      rfl
    · intro loaded moves h
      cases h
    · intro h
      cases h

-- The start of a call: the plan exists and fits the row it was made from.
theorem FollowInv.begin (hinv : FollowInv subject s) : FollowInv subject (s.afterBegin subject) := by
  unfold FollowSystem.afterBegin
  cases hrow : subject.existing s.bucket with
  | none =>
    have hplan : followPlan none (railUsageTarget s.journal) = .ok [] := by
      rcases (hinv.absent hrow).1 with hj | hj <;> rw [hj] <;> rfl
    simp only [Option.map_none, hplan]
    refine ⟨hinv.noFault, hinv.absent, hinv.row, ?_, ?_, hinv.crossed⟩
    · intro loaded moves h
      cases h
    · intro _ _ r hr
      rw [hrow] at hr
      cases hr
  | some current =>
    rcases followPlan_legal (hinv.row current hrow).2 with ⟨moves, hplan, hmoves, hlags⟩
    simp only [Option.map_some, hplan]
    cases moves with
    | nil =>
      refine ⟨hinv.noFault, hinv.absent, hinv.row, ?_, ?_, hinv.crossed⟩
      · intro loaded moves h
        cases h
      · intro _ htarget r hr
        rw [hrow] at hr
        cases hr
        exact hmoves htarget
    | cons move moves =>
      have htarget : railUsageTarget s.journal ≠ .reserved := by
        intro h
        rw [followPlan, if_pos h] at hplan
        cases hplan
      refine ⟨hinv.noFault, hinv.absent, hinv.row, ?_, ?_, hinv.crossed⟩
      · intro loaded rest h
        cases h
        exact ⟨current, hrow, rfl, rfl, List.cons_ne_nil _ _, hmoves htarget, hlags⟩
      · intro h
        cases h

-- One ledger move of a call: it succeeds, and the rest of the plan fits the row it left.
theorem FollowInv.move (hinv : FollowInv subject s) {loaded : Reservation H}
    {target : AssetUsageState} {rest : List AssetUsageState}
    (hmoving : s.follow = .moving loaded (target :: rest)) (now : Instant) (outcomeDigest : String) :
    FollowInv subject (s.afterMove subject loaded target rest now outcomeDigest) := by
  rcases hinv.moving loaded _ hmoving with ⟨r, hrow, hid, hpolicy, _, ⟨hallowed, hmoves⟩, hlags⟩
  have hfind : s.bucket.find? r.reservationId = some r := by
    rw [reservationId_of_existing hrow]
    exact hrow
  rcases transition_moves (hinv.row r hrow).1 hfind hallowed now outcomeDigest with
    ⟨next, htransition, hstate, hnextId, hnextPolicy, hplain⟩
  have hsame : plainMove loaded.toReservationBody target now outcomeDigest
      = plainMove r.toReservationBody target now outcomeDigest := by
    simp only [plainMove, hid, hpolicy]
  have hexisting : subject.existing (s.bucket.put next) = some next :=
    existing_put (by rw [hnextId, reservationId_of_existing hrow])
  unfold FollowSystem.afterMove
  rw [hsame, htransition]
  refine ⟨hinv.noFault, ?_, ?_, ?_, ?_, hinv.crossed⟩
  · intro hnone
    rw [hexisting] at hnone
    cases hnone
  · intro x hx
    rw [hexisting] at hx
    cases hx
    refine ⟨hplain, ?_⟩
    rw [hstate]
    exact hlags target List.mem_cons_self
  · intro loaded' moves h
    dsimp only at h
    split at h
    · cases h
    · rename_i hrest
      cases h
      refine ⟨next, hexisting, by rw [hid, hnextId], by rw [hpolicy, hnextPolicy], hrest, ?_, ?_⟩
      · rw [hstate]
        exact hmoves
      · exact fun move hmove => hlags move (List.mem_cons_of_mem _ hmove)
  · intro h _ x hx
    rw [hexisting] at hx
    cases hx
    dsimp only at h
    split at h
    · rename_i hrest
      rw [hrest] at hmoves
      rw [hstate]
      exact hmoves
    · cases h

theorem followInv_step {t : FollowSystem H} {label : FollowLabel H} (hinv : FollowInv subject s)
    (h : FollowStep subject s label t) : FollowInv subject t := by
  cases h with
  | journal next _ hedge hlease => exact hinv.journal hedge hlease
  | reserve input crashed => exact hinv.reserve input crashed
  | begin => exact hinv.begin
  | move loaded target rest now outcomeDigest hmoving => exact hinv.move hmoving now outcomeDigest
  | crash =>
    refine ⟨hinv.noFault, hinv.absent, hinv.row, ?_, ?_, hinv.crossed⟩
    · intro loaded moves h
      cases h
    · intro h
      cases h
  | other bucket hsame =>
    refine ⟨hinv.noFault, ?_, ?_, ?_, ?_, hinv.crossed⟩
    · rw [hsame]
      exact hinv.absent
    · rw [hsame]
      exact hinv.row
    · rw [hsame]
      exact hinv.moving
    · rw [hsame]
      exact hinv.done

end Invariant

/-- A prepared operation: awaiting approval, with nothing reserved under its key. -/
def FollowSystem.prepared (bucket : Bucket H) : FollowSystem H :=
  ⟨.awaitingApproval, [], false, bucket, .idle, none⟩

theorem followInv_prepared {subject : DirectAllowlistSubject} {bucket : Bucket H}
    (hfresh : subject.existing bucket = none) : FollowInv subject (FollowSystem.prepared bucket) := by
  refine ⟨rfl, fun _ => ⟨Or.inl rfl, rfl⟩, ?_, ?_, ?_, ?_⟩
  · intro r hr
    rw [show subject.existing (FollowSystem.prepared bucket).bucket = none from hfresh] at hr
    cases hr
  · intro loaded moves h
    cases h
  · intro h
    cases h
  · intro h
    cases h

/-- **The ledger follows the journal.**  Over any run no `follow` throws; a completed one leaves the
reservation in the state the journal names; and a hold is released only where the journal never crossed the
send boundary, finalized only where the journal is completed. -/
theorem usageLedger_follows_journal {subject : DirectAllowlistSubject} {bucket : Bucket H}
    {labels : List (FollowLabel H)} {s : FollowSystem H} (hfresh : subject.existing bucket = none)
    (hrun : Runs.Run (FollowStep subject) (FollowSystem.prepared bucket) labels s) :
    s.fault = none ∧
      (s.follow = .done → railUsageTarget s.journal ≠ .reserved →
        ∀ r, subject.existing s.bucket = some r → r.state = (railUsageTarget s.journal).state) ∧
      (∀ r, subject.existing s.bucket = some r →
        (r.state = .failedBeforeEffect → ∀ past ∈ s.journal :: s.past, past ≠ .submitting) ∧
        (r.state = .finalized → s.journal = .completed)) := by
  have hinv : FollowInv subject s :=
    hrun.invariant (followInv_prepared hfresh) fun _ _ _ => followInv_step
  refine ⟨hinv.noFault, hinv.done, ?_⟩
  intro r hr
  have hlags := (hinv.row r hr).2
  constructor
  · intro hstate past hpast heq
    have hjournal : s.journal = .failedBeforeEffect := by simpa [lags, hstate] using hlags
    have hcrossed : s.journal.crossed := by
      rcases List.mem_cons.mp hpast with rfl | hmem
      · rw [heq]
        rfl
      · apply hinv.crossed
        rw [List.any_eq_true]
        exact ⟨past, hmem, by rw [heq]; rfl⟩
    rw [hjournal] at hcrossed
    cases hcrossed
  · intro hstate
    simpa [lags, hstate] using hlags

/-! ## A revert proven after a crash left the ledger at `reserved` -/

namespace LaggingRevertRun

def hash : LedgerHash := ⟨fun key => key, fun _ key => key, fun proof => proof.receiptHash⟩

def subject : DirectAllowlistSubject := ⟨⟨"T1", "tron:1", .native⟩, "op-1", 7⟩

def registry : AssetPolicyRegistry where
  schemaVersion := .v1
  registryVersion := "r1"
  effectiveDate := 0
  effectiveAt := none
  expiresAt := none
  chains := [⟨"tron:1", .tron, [⟨.native, fun _ => true, some ⟨10, 10⟩, fun _ => none, none⟩]⟩]
  policyDigest := "p"

def now : Instant := .epoch

def approval : GateReserveInput := ⟨⟨fun _ _ => true, fun _ _ => true⟩, registry, .ok (), now⟩

/-- Reserve, sign, send and a finalized revert with no `follow` in between; then one `follow`. -/
def labels : List (FollowLabel hash) :=
  [.reserve approval false, .journal .signingStarted, .journal .signedNotSubmitted,
    .journal .submitting, .crash, .journal .failedConfirmedRevert, .begin, .move now "d",
    .move now "d"]

def reserved : FollowSystem hash :=
  (FollowSystem.prepared KeyedStore.empty).afterReserve subject approval false

def reverted : FollowSystem hash :=
  { reserved with
    journal := .failedConfirmedRevert
    past := [.submitting, .signedNotSubmitted, .signingStarted, .awaitingApproval] }

def loaded : Reservation hash :=
  (subject.existing reverted.bucket).get (by decide +kernel)

def following : FollowSystem hash := reverted.afterBegin subject

def halfway : FollowSystem hash :=
  following.afterMove subject loaded .submitted [.failedConfirmedRevert] now "d"

def followed : FollowSystem hash :=
  halfway.afterMove subject loaded .failedConfirmedRevert [] now "d"

theorem run_followed :
    Runs.Run (FollowStep subject) (FollowSystem.prepared KeyedStore.empty) labels followed := by
  apply Runs.Run.cons (FollowStep.reserve _ approval false (by decide) rfl)
  apply Runs.Run.cons (FollowStep.journal _ _ (by decide) (by decide) fun _ _ => rfl)
  apply Runs.Run.cons (FollowStep.journal _ _ (by decide) (by decide) (by decide))
  apply Runs.Run.cons (FollowStep.journal _ _ (by decide) (by decide) (by decide))
  apply Runs.Run.cons (FollowStep.crash _)
  apply Runs.Run.cons (FollowStep.journal _ _ (by decide) (by decide) (by decide))
  apply Runs.Run.cons (FollowStep.begin _ (by decide))
  apply Runs.Run.cons (FollowStep.move following loaded .submitted [.failedConfirmedRevert] now "d" rfl)
  exact Runs.Run.single (FollowStep.move halfway loaded .failedConfirmedRevert [] now "d" rfl)

theorem usageLedger_follows_journal_of_followed :
    followed.follow = .done ∧ followed.fault = none ∧
      ∀ r, subject.existing followed.bucket = some r → r.state = .failedConfirmedRevert := by
  have hdone : followed.follow = .done := rfl
  have hrun := usageLedger_follows_journal rfl run_followed
  exact ⟨hdone, hrun.1, hrun.2.1 hdone (by decide)⟩

end LaggingRevertRun
end PaymentNode
