import Mathlib.Algebra.GroupWithZero.Nat
import PaymentNode.Lib.Runs
import PaymentNode.Lib.Windows

/-!
# DestinationScan — the resumed scan for a Stargate delivery

`scanStargateLogs` asks the filtered logs in bounded windows from the saved cursor up to the finality head, and
saves the first block not yet scanned on three exits.  One call is played against whatever it meets: the head
it is given, the node's answer to each request (`none` fails or is no list, a `none` entry is no object), and the
fate of the load and of the save.  The cursor never passes a block whose windows were not answered empty.
-/

namespace PaymentNode

/-- A log of an answer: its position, and its text. -/
structure StargateLog where
  transactionHash : String
  logIndex : String
  raw : String
deriving DecidableEq, Repr

/-- A save is written, fails before it was written, or is written by a call that then fails. -/
inductive SaveFate
  | saved
  | lost
  | savedThenFailed
deriving DecidableEq, Repr

/-- What one call of the scan meets. -/
structure StargateCall where
  toBlock : ℕ
  loads : Bool
  answer : ℕ → ℕ → ℕ → Option (List (Option StargateLog))
  fate : SaveFate

namespace StargateScan

/-- A window, and what the node answered for it. -/
structure Ask where
  first : ℕ
  last : ℕ
  answer : Option (List (Option StargateLog))
deriving DecidableEq, Repr

/-- The logs a call returns (`none` throws), the cursor it leaves and the windows it asked. -/
structure Result where
  logs : Option (List StargateLog)
  saved : Option ℕ
  asked : List Ask
deriving DecidableEq, Repr

def maxLogs : ℕ := 5000

/-- A stored cursor has at most 31 digits. -/
def cursorBound : ℕ := 10 ^ 31

def positionKey (log : StargateLog) : String :=
  log.transactionHash.map Char.toLower ++ ":" ++ log.logIndex.map Char.toLower

/-- An identical repeat is dropped, a conflicting one at the same position fails. -/
def uniqueFrom : List StargateLog → List StargateLog → Option (List StargateLog)
  | seen, [] => some seen
  | seen, log :: logs =>
    match seen.find? fun previous => positionKey previous = positionKey log with
    | some previous => if previous.raw ≠ log.raw then none else uniqueFrom seen logs
    | none => uniqueFrom (seen ++ [log]) logs

/-- Where the windows of a call ended. -/
inductive Exit
  | failed
  | found (start : ℕ) (raw : List (Option StargateLog))
  | scanned (start : ℕ)
deriving DecidableEq, Repr

def windowStop (toBlock window start : ℕ) : ℕ :=
  if toBlock < start + window - 1 then toBlock else start + window - 1

/-- The window loop: the windows left, the number of requests made, the next block. -/
def scanWindows (call : StargateCall) (window : ℕ) : ℕ → ℕ → ℕ → Exit × List Ask
  | 0, _, start => (.scanned start, [])
  | left + 1, requests, start =>
    if call.toBlock < start then (.scanned start, [])
    else
      let stop := windowStop call.toBlock window start
      let answer := call.answer requests start stop
      match answer with
      | none => (.failed, [⟨start, stop, answer⟩])
      | some [] =>
        let rest := scanWindows call window left (requests + 1) (stop + 1)
        (rest.1, ⟨start, stop, answer⟩ :: rest.2)
      | some (entry :: raw) =>
        if maxLogs < (entry :: raw).length then (.failed, [⟨start, stop, answer⟩])
        else (.found start (entry :: raw), [⟨start, stop, answer⟩])

/-- The save of a cursor: whether the call goes on, and what is stored. -/
def save (call : StargateCall) (saved : Option ℕ) (start : ℕ) : Bool × Option ℕ :=
  match call.fate with
  | .saved => (true, some start)
  | .lost => (false, saved)
  | .savedThenFailed => (false, some start)

def startBlock (fromBlock : ℕ) (saved : Option ℕ) : ℕ :=
  match saved with
  | some cursor => if fromBlock < cursor then cursor else fromBlock
  | none => fromBlock

def scanStargateLogs (fromBlock window maxWindows : ℕ) (call : StargateCall) (saved : Option ℕ) : Result :=
  if call.loads = false ∨ saved.any fun cursor => cursorBound ≤ cursor then ⟨none, saved, []⟩
  else if window < 1 then ⟨none, saved, []⟩
  else
    let scan := scanWindows call window maxWindows 0 (startBlock fromBlock saved)
    match scan.1 with
    | .failed => ⟨none, saved, scan.2⟩
    | .found start raw =>
      let stored := if some start ≠ saved then save call saved start else (true, saved)
      -- The cursor is saved before the entries are read as records.
      ⟨if stored.1 then (raw.mapM id).bind (uniqueFrom []) else none, stored.2, scan.2⟩
    | .scanned start =>
      let stored := if some start ≠ saved ∧ fromBlock < start then save call saved start else (true, saved)
      ⟨if stored.1 then some [] else none, stored.2, scan.2⟩

/-! ## The windows of one call -/

section Windows

variable {call : StargateCall} {window : ℕ}

theorem windowStop_bounds {toBlock start : ℕ} (h : 1 ≤ window) (hstart : start ≤ toBlock) :
    start ≤ windowStop toBlock window start ∧ windowStop toBlock window start ≤ toBlock := by
  unfold windowStop
  split <;> omega

/-- What is known of a window that was asked. -/
structure Asked (call : StargateCall) (start : ℕ) (exit : Exit) (ask : Ask) : Prop where
  answered : ∃ requests, call.answer requests ask.first ask.last = ask.answer
  bounds : start ≤ ask.first ∧ ask.first ≤ ask.last ∧ ask.last ≤ call.toBlock
  outcome : ask.answer = some [] ∨
    (∃ entry raw, ask.answer = some (entry :: raw) ∧ exit = .found ask.first (entry :: raw)) ∨
    (exit = .failed ∧ ∀ raw, ask.answer = some raw → maxLogs < raw.length)

theorem scanWindows_asked (h : 1 ≤ window) (left requests start : ℕ) :
    ∀ ask ∈ (scanWindows call window left requests start).2,
      Asked call start (scanWindows call window left requests start).1 ask := by
  induction left generalizing requests start with
  | zero => simp [scanWindows]
  | succ left ih =>
    unfold scanWindows
    by_cases hdone : call.toBlock < start
    · simp [hdone]
    rw [if_neg hdone]
    have hstop := windowStop_bounds h (Nat.le_of_not_lt hdone)
    dsimp only
    split
    · rename_i hanswer
      intro ask hask
      rw [List.mem_singleton.mp hask]
      exact ⟨⟨requests, rfl⟩, ⟨Nat.le_refl _, hstop⟩, Or.inr (Or.inr ⟨rfl, by simp [hanswer]⟩)⟩
    · rename_i hanswer
      intro ask hask
      rcases List.mem_cons.mp hask with rfl | hrest
      · exact ⟨⟨requests, rfl⟩, ⟨Nat.le_refl _, hstop⟩, Or.inl hanswer⟩
      · rcases ih (requests + 1) (windowStop call.toBlock window start + 1) ask hrest with
          ⟨hanswered, hbounds, houtcome⟩
        exact ⟨hanswered, ⟨by omega, hbounds.2⟩, houtcome⟩
    · rename_i entry raw hanswer
      by_cases hmany : maxLogs < (entry :: raw).length
      · rw [if_pos hmany]
        intro ask hask
        rw [List.mem_singleton.mp hask]
        refine ⟨⟨requests, rfl⟩, ⟨Nat.le_refl _, hstop⟩, Or.inr (Or.inr ⟨rfl, ?_⟩)⟩
        intro raw' hraw
        rw [hanswer] at hraw
        cases hraw
        exact hmany
      · rw [if_neg hmany]
        intro ask hask
        rw [List.mem_singleton.mp hask]
        exact ⟨⟨requests, rfl⟩, ⟨Nat.le_refl _, hstop⟩, Or.inr (Or.inl ⟨entry, raw, hanswer, rfl⟩)⟩

end Windows

/-! ## One call -/

section Calls

variable {fromBlock window maxWindows : ℕ} {call : StargateCall} {saved : Option ℕ}

theorem call_asked (h : 1 ≤ window) {ask : Ask}
    (hask : ask ∈ (scanStargateLogs fromBlock window maxWindows call saved).asked) :
    Asked call (startBlock fromBlock saved)
      (scanWindows call window maxWindows 0 (startBlock fromBlock saved)).1 ask := by
  have hasked := @scanWindows_asked call window h maxWindows 0 (startBlock fromBlock saved) ask
  unfold scanStargateLogs at hask
  split at hask
  · cases hask
  split at hask
  · cases hask
  dsimp only at hask
  split at hask
  · exact hasked hask
  · exact hasked hask
  · exact hasked hask

end Calls

/-- The matching logs of each block; no two of them share a position. -/
structure LogChain where
  logs : ℕ → List StargateLog
  positions : ∀ m n log other, log ∈ logs m → other ∈ logs n → positionKey log = positionKey other → log = other

/-- Every entry is a log. -/
def WellFormed (raw : List (Option StargateLog)) : Prop := ∀ entry ∈ raw, entry ≠ none

/-- Every well-formed answer is complete for its range. -/
def Complete (chain : LogChain) (call : StargateCall) : Prop :=
  ∀ requests first last raw, call.answer requests first last = some raw → WellFormed raw →
    ∀ log, some log ∈ raw ↔ ∃ n, first ≤ n ∧ n ≤ last ∧ log ∈ chain.logs n

section Answers

variable {chain : LogChain} {call : StargateCall} {requests first last n : ℕ} {raw : List (Option StargateLog)}

theorem Complete.empty (h : Complete chain call) (hanswer : call.answer requests first last = some [])
    (hfirst : first ≤ n) (hlast : n ≤ last) : chain.logs n = [] := by
  rw [List.eq_nil_iff_forall_not_mem]
  intro log hlog
  have hentry := (h requests first last [] hanswer (by intro entry hmem; cases hmem) log).mpr ⟨n, hfirst, hlast, hlog⟩
  cases hentry

theorem WellFormed.records (h : WellFormed raw) : ∃ logs, raw = logs.map some ∧ raw.mapM id = some logs := by
  induction raw with
  | nil => exact ⟨[], rfl, rfl⟩
  | cons entry raw ih =>
    rcases ih fun other hother => h other (List.mem_cons_of_mem _ hother) with ⟨logs, hlogs, hmap⟩
    cases entry with
    | none => exact absurd rfl (h none List.mem_cons_self)
    | some log =>
      refine ⟨log :: logs, by rw [hlogs, List.map_cons], ?_⟩
      rw [List.mapM_cons, hmap]
      rfl

-- Logs that share no position but with themselves are all kept.
theorem uniqueFrom_mem {seen logs : List StargateLog}
    (h : ∀ log ∈ seen ++ logs, ∀ other ∈ seen ++ logs, positionKey log = positionKey other → log = other) :
    ∃ kept, uniqueFrom seen logs = some kept ∧ ∀ log, log ∈ kept ↔ log ∈ seen ++ logs := by
  induction logs generalizing seen with
  | nil => exact ⟨seen, rfl, by simp⟩
  | cons log logs ih =>
    unfold uniqueFrom
    cases hfound : seen.find? fun previous => positionKey previous = positionKey log with
    | some previous =>
      have hmem : previous ∈ seen := List.mem_of_find?_eq_some hfound
      have hkey : positionKey previous = positionKey log := by simpa using List.find?_some hfound
      have hsame : previous = log := h previous (by simp [hmem]) log (by simp) hkey
      rw [← hsame]
      dsimp only
      rw [if_neg (not_not.mpr rfl)]
      rcases @ih seen fun one hone two htwo => h one (by simp at hone ⊢; tauto) two (by simp at htwo ⊢; tauto)
        with ⟨kept, hkept, hmemKept⟩
      refine ⟨kept, hkept, ?_⟩
      intro other
      rw [hmemKept, List.mem_append, List.mem_append, List.mem_cons]
      constructor
      · rintro (hold | hnew)
        · exact Or.inl hold
        · exact Or.inr (Or.inr hnew)
      · rintro (hold | rfl | hnew)
        · exact Or.inl hold
        · exact Or.inl hmem
        · exact Or.inr hnew
    | none =>
      dsimp only
      have hreorder : ∀ other, other ∈ seen ++ [log] ++ logs ↔ other ∈ seen ++ log :: logs := by
        intro other
        simp
      rcases @ih (seen ++ [log]) fun one hone two htwo => h one ((hreorder one).mp hone) two ((hreorder two).mp htwo)
        with ⟨kept, hkept, hmemKept⟩
      exact ⟨kept, hkept, fun other => (hmemKept other).trans (hreorder other)⟩

-- What a call returns of a well-formed complete answer: the logs of its window.
theorem Complete.returned (h : Complete chain call) (hanswer : call.answer requests first last = some raw)
    (hraw : WellFormed raw) :
    ∃ logs, (raw.mapM id).bind (uniqueFrom []) = some logs ∧
      ∀ log, log ∈ logs ↔ ∃ n, first ≤ n ∧ n ≤ last ∧ log ∈ chain.logs n := by
  have hcomplete := h requests first last raw hanswer hraw
  rcases hraw.records with ⟨logs, rfl, hmap⟩
  have hmem : ∀ log, log ∈ logs ↔ ∃ n, first ≤ n ∧ n ≤ last ∧ log ∈ chain.logs n := by
    intro log
    rw [← hcomplete log]
    simp
  have hpositions : ∀ log ∈ [] ++ logs, ∀ other ∈ [] ++ logs, positionKey log = positionKey other → log = other := by
    intro log hlog other hother hkey
    rcases (hmem log).mp hlog with ⟨m, _, _, hm⟩
    rcases (hmem other).mp hother with ⟨n, _, _, hn⟩
    exact chain.positions m n log other hm hn hkey
  rcases uniqueFrom_mem hpositions with ⟨kept, hkept, hmemKept⟩
  rw [hmap]
  exact ⟨kept, hkept, fun log => (hmemKept log).trans (hmem log)⟩

end Answers

/-! ## Runs of calls -/

/-- Calls one after another, over the stored cursor. -/
abbrev ScanRun (fromBlock window maxWindows : ℕ) : Option ℕ → List StargateCall → Option ℕ → Prop :=
  Runs.Run fun saved call next => (scanStargateLogs fromBlock window maxWindows call saved).saved = next

/-- A call of the run asked a window with the block and was answered empty. -/
def CoveredBy (fromBlock window maxWindows : ℕ) (calls : List StargateCall) (n : ℕ) : Prop :=
  ∃ before after call held, calls = before ++ call :: after ∧
    ScanRun fromBlock window maxWindows none before held ∧
    ∃ ask ∈ (scanStargateLogs fromBlock window maxWindows call held).asked,
      ask.answer = some [] ∧ ask.first ≤ n ∧ n ≤ ask.last

/-- A call of the run returned the logs of the block. -/
def ReturnedBy (chain : LogChain) (fromBlock window maxWindows : ℕ) (calls : List StargateCall) (b : ℕ) : Prop :=
  ∃ before after call held logs, calls = before ++ call :: after ∧
    ScanRun fromBlock window maxWindows none before held ∧
    (scanStargateLogs fromBlock window maxWindows call held).logs = some logs ∧
    ∀ log ∈ chain.logs b, log ∈ logs

section Runs

variable {chain : LogChain} {fromBlock window maxWindows : ℕ} {calls : List StargateCall} {call : StargateCall}
  {saved : Option ℕ} {b n : ℕ}

theorem CoveredBy.snoc (h : CoveredBy fromBlock window maxWindows calls n) (call : StargateCall) :
    CoveredBy fromBlock window maxWindows (calls ++ [call]) n := by
  rcases h with ⟨before, after, asked, held, hcalls, hrest⟩
  exact ⟨before, after ++ [call], asked, held, by rw [hcalls]; simp, hrest⟩

theorem ReturnedBy.snoc (h : ReturnedBy chain fromBlock window maxWindows calls b) (call : StargateCall) :
    ReturnedBy chain fromBlock window maxWindows (calls ++ [call]) b := by
  rcases h with ⟨before, after, returned, held, logs, hcalls, hrest⟩
  exact ⟨before, after ++ [call], returned, held, logs, by rw [hcalls]; simp, hrest⟩

theorem CoveredBy.empty (h : 1 ≤ window) (hcomplete : ∀ call ∈ calls, Complete chain call)
    (hcovered : CoveredBy fromBlock window maxWindows calls n) : chain.logs n = [] := by
  rcases hcovered with ⟨before, after, call, held, hcalls, _, ask, hask, hempty, hfirst, hlast⟩
  rcases (call_asked h hask).answered with ⟨requests, hanswer⟩
  rw [hempty] at hanswer
  exact (hcomplete call (by rw [hcalls]; simp)).empty hanswer hfirst hlast

end Runs

namespace DeliveryRun

def delivery : StargateLog := ⟨"0xaa", "0x0", "{}"⟩

/-- One delivery, in block 3. -/
def chain : LogChain where
  logs := fun n => if n = 3 then [delivery] else []
  positions := by
    intro m n log other hlog hother _
    by_cases hm : m = 3
    · by_cases hn : n = 3
      · rw [if_pos hm, List.mem_singleton] at hlog
        rw [if_pos hn, List.mem_singleton] at hother
        rw [hlog, hother]
      · rw [if_neg hn] at hother
        cases hother
    · rw [if_neg hm] at hlog
      cases hlog

/-- A truthful call before the delivery is final. -/
def early : StargateCall where
  toBlock := 2
  loads := true
  answer := fun _ first last => some (if first ≤ 3 ∧ 3 ≤ last then [some delivery] else [])
  fate := .saved

/-- The logs of a broad filter: `i` stands at position `i`. -/
def crowdLog (i : ℕ) : StargateLog := ⟨"0xaa", String.ofList (List.replicate i 'a'), "{}"⟩

def crowdLogs : List StargateLog := (List.range 5001).map crowdLog

/-- They all lie in block 0. -/
def crowd : LogChain where
  logs := fun n => if n = 0 then crowdLogs else []
  positions := by
    intro m n log other hlog hother hkey
    have hcrowd : ∀ k entry, entry ∈ (if k = 0 then crowdLogs else []) → ∃ i, entry = crowdLog i := by
      intro k entry hentry
      by_cases hk : k = 0
      · rw [if_pos hk] at hentry
        rcases List.mem_map.mp hentry with ⟨i, _, rfl⟩
        exact ⟨i, rfl⟩
      · rw [if_neg hk] at hentry
        cases hentry
    rcases hcrowd m log hlog with ⟨i, rfl⟩
    rcases hcrowd n other hother with ⟨j, rfl⟩
    -- A key is as long as its position.
    have hlength := congrArg String.length hkey
    simp only [positionKey, crowdLog, String.length_append, String.length_map, String.length_ofList,
      List.length_replicate] at hlength
    have hsame : i = j := by omega
    rw [hsame]

end DeliveryRun
end StargateScan
end PaymentNode
