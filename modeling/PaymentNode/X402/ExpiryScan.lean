import Mathlib.Data.Nat.Log
import Mathlib.Order.Monotone.Defs
import Mathlib.Tactic.Linarith
import PaymentNode.Lib.Windows
import PaymentNode.X402.Lifecycle

/-!
# ExpiryScan — the proof that an expired delegation was never redeemed

These are the two searches `reconcileExpiredUnused` rests its evidence on.  `expiryBound` finds a block at or
after the expiry by interpolation, and `scanNoPayeeTransfer` asks the transfer logs of every block up to it, in
chunks that shrink when a range is refused.  The node's answers are parameters that see the number of the
call, so that it may answer differently each time: `none` is a call that throws.
-/

namespace PaymentNode.X402

inductive X402TransferLogs (τ : Type)
  | complete (logs : List τ)
  | rangeUnavailable
  | pruned
deriving DecidableEq, Repr

/-- The header read of a block, by the number of reads made before it. -/
abbrev HeaderPort := ℕ → ℤ → Option TimedBlock

/-- The log read of a range, by the number of calls made before it. -/
abbrev LogPort (τ : Type) := ℕ → ℕ → ℕ → Option (X402TransferLogs τ)

/-- What `expiryBound` leaves: a bound, no bound, or a division by zero that throws. -/
inductive ExpiryBound
  | bound (block : TimedBlock)
  | unavailable
  | rangeError
deriving DecidableEq, Repr

def maxExpiryBoundReads : ℕ := 4

/-- Division of big integers: towards zero, and an error for a zero divisor. -/
def bigIntDiv (a b : ℤ) : Option ℤ := if b = 0 then none else some (a.tdiv b)

/-- The guess, kept strictly between the two ends. -/
def clampGuess (low high guess : ℤ) : ℤ :=
  let guess := if high ≤ guess then high - 1 else guess
  if guess ≤ low then low + 1 else guess

/-- The loop of `expiryBound`: the reads left, the reads made and the lower end. -/
def expiryBoundFrom (header : HeaderPort) (finalized : TimedBlock) (expiry : ℤ) :
    ℕ → ℕ → ℤ → ℤ → ℕ × ExpiryBound
  | 0, reads, _, _ => (reads, .bound finalized)
  | left + 1, reads, lowNumber, lowTimestamp =>
    if (finalized.identity.number : ℤ) - lowNumber ≤ 1 then (reads, .bound finalized)
    else
      match bigIntDiv ((expiry - lowTimestamp) * (finalized.identity.number - lowNumber) +
          (finalized.timestamp - lowTimestamp) - 1) (finalized.timestamp - lowTimestamp) with
      | none => (reads, .rangeError)
      | some quotient =>
        let guess := clampGuess lowNumber finalized.identity.number (lowNumber + quotient)
        match header reads guess with
        | none => (reads + 1, .unavailable)
        | some block =>
          if (block.identity.number : ℤ) ≠ guess then (reads + 1, .unavailable)
          else if expiry ≤ block.timestamp then (reads + 1, .bound block)
          -- Short of the expiry: the guess is the new lower end.
          else expiryBoundFrom header finalized expiry left (reads + 1) guess block.timestamp

def expiryBound (header : HeaderPort) (start finalized : TimedBlock) (expiry : ℕ) : ℕ × ExpiryBound :=
  expiryBoundFrom header finalized expiry maxExpiryBoundReads 0 start.identity.number start.timestamp

/-- One call of the scan, with the node's answer. -/
structure LogCall (τ : Type) where
  fromBlock : ℕ
  toBlock : ℕ
  answer : Option (X402TransferLogs τ)
deriving DecidableEq, Repr

variable {τ : Type}

/-- The last block of a chunk. -/
def chunkStop (last start chunkSize : ℕ) : ℕ :=
  if start + chunkSize - 1 < last then start + chunkSize - 1 else last

theorem chunkStop_bounds {last start chunkSize : ℕ} (h : 0 < chunkSize) (hstart : start ≤ last) :
    start ≤ chunkStop last start chunkSize ∧ chunkStop last start chunkSize ≤ last := by
  unfold chunkStop
  split <;> omega

/-- The loop of `scanNoPayeeTransfer`, with the calls it makes. -/
def scanNoPayeeTransferFrom (port : LogPort τ) (last : ℕ) (calls start chunkSize : ℕ)
    (h : 0 < chunkSize) : Bool × List (LogCall τ) :=
  if hstart : start ≤ last then
    let stop := chunkStop last start chunkSize
    match port calls start stop with
    | some .rangeUnavailable =>
      if hshrink : 1 < chunkSize then
        let rest := scanNoPayeeTransferFrom port last (calls + 1) start (chunkSize / 2)
          (Nat.div_pos hshrink (by decide))
        (rest.1, ⟨start, stop, some .rangeUnavailable⟩ :: rest.2)
      else (false, [⟨start, stop, some .rangeUnavailable⟩])
    | some (.complete []) =>
      let rest := scanNoPayeeTransferFrom port last (calls + 1) (stop + 1) chunkSize h
      (rest.1, ⟨start, stop, some (.complete [])⟩ :: rest.2)
    | some (.complete (log :: logs)) => (false, [⟨start, stop, some (.complete (log :: logs))⟩])
    | some .pruned => (false, [⟨start, stop, some .pruned⟩])
    | none => (false, [⟨start, stop, none⟩])
  else (true, [])
termination_by last + 1 - start + chunkSize
decreasing_by
  · have hhalf : chunkSize / 2 < chunkSize := Nat.div_lt_self h (by decide)
    omega
  · have hstop := chunkStop_bounds h hstart
    omega

def scanNoPayeeTransfer (port : LogPort τ) (start last : ℕ) : Bool × List (LogCall τ) :=
  scanNoPayeeTransferFrom port last 0 start 2048 (by decide)

/-! ## The bound -/

theorem clampGuess_between (low high guess : ℤ) (h : 1 < high - low) :
    low < clampGuess low high guess ∧ clampGuess low high guess < high := by
  unfold clampGuess
  dsimp only
  split <;> split <;> omega

-- As long as the lower end lies before the expiry, the divisor is positive and the bound lies above it.
theorem expiryBoundFrom_spec (header : HeaderPort) (finalized : TimedBlock) (expiry : ℤ)
    (hafter : expiry ≤ finalized.timestamp) (left reads : ℕ) (lowNumber lowTimestamp : ℤ)
    (hbefore : lowTimestamp < expiry) (hnumber : lowNumber ≤ finalized.identity.number) :
    (expiryBoundFrom header finalized expiry left reads lowNumber lowTimestamp).1 ≤ reads + left ∧
      (expiryBoundFrom header finalized expiry left reads lowNumber lowTimestamp).2 ≠ .rangeError ∧
      ∀ block, (expiryBoundFrom header finalized expiry left reads lowNumber lowTimestamp).2 = .bound block →
        expiry ≤ block.timestamp ∧ lowNumber ≤ block.identity.number ∧ block.identity.number ≤ finalized.identity.number := by
  have hhead : ∀ block, ExpiryBound.bound finalized = .bound block →
      expiry ≤ block.timestamp ∧ lowNumber ≤ block.identity.number ∧ block.identity.number ≤ finalized.identity.number := by
    intro block hblock
    cases hblock
    exact ⟨hafter, hnumber, Nat.le_refl _⟩
  induction left generalizing reads lowNumber lowTimestamp with
  | zero => exact ⟨Nat.le_refl _, by simp [expiryBoundFrom], hhead⟩
  | succ left ih =>
    unfold expiryBoundFrom
    by_cases hnear : (finalized.identity.number : ℤ) - lowNumber ≤ 1
    · rw [if_pos hnear]
      exact ⟨by omega, by simp, hhead⟩
    rw [if_neg hnear]
    -- The expiry lies between the two timestamps, so they differ.
    have helapsed : ¬ (finalized.timestamp : ℤ) - lowTimestamp = 0 := by omega
    rw [bigIntDiv, if_neg helapsed]
    dsimp only
    generalize hguess : clampGuess lowNumber finalized.identity.number _ = guess
    have hbetween := clampGuess_between lowNumber finalized.identity.number (lowNumber + ((expiry - lowTimestamp) *
      (finalized.identity.number - lowNumber) + (finalized.timestamp - lowTimestamp) - 1).tdiv
      (finalized.timestamp - lowTimestamp)) (not_le.mp hnear)
    rw [hguess] at hbetween
    cases hread : header reads guess with
    | none => exact ⟨by dsimp only; omega, by simp, by simp⟩
    | some block =>
      dsimp only
      by_cases hother : (block.identity.number : ℤ) ≠ guess
      · rw [if_pos hother]
        exact ⟨by dsimp only; omega, by simp, by simp⟩
      rw [if_neg hother]
      have hnumber' := not_not.mp hother
      by_cases hexpired : expiry ≤ block.timestamp
      · rw [if_pos hexpired]
        refine ⟨by dsimp only; omega, by simp, ?_⟩
        intro bound hbound
        cases hbound
        exact ⟨hexpired, by omega, by omega⟩
      · rw [if_neg hexpired]
        have hlow : (block.timestamp : ℤ) < expiry := not_le.mp hexpired
        have hhead' : ∀ bound, ExpiryBound.bound finalized = .bound bound →
            expiry ≤ bound.timestamp ∧ guess ≤ bound.identity.number ∧ bound.identity.number ≤ finalized.identity.number := by
          intro bound hbound
          cases hbound
          exact ⟨hafter, by omega, Nat.le_refl _⟩
        rcases ih (reads + 1) guess block.timestamp hlow (by omega) hhead' with ⟨hreads, hnoError, hbound⟩
        refine ⟨by omega, hnoError, ?_⟩
        intro bound hfound
        rcases hbound bound hfound with ⟨hts, hge, hle⟩
        exact ⟨hts, by omega, hle⟩

/-! ## The scan -/

-- Every answer moves the scan on by a block or halves the chunk, which never grows again.
theorem scan_calls (port : LogPort τ) (last calls start chunkSize : ℕ) (h : 0 < chunkSize) :
    (scanNoPayeeTransferFrom port last calls start chunkSize h).2.length ≤
      last + 1 - start + Nat.log 2 chunkSize + 1 := by
  fun_induction scanNoPayeeTransferFrom port last calls start chunkSize h with
  | case1 calls start chunkSize h hstart stop hanswer hshrink rest ih =>
    have hlog : Nat.log 2 (chunkSize / 2) + 1 = Nat.log 2 chunkSize := by
      have hpos : 1 ≤ Nat.log 2 chunkSize := Nat.le_log_of_pow_le (by decide) (by omega)
      rw [Nat.log_div_base]
      omega
    have hrest : rest.2.length ≤ last + 1 - start + Nat.log 2 (chunkSize / 2) + 1 := ih
    rw [List.length_cons]
    omega
  | case3 calls start chunkSize h hstart stop hanswer rest ih =>
    have hstop : start ≤ stop := (chunkStop_bounds h hstart).1
    have hrest : rest.2.length ≤ last + 1 - (stop + 1) + Nat.log 2 chunkSize + 1 := ih
    rw [List.length_cons]
    omega
  | case2 | case4 | case5 | case6 => simp
  | case7 => simp

-- Every call recorded is one the node answered so.
theorem scan_asked (port : LogPort τ) (last calls start chunkSize : ℕ) (h : 0 < chunkSize) :
    ∀ call ∈ (scanNoPayeeTransferFrom port last calls start chunkSize h).2,
      ∃ n, port n call.fromBlock call.toBlock = call.answer := by
  fun_induction scanNoPayeeTransferFrom port last calls start chunkSize h with
  | case1 calls start chunkSize h hstart stop hanswer hshrink rest ih
  | case3 calls start chunkSize h hstart stop hanswer rest ih =>
    intro call hcall
    rcases List.mem_cons.mp hcall with rfl | hcall
    · exact ⟨calls, hanswer⟩
    · exact ih call hcall
  | case2 calls start chunkSize h hstart stop hanswer
  | case4 calls start chunkSize h hstart stop log logs hanswer
  | case5 calls start chunkSize h hstart stop hanswer
  | case6 calls start chunkSize h hstart stop hanswer =>
    intro call hcall
    rw [List.mem_singleton.mp hcall]
    exact ⟨calls, hanswer⟩
  | case7 => simp

-- A clear scan tiled the range with windows that were answered complete and empty.
theorem scan_tiles (port : LogPort τ) (last calls start chunkSize : ℕ) (h : 0 < chunkSize)
    (hlast : start ≤ last + 1) (hclear : (scanNoPayeeTransferFrom port last calls start chunkSize h).1 = true) :
    ∃ windows, Windows.Tiles start windows (last + 1) ∧
      ∀ w ∈ windows, ⟨w.1, w.2, some (.complete [])⟩ ∈
        (scanNoPayeeTransferFrom port last calls start chunkSize h).2 := by
  revert hlast hclear
  fun_induction scanNoPayeeTransferFrom port last calls start chunkSize h with
  | case1 calls start chunkSize h hstart stop hanswer hshrink rest ih =>
    intro hlast hclear
    rcases ih hlast hclear with ⟨windows, htiles, hcomplete⟩
    refine ⟨windows, htiles, ?_⟩
    intro w hw
    exact List.mem_cons_of_mem _ (hcomplete w hw)
  | case3 calls start chunkSize h hstart stop hanswer rest ih =>
    intro _ hclear
    have hstop : start ≤ stop ∧ stop ≤ last := chunkStop_bounds h hstart
    rcases ih (by omega) hclear with ⟨windows, htiles, hcomplete⟩
    refine ⟨(start, stop) :: windows, htiles.cons hstop.1, ?_⟩
    intro w hw
    rcases List.mem_cons.mp hw with rfl | hw
    · exact List.mem_cons_self
    · exact List.mem_cons_of_mem _ (hcomplete w hw)
  | case2 | case4 | case5 | case6 =>
    intro _ hclear
    cases hclear
  | case7 calls start chunkSize h hstart =>
    intro hlast _
    have hend : start = last + 1 := by omega
    rw [hend]
    exact ⟨[], Windows.Tiles.nil, by simp⟩

/-! ## The scan against the chain -/

/-- A chain: its block times, which never decrease, and the transfers of the wallet to the payee in each block. -/
structure TransferChain (τ : Type) where
  timestamp : ℕ → ℕ
  transfers : ℕ → List τ
  timed : Monotone timestamp

/-- A complete answer is exactly the transfers of the asked range. -/
def LogPort.Truthful (port : LogPort τ) (chain : TransferChain τ) : Prop :=
  ∀ n first last logs, port n first last = some (.complete logs) →
    logs = (List.range' first (last + 1 - first)).flatMap chain.transfers

theorem LogPort.Truthful.none_in {port : LogPort τ} {chain : TransferChain τ} (h : port.Truthful chain)
    {n first last k : ℕ} (hanswer : port n first last = some (.complete [])) (hfirst : first ≤ k)
    (hlast : k ≤ last) : chain.transfers k = [] := by
  have hempty := (h n first last [] hanswer).symm
  rw [List.flatMap_eq_nil_iff] at hempty
  apply hempty
  rw [List.mem_range'_1]
  omega

-- Every block of a clear scan lies in a window answered complete.
theorem scan_covers (port : LogPort τ) {start last k : ℕ} (hlast : start ≤ last + 1)
    (hclear : (scanNoPayeeTransfer port start last).1 = true) (hstart : start ≤ k) (hk : k ≤ last) :
    ∃ call ∈ (scanNoPayeeTransfer port start last).2, call.fromBlock ≤ k ∧ k ≤ call.toBlock ∧
      call.answer = some (.complete []) := by
  rcases scan_tiles port last 0 start 2048 (by decide) hlast hclear with ⟨windows, htiles, hcomplete⟩
  rcases htiles.exists_window hstart (by omega) with ⟨w, hw, hlow, hhigh⟩
  exact ⟨_, hcomplete w hw, hlow, hhigh, rfl⟩

/-- **The unused-expiry search.**  Between a block before the expiry and a finalized head past it, the bound is
found in four reads at most and lies past the expiry; the scan of any range ends, and a clear one had every
block of it in a complete answer, so that none holds a transfer. -/
theorem unused_expiry_scan (chain : TransferChain τ) (header : HeaderPort) (port : LogPort τ)
    (htruth : port.Truthful chain) (start finalized : TimedBlock) (expiry : ℕ)
    (hstart : start.timestamp = chain.timestamp start.identity.number)
    (hfinalized : finalized.timestamp = chain.timestamp finalized.identity.number)
    (hbefore : start.timestamp < expiry) (hafter : expiry ≤ finalized.timestamp) :
    (expiryBound header start finalized expiry).1 ≤ 4 ∧
    (expiryBound header start finalized expiry).2 ≠ .rangeError ∧
    (∀ block, (expiryBound header start finalized expiry).2 = .bound block →
      expiry ≤ block.timestamp ∧ start.identity.number ≤ block.identity.number ∧
        block.identity.number ≤ finalized.identity.number) ∧
    (∀ last, (scanNoPayeeTransfer port start.identity.number last).2.length ≤
      last + 1 - start.identity.number + 12) ∧
    (∀ block, (expiryBound header start finalized expiry).2 = .bound block →
      (scanNoPayeeTransfer port start.identity.number block.identity.number).1 = true →
      ∀ k, start.identity.number ≤ k → k ≤ block.identity.number → chain.transfers k = [] ∧
        ∃ call ∈ (scanNoPayeeTransfer port start.identity.number block.identity.number).2,
          call.fromBlock ≤ k ∧ k ≤ call.toBlock ∧ call.answer = some (.complete [])) := by
  have hnumber : start.identity.number ≤ finalized.identity.number := by
    by_contra hlater
    have htimed := chain.timed (Nat.le_of_lt (not_le.mp hlater))
    omega
  have hspec := expiryBoundFrom_spec header finalized expiry (by omega) maxExpiryBoundReads 0
    start.identity.number start.timestamp (by omega) (by omega)
  have hbound : ∀ block, (expiryBound header start finalized expiry).2 = .bound block →
      expiry ≤ block.timestamp ∧ start.identity.number ≤ block.identity.number ∧
        block.identity.number ≤ finalized.identity.number := by
    intro block hblock
    have hblock' := hspec.2.2 block hblock
    omega
  refine ⟨hspec.1.trans (by decide), hspec.2.1, hbound, ?_, ?_⟩
  · intro last
    have hcalls := scan_calls port last 0 start.identity.number 2048 (by decide)
    have hlog : Nat.log 2 2048 = 11 := by
      rw [show 2048 = 2 ^ 11 by decide, Nat.log_pow (by decide)]
    rw [hlog] at hcalls
    exact hcalls
  · intro block hblock hclear k hlow hhigh
    have hrange := (hbound block hblock).2.1
    rcases scan_covers port (by omega) hclear hlow hhigh with ⟨call, hcall, hfrom, hto, hanswer⟩
    rcases scan_asked port block.identity.number 0 start.identity.number 2048 (by decide) call hcall with ⟨n, hasked⟩
    exact ⟨htruth.none_in (hasked.trans hanswer) hfrom hto, call, hcall, hfrom, hto, hanswer⟩

namespace TwelveSecondRun

/-- A block every twelve seconds, none with a transfer. -/
def chain : TransferChain String := ⟨fun k => 12 * k, fun _ => [], fun _ _ h => Nat.mul_le_mul_left 12 h⟩

def header : HeaderPort := fun _ guess => some ⟨⟨guess.toNat, "h"⟩, 12 * guess.toNat⟩

/-- The first range is refused, the later ones are complete. -/
def port : LogPort String := fun n _ _ => if n = 0 then some .rangeUnavailable else some (.complete [])

def start : TimedBlock := ⟨⟨2, "h"⟩, 24⟩

def finalized : TimedBlock := ⟨⟨5000, "h"⟩, 60000⟩

theorem truthful : port.Truthful chain := by
  intro n first last logs hanswer
  unfold port at hanswer
  by_cases hn : n = 0
  · rw [if_pos hn] at hanswer
    cases hanswer
  · rw [if_neg hn] at hanswer
    cases hanswer
    simp [chain]

theorem unused_expiry_scan_of_run :
    expiryBound header start finalized 50 = (1, .bound ⟨⟨5, "h"⟩, 60⟩) ∧
      (scanNoPayeeTransfer port 2 5).2.length = 2 ∧ (scanNoPayeeTransfer port 2 5).2.length ≤ 16 ∧
      ∀ k, 2 ≤ k → k ≤ 5 → chain.transfers k = [] := by
  have hrun := unused_expiry_scan chain header port truthful start finalized 50 (by decide) (by decide)
    (by decide) (by decide)
  have hbound : (expiryBound header start finalized 50).2 = .bound ⟨⟨5, "h"⟩, 60⟩ := by decide +kernel
  refine ⟨by decide +kernel, by decide +kernel, hrun.2.2.2.1 5, ?_⟩
  intro k hlow hhigh
  exact (hrun.2.2.2.2 _ hbound (by decide +kernel) k hlow hhigh).1

end TwelveSecondRun
end PaymentNode.X402
