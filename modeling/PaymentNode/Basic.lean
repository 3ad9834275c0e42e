import Mathlib.Order.Lattice
import Mathlib.Tactic.Linarith

/-!
# Basic — typed errors, instants and UTC days

`ApnError` is the code and text every refusal carries.  An `Instant` is what `Date.toISOString`
prints for a four-digit year: on those strings the textual order the code compares with is the order
of the milliseconds, and `slice(0, 10)` is the UTC day.
-/

namespace PaymentNode

inductive ApnErrorCode
  | invalidInput
  | operationBlocked
  | stateCorrupt
  | reprepareRequired
  | feeBudgetExceeded
  | insufficientGas
  | insufficientAsset
  | profileDrift
  | walletMismatch
  | allowlistRefused
  | foregroundApprovalRequired
  | rpcUnavailable
  | idempotencyConflict
  | stateBusy
  | other
deriving DecidableEq, Repr

structure ApnError where
  code : ApnErrorCode
  message : String
deriving DecidableEq, Repr

abbrev Result (α : Type) := Except ApnError α

def invalid {α : Type} (message : String) : Result α := .error ⟨.invalidInput, message⟩

def blocked {α : Type} (message : String) : Result α := .error ⟨.operationBlocked, message⟩

def corrupt {α : Type} (message : String) : Result α := .error ⟨.stateCorrupt, message⟩

section Guards

variable {α β : Type} {a : α} {b : β} {x : Result α} {m : String}

@[simp] theorem invalid_ne_ok : ¬ (invalid m = .ok a) := by simp [invalid]

@[simp] theorem blocked_ne_ok : ¬ (blocked m = .ok a) := by simp [blocked]

@[simp] theorem corrupt_ne_ok : ¬ (corrupt m = .ok a) := by simp [corrupt]

variable {c : Prop} [Decidable c]

@[simp] theorem invalid_guard : (if c then invalid m else x) = .ok a ↔ ¬ c ∧ x = .ok a := by
  by_cases hc : c <;> simp [hc]

@[simp] theorem blocked_guard : (if c then blocked m else x) = .ok a ↔ ¬ c ∧ x = .ok a := by
  by_cases hc : c <;> simp [hc]

@[simp] theorem corrupt_guard : (if c then corrupt m else x) = .ok a ↔ ¬ c ∧ x = .ok a := by
  by_cases hc : c <;> simp [hc]

theorem bind_ok {ε : Type} {x : Except ε α} {f : α → Except ε β} :
    x >>= f = .ok b ↔ ∃ a, x = .ok a ∧ f a = .ok b := by
  cases x with
  | error e => simp [Bind.bind, Except.bind]
  | ok a => simp [Bind.bind, Except.bind]

end Guards

/-- Milliseconds of 0000-01-01T00:00:00.000Z and of 9999-12-31T23:59:59.999Z. -/
def firstInstantMs : ℤ := -62167219200000
def lastInstantMs : ℤ := 253402300799999

def dayMs : ℤ := 86400000

/-- An instant of a four-digit year, in milliseconds since the epoch. -/
structure Instant where
  ms : ℤ
  lower : firstInstantMs ≤ ms
  upper : ms ≤ lastInstantMs
deriving Repr

namespace Instant

theorem first_le_epoch : firstInstantMs ≤ 0 := by decide

theorem epoch_le_last : 0 ≤ lastInstantMs := by decide

def epoch : Instant := ⟨0, first_le_epoch, epoch_le_last⟩

theorem ext_ms {a b : Instant} (h : a.ms = b.ms) : a = b := by
  cases a; cases b; simpa using h

instance : LinearOrder Instant := LinearOrder.lift' Instant.ms fun _ _ => ext_ms

/-- The UTC calendar day, counted from the epoch. -/
def day (i : Instant) : ℤ := i.ms / dayMs

theorem day_mono {a b : Instant} (h : a ≤ b) : a.day ≤ b.day := by
  have hms : a.ms ≤ b.ms := h
  unfold day dayMs
  omega

/-- The instant of `ms`, for a millisecond count between two instants. -/
def between (ms : ℤ) (lo hi : Instant) (hlo : lo.ms ≤ ms) (hhi : ms ≤ hi.ms) : Instant :=
  ⟨ms, le_trans lo.lower hlo, le_trans hhi hi.upper⟩

/-- `ms` moved into `[lo, hi]`; `lo` wins where the bounds cross. -/
def clamp (lo hi : Instant) (ms : ℤ) : Instant :=
  if h : ms < lo.ms then lo
  else if h' : hi.ms < ms then hi
  else between ms lo hi (not_lt.mp h) (not_lt.mp h')

theorem le_clamp {lo hi : Instant} (h : lo ≤ hi) (ms : ℤ) : lo ≤ clamp lo hi ms := by
  unfold clamp
  split
  · exact le_refl lo.ms
  · split
    · exact h
    · rename_i hlo _
      exact not_lt.mp hlo

theorem clamp_le {lo hi : Instant} (h : lo ≤ hi) (ms : ℤ) : clamp lo hi ms ≤ hi := by
  unfold clamp
  split
  · exact h
  · split
    · exact le_refl hi.ms
    · rename_i _ hhi
      exact not_lt.mp hhi

end Instant
end PaymentNode
