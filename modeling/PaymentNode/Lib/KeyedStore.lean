import Mathlib.Algebra.BigOperators.Group.List.Basic
import Mathlib.Algebra.GroupWithZero.Nat
import Mathlib.Algebra.Order.BigOperators.Group.List
import Mathlib.Algebra.Order.Group.Nat
import Mathlib.Data.List.Nodup

/-!
# KeyedStore — a finite store of rows under distinct keys, and sums over it

A `KeyedStore key` is a list of rows no two of which share a key: a directory of files, one row a
file.  `put` replaces the row under its key or adds one.  `total f` sums a weight over all rows, and
`total_put` says what one write does to it; that is the only fact about the row list that proofs over
a store need.
-/

/-- Rows under pairwise distinct keys. -/
structure KeyedStore {α κ : Type*} (key : α → κ) where
  rows : List α
  distinct : (rows.map key).Nodup

namespace KeyedStore

variable {α κ : Type*} {key : α → κ}

def empty : KeyedStore key := ⟨[], by simp⟩

instance : Inhabited (KeyedStore key) := ⟨empty⟩

/-- The sum of a weight over all rows. -/
def total (s : KeyedStore key) (f : α → ℕ) : ℕ := (s.rows.map f).sum

@[simp] theorem total_empty (f : α → ℕ) : (empty : KeyedStore key).total f = 0 := rfl

variable {s : KeyedStore key}

theorem total_mono {f g : α → ℕ} (h : ∀ r ∈ s.rows, f r ≤ g r) :
    s.total f ≤ s.total g :=
  List.sum_le_sum h

variable [DecidableEq κ]

/-- The row under `k`, if there is one. -/
def find? (s : KeyedStore key) (k : κ) : Option α :=
  s.rows.find? fun r => key r = k

private theorem map_filter_nodup (s : KeyedStore key) (k : κ) :
    ((s.rows.filter fun r => key r ≠ k).map key).Nodup :=
  s.distinct.sublist (List.Sublist.map key List.filter_sublist)

/-- Write `v` under its key. -/
def put (s : KeyedStore key) (v : α) : KeyedStore key where
  rows := v :: s.rows.filter fun r => key r ≠ key v
  distinct := by
    rw [List.map_cons, List.nodup_cons]
    refine ⟨?_, map_filter_nodup s (key v)⟩
    intro hmem
    obtain ⟨r, hr, hkey⟩ := List.mem_map.mp hmem
    have hne := (List.mem_filter.mp hr).2
    simp [hkey] at hne

/-- Remove the row under `k`. -/
def erase (s : KeyedStore key) (k : κ) : KeyedStore key where
  rows := s.rows.filter fun r => key r ≠ k
  distinct := map_filter_nodup s k

theorem key_of_find? {k : κ} {r : α} (h : s.find? k = some r) : key r = k := by
  simpa using List.find?_some h

theorem mem_of_find? {k : κ} {r : α} (h : s.find? k = some r) : r ∈ s.rows :=
  List.mem_of_find?_eq_some h

theorem mem_put {v r : α} :
    r ∈ (s.put v).rows ↔ r = v ∨ (r ∈ s.rows ∧ key r ≠ key v) := by
  simp [put]

@[simp] theorem find?_put_self (s : KeyedStore key) (v : α) : (s.put v).find? (key v) = some v := by
  simp [find?, put]

theorem find?_put_ne (s : KeyedStore key) (v : α) {k : κ} (h : k ≠ key v) :
    (s.put v).find? k = s.find? k := by
  have hv : ¬ key v = k := fun e => h e.symm
  simp only [find?, put, List.find?_cons, hv, decide_false, List.find?_filter]
  congr 1
  funext r
  by_cases hr : key r = k
  · simp [hr, h]
  · simp [hr]

theorem find?_of_mem {r : α} (h : r ∈ s.rows) : s.find? (key r) = some r := by
  have hfound : (s.find? (key r)).isSome := by
    rw [find?, List.find?_isSome]
    exact ⟨r, h, by simp⟩
  rcases Option.isSome_iff_exists.mp hfound with ⟨r', hr'⟩
  have hkey : key r' = key r := key_of_find? hr'
  rw [hr', List.inj_on_of_nodup_map s.distinct (mem_of_find? hr') h hkey]

@[simp] theorem find?_erase_self (s : KeyedStore key) (k : κ) : (s.erase k).find? k = none := by
  simp [find?, erase]

theorem find?_erase_ne (s : KeyedStore key) {k k' : κ} (h : k' ≠ k) :
    (s.erase k).find? k' = s.find? k' := by
  simp only [find?, erase, List.find?_filter]
  congr 1
  funext r
  by_cases hr : key r = k'
  · simp [hr, h]
  · simp [hr]

private theorem sum_split (l : List α) (hl : (l.map key).Nodup) (f : α → ℕ) (k : κ) :
    (l.map f).sum =
      ((l.filter fun r => key r ≠ k).map f).sum + ((l.find? fun r => key r = k).map f).getD 0 := by
  induction l with
  | nil => simp
  | cons r l ih =>
    rw [List.map_cons, List.nodup_cons] at hl
    have ih := ih hl.2
    by_cases hr : key r = k
    · have hnone : ∀ x ∈ l, key x ≠ k := fun x hx hk => hl.1 (List.mem_map.mpr ⟨x, hx, by rw [hk, hr]⟩)
      have hfilter : (l.filter fun x => key x ≠ k) = l := by
        rw [List.filter_eq_self]
        exact fun x hx => by simpa using hnone x hx
      simp only [List.map_cons, List.sum_cons, hr, ne_eq, not_true_eq_false, decide_false,
        List.filter_cons, List.find?_cons, decide_true, Option.map_some, Option.getD_some]
      rw [show (l.filter fun x => decide ¬ key x = k) = l from hfilter]
      simp [Nat.add_comm]
    · simp only [List.map_cons, List.sum_cons, List.filter_cons, List.find?_cons, ne_eq, hr,
        not_false_eq_true, decide_true, decide_false, if_true]
      rw [ih]
      simp [Nat.add_assoc]

/-- What one write does to a sum: the old row under the key, if any, leaves and the new one joins. -/
theorem total_put (s : KeyedStore key) (f : α → ℕ) (v : α) :
    (s.put v).total f + ((s.find? (key v)).map f).getD 0 = s.total f + f v := by
  have hsplit := sum_split s.rows s.distinct f (key v)
  simp only [total, put, find?, List.map_cons, List.sum_cons]
  omega

theorem total_put_of_some {f : α → ℕ} {v old : α}
    (h : s.find? (key v) = some old) : (s.put v).total f + f old = s.total f + f v := by
  simpa [h] using total_put s f v

theorem total_put_of_none {f : α → ℕ} {v : α}
    (h : s.find? (key v) = none) : (s.put v).total f = s.total f + f v := by
  simpa [h] using total_put s f v

end KeyedStore
