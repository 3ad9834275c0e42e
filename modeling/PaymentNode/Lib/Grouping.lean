import Mathlib.Data.List.Sort
import Mathlib.Data.List.Perm.Basic
import Mathlib.Data.List.Nodup

/-!
# Grouping — a list folded into an insertion-ordered map

A `Map` keeps its keys in the order of their first `set`.  `group` runs over a list and lets `step` act on
the entry of each element's key; `get_group` reads an entry back as the fold over the elements of that key
alone, so what a group holds is told without the others.  `sortBy` puts entries in the order of a key; where
the keys are distinct, the order they came in is lost.
-/

namespace Grouping

variable {α β κ : Type*} [DecidableEq κ]

/-- Set the entry of `k` to what `step` makes of it, or of `fresh` where there is none. -/
def update (k : κ) (fresh : β) (step : β → β) : List (κ × β) → List (κ × β)
  | [] => [(k, step fresh)]
  | entry :: rest =>
    if entry.1 = k then (k, step entry.2) :: rest else entry :: update k fresh step rest

def get (k : κ) : List (κ × β) → Option β
  | [] => none
  | entry :: rest => if entry.1 = k then some entry.2 else get k rest

def group (key : α → κ) (fresh : α → β) (step : β → α → β) : List (κ × β) → List α → List (κ × β)
  | m, [] => m
  | m, x :: xs => group key fresh step (update (key x) (fresh x) (step · x) m) xs

section Update

variable {k k' : κ} {fresh v : β} {step : β → β} {m : List (κ × β)}

theorem get_update_self : get k (update k fresh step m) = some (step ((get k m).getD fresh)) := by
  induction m with
  | nil => simp [update, get]
  | cons entry rest ih =>
    by_cases h : entry.1 = k
    · simp [update, get, h]
    · simp [update, get, h, ih]

theorem get_update_of_ne (h : k' ≠ k) : get k' (update k fresh step m) = get k' m := by
  induction m with
  | nil => simp [update, get, Ne.symm h]
  | cons entry rest ih =>
    by_cases hk : entry.1 = k
    · simp [update, get, hk, Ne.symm h]
    · by_cases hk' : entry.1 = k'
      · simp [update, get, hk', h]
      · simp [update, get, hk, hk', ih]

theorem mem_keys_update : k' ∈ (update k fresh step m).map Prod.fst ↔ k' = k ∨ k' ∈ m.map Prod.fst := by
  induction m with
  | nil => simp [update]
  | cons entry rest ih =>
    by_cases hk : entry.1 = k
    · simp [update, hk]
    · rw [update, if_neg hk, List.map_cons, List.mem_cons, ih, List.map_cons, List.mem_cons]
      tauto

theorem nodup_update (h : (m.map Prod.fst).Nodup) : ((update k fresh step m).map Prod.fst).Nodup := by
  induction m with
  | nil => simp [update]
  | cons entry rest ih =>
    rw [List.map_cons, List.nodup_cons] at h
    by_cases hk : entry.1 = k
    · rw [update, if_pos hk, List.map_cons, List.nodup_cons, ← hk]
      exact h
    · rw [update, if_neg hk, List.map_cons, List.nodup_cons]
      refine ⟨?_, ih h.2⟩
      rw [mem_keys_update, not_or]
      exact ⟨hk, h.1⟩

theorem mem_iff_get (h : (m.map Prod.fst).Nodup) : (k, v) ∈ m ↔ get k m = some v := by
  induction m with
  | nil => simp [get]
  | cons entry rest ih =>
    rw [List.map_cons, List.nodup_cons] at h
    by_cases hk : entry.1 = k
    · have hrest : (k, v) ∉ rest := by
        intro hmem
        exact h.1 (hk ▸ List.mem_map_of_mem hmem)
      rw [get, if_pos hk, List.mem_cons, Option.some.injEq]
      constructor
      · rintro (rfl | hmem)
        · rfl
        · exact absurd hmem hrest
      · intro hv
        exact Or.inl (Prod.ext hk.symm hv.symm)
    · have hne : (k, v) ≠ entry := fun heq => hk (by rw [← heq])
      rw [get, if_neg hk, List.mem_cons, ih h.2]
      simp [hne]

theorem get_map {γ : Type*} {f : β → γ} : get k (m.map fun entry => (entry.1, f entry.2)) = (get k m).map f := by
  induction m with
  | nil => rfl
  | cons entry rest ih =>
    by_cases hk : entry.1 = k
    · simp [get, hk]
    · simp [get, hk, ih]

end Update

section Group

variable {key : α → κ} {fresh : α → β} {step : β → α → β} {m m' : List (κ × β)} {k : κ} {xs : List α}

theorem nodup_group (h : (m.map Prod.fst).Nodup) :
    ((group key fresh step m xs).map Prod.fst).Nodup := by
  induction xs generalizing m with
  | nil => exact h
  | cons x xs ih => exact ih (nodup_update h)

/-- What one element does to the entry of its key. -/
def act (fresh : α → β) (step : β → α → β) (entry : Option β) (x : α) : Option β :=
  some (step (entry.getD (fresh x)) x)

theorem foldl_act_some {v : β} : xs.foldl (act fresh step) (some v) = some (xs.foldl step v) := by
  induction xs generalizing v with
  | nil => rfl
  | cons x xs ih => exact ih

theorem foldl_act_cons {x : α} :
    (x :: xs).foldl (act fresh step) none = some ((x :: xs).foldl step (fresh x)) :=
  foldl_act_some

/-- The entry of a key is the fold over the elements of that key. -/
theorem get_group :
    get k (group key fresh step m xs) = (xs.filter fun x => key x = k).foldl (act fresh step) (get k m) := by
  induction xs generalizing m with
  | nil => rfl
  | cons x xs ih =>
    rw [group, ih]
    by_cases h : key x = k
    · subst h
      rw [List.filter_cons_of_pos (by simp), List.foldl_cons, get_update_self, act]
    · rw [List.filter_cons_of_neg (by simpa using h), get_update_of_ne (Ne.symm h)]

/-- Two maps with the same entries differ in their order alone. -/
theorem perm_of_get (h : (m.map Prod.fst).Nodup) (h' : (m'.map Prod.fst).Nodup)
    (hget : ∀ k, get k m = get k m') : m.Perm m' := by
  rw [List.perm_ext_iff_of_nodup (List.Nodup.of_map _ h) (List.Nodup.of_map _ h')]
  rintro ⟨k, v⟩
  rw [mem_iff_get h, mem_iff_get h', hget]

end Group

section SortBy

variable {ι : Type*} [LinearOrder ι] {xs ys : List α}

/-- A stable sort by a key. -/
def sortBy (key : α → ι) (xs : List α) : List α := xs.insertionSort fun a b => key a ≤ key b

@[simp] theorem mem_sortBy {key : α → ι} {x : α} : x ∈ sortBy key xs ↔ x ∈ xs :=
  List.mem_insertionSort _

theorem perm_sortBy (key : α → ι) (xs : List α) : (sortBy key xs).Perm xs :=
  List.perm_insertionSort _ xs

theorem pairwise_sortBy (key : α → ι) (xs : List α) : (sortBy key xs).Pairwise fun a b => key a ≤ key b := by
  have : Std.Total (fun a b : α => key a ≤ key b) := ⟨fun a b => le_total (key a) (key b)⟩
  have : IsTrans α (fun a b => key a ≤ key b) := ⟨fun _ _ _ hab hbc => le_trans hab hbc⟩
  exact List.pairwise_insertionSort _ xs

/-- Entries under distinct keys sort to one list, whatever order they are in. -/
theorem sortBy_eq_of_perm {key : α → ι} (h : xs.Perm ys)
    (hkey : ∀ a ∈ xs, ∀ b ∈ xs, key a = key b → a = b) : sortBy key xs = sortBy key ys := by
  have hperm : (sortBy key xs).Perm (sortBy key ys) :=
    (perm_sortBy key xs).trans (h.trans (perm_sortBy key ys).symm)
  refine hperm.eq_of_pairwise ?_ (pairwise_sortBy key xs) (pairwise_sortBy key ys)
  intro a b ha hb hab hba
  rw [mem_sortBy] at ha hb
  exact hkey a ha b (h.mem_iff.mpr hb) (le_antisymm hab hba)

end SortBy

/-- A list whose keys are distinct is searched by key. -/
theorem find?_eq_some_iff {key : α → κ} {xs : List α} (h : (xs.map key).Nodup) {k : κ} {x : α} :
    xs.find? (fun a => key a = k) = some x ↔ x ∈ xs ∧ key x = k := by
  constructor
  · intro hfind
    exact ⟨List.mem_of_find?_eq_some hfind, by simpa using List.find?_some hfind⟩
  · rintro ⟨hmem, rfl⟩
    cases hfind : xs.find? (fun a => key a = key x) with
    | none =>
      have := List.find?_eq_none.mp hfind x hmem
      simp at this
    | some found =>
      have hfound : key found = key x := by simpa using List.find?_some hfind
      rw [List.inj_on_of_nodup_map h (List.mem_of_find?_eq_some hfind) hmem hfound]

end Grouping
