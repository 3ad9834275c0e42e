import Mathlib.Data.List.Infix
import Mathlib.Data.List.Count

/-!
# Chain — blocks, extensions, account nonces and time

A chain is a list of blocks, its newest block first, so a chain that extends another has it as a suffix and a
block is the chain that ends in it.  An account's transactions carry the nonces 0, 1, 2, … in the order of
their inclusion (`Sequential`): a chain whose nonce is past some transaction's holds that transaction already
or never will.  Timestamps never decrease (`Timed`).  Nothing here names a program.
-/

namespace Chain

structure Block (τ : Type) where
  timestamp : ℕ
  transactions : List τ
  /-- What else tells two blocks apart. -/
  salt : ℕ
deriving DecidableEq, Repr

variable {τ α : Type}

/-- The transactions of a chain, the last one first. -/
def included (c : List (Block τ)) : List τ := c.flatMap fun b => b.transactions.reverse

/-- The number of the block a chain ends in. -/
def height (c : List (Block τ)) : ℕ := c.length - 1

@[simp] theorem included_cons (b : Block τ) (c : List (Block τ)) :
    included (b :: c) = b.transactions.reverse ++ included c := rfl

theorem included_append (c d : List (Block τ)) : included (c ++ d) = included c ++ included d :=
  List.flatMap_append

variable {c d : List (Block τ)}

theorem included_suffix (h : c <:+ d) : included c <:+ included d := by
  rcases h with ⟨above, rfl⟩
  rw [included_append]
  exact List.suffix_append _ _

theorem mem_included_of_suffix {t : τ} (h : c <:+ d) (ht : t ∈ included c) :
    t ∈ included d :=
  (included_suffix h).subset ht

/-- An included transaction is in one block. -/
theorem exists_block {c : List (Block τ)} {t : τ} (h : t ∈ included c) :
    ∃ b below, b :: below <:+ c ∧ t ∈ b.transactions := by
  induction c with
  | nil => cases h
  | cons b below ih =>
    rw [included_cons, List.mem_append, List.mem_reverse] at h
    rcases h with hb | hbelow
    · exact ⟨b, below, List.suffix_refl _, hb⟩
    · rcases ih hbelow with ⟨b', below', hsuffix, ht⟩
      exact ⟨b', below', hsuffix.trans (List.suffix_cons _ _), ht⟩

/-- Of two blocks of one chain, the lower one is below the other. -/
theorem suffix_of_length_le {c d e : List (Block τ)} (hc : c <:+ e) (hd : d <:+ e)
    (h : c.length ≤ d.length) : c <:+ d :=
  List.suffix_of_suffix_length_le hc hd h

/-! ## Blocks by height -/

/-- The block of a chain at a height. -/
def blockAt (c : List (Block τ)) (n : ℕ) : Option (List (Block τ)) :=
  if n < c.length then some (c.drop (c.length - (n + 1))) else none

theorem blockAt_eq_some {n : ℕ} :
    blockAt c n = some d ↔ d <:+ c ∧ d.length = n + 1 := by
  unfold blockAt
  constructor
  · intro h
    by_cases hn : n < c.length
    · rw [if_pos hn] at h
      cases h
      refine ⟨List.drop_suffix _ _, ?_⟩
      rw [List.length_drop]
      omega
    · rw [if_neg hn] at h
      cases h
  · rintro ⟨hsuffix, hlength⟩
    have hle := hsuffix.length_le
    rw [if_pos (by omega), ← hlength]
    exact congrArg some (List.suffix_iff_eq_drop.mp hsuffix).symm

/-- A chain that extends another has its blocks at their heights. -/
theorem blockAt_of_suffix {c e d : List (Block τ)} {n : ℕ} (h : c <:+ e) (hd : blockAt e n = some d)
    (hn : n < c.length) : d <:+ c := by
  rcases blockAt_eq_some.mp hd with ⟨hsuffix, hlength⟩
  exact suffix_of_length_le hsuffix h (by omega)

/-- A chain that extends another has its blocks. -/
theorem blockAt_extends {c e : List (Block τ)} {n : ℕ} (h : c <:+ e) (hn : n < c.length) :
    blockAt e n = blockAt c n := by
  have hle := h.length_le
  cases hd : blockAt e n with
  | none =>
    unfold blockAt at hd
    rw [if_pos (by omega)] at hd
    cases hd
  | some d =>
    have hlength := (blockAt_eq_some.mp hd).2
    exact (blockAt_eq_some.mpr ⟨blockAt_of_suffix h hd hn, hlength⟩).symm

/-! ## Account nonces -/

section Nonces

variable [DecidableEq α] (sender : τ → α) (nonce : τ → ℕ)

/-- How many transactions of an account are among `txs`: the nonce of its next one. -/
def spent (a : α) (txs : List τ) : ℕ := txs.countP fun t => sender t = a

/-- Each transaction of the account carries the account's nonce of its time. -/
def Sequential (a : α) : List τ → Prop
  | [] => True
  | t :: before => (sender t = a → nonce t = spent sender a before) ∧ Sequential a before

variable {sender nonce} {a : α} {xs ys : List τ} {t : τ}

theorem spent_le_of_suffix (h : ys <:+ xs) : spent sender a ys ≤ spent sender a xs :=
  h.sublist.countP_le

/-- What is included after `ys` carries no nonce that `ys` has spent. -/
theorem Sequential.mem_of_nonce_lt (h : Sequential sender nonce a xs) (hys : ys <:+ xs)
    (ht : t ∈ xs) (hsender : sender t = a) (hlt : nonce t < spent sender a ys) : t ∈ ys := by
  rcases hys with ⟨above, rfl⟩
  induction above with
  | nil => exact ht
  | cons u above ih =>
    rcases List.mem_cons.mp ht with rfl | hbefore
    · have hnonce : nonce t = spent sender a (above ++ ys) := h.1 hsender
      have hle : spent sender a ys ≤ spent sender a (above ++ ys) :=
        spent_le_of_suffix (List.suffix_append _ _)
      omega
    · exact ih h.2 hbefore

end Nonces

/-! ## Time -/

/-- Timestamps never decrease. -/
def Timed : List (Block τ) → Prop
  | [] => True
  | b :: below => (∀ b' ∈ below, b'.timestamp ≤ b.timestamp) ∧ Timed below

/-- Every block above one of a chain is at least as late. -/
theorem Timed.le_of_above {above below : List (Block τ)} {b b' : Block τ}
    (h : Timed (above ++ b :: below)) (hb' : b' ∈ above) : b.timestamp ≤ b'.timestamp := by
  induction above with
  | nil => cases hb'
  | cons u above ih =>
    rcases List.mem_cons.mp hb' with rfl | hrest
    · exact h.1 b (List.mem_append_right _ List.mem_cons_self)
    · exact ih h.2 hrest

/-- Each block is at least `gap` later than the one below it. -/
def Spaced (gap : ℕ) : List (Block τ) → Prop
  | [] => True
  | [_] => True
  | b :: b' :: below => b'.timestamp + gap ≤ b.timestamp ∧ Spaced gap (b' :: below)

theorem Spaced.of_suffix {gap : ℕ} (h : Spaced gap c) (hd : d <:+ c) : Spaced gap d := by
  rcases hd with ⟨above, rfl⟩
  induction above with
  | nil => exact h
  | cons b above ih =>
    apply ih
    cases hrest : above ++ d with
    | nil => trivial
    | cons u rest =>
      rw [List.cons_append, hrest] at h
      exact h.2

/-- Over `k` blocks a spaced chain takes at least `k` gaps. -/
theorem Spaced.le_of_above {gap : ℕ} {above below : List (Block τ)} {b b' : Block τ}
    (h : Spaced gap (b' :: above ++ b :: below)) :
    b.timestamp + gap * (above.length + 1) ≤ b'.timestamp := by
  induction above generalizing b' with
  | nil =>
    have hstep := h.1
    rw [List.length_nil]
    omega
  | cons u above ih =>
    have hstep : u.timestamp + gap ≤ b'.timestamp := h.1
    have hrest := ih h.2
    rw [List.length_cons, Nat.mul_add gap (above.length + 1) 1]
    omega

/-- The same for two blocks of a spaced chain by their heights. -/
theorem Spaced.le_of_height {gap : ℕ} {c below below' : List (Block τ)} {b b' : Block τ} (h : Spaced gap c)
    (hb : b :: below <:+ c) (hb' : b' :: below' <:+ c) (hle : below.length ≤ below'.length) :
    b.timestamp + gap * (below'.length - below.length) ≤ b'.timestamp := by
  have hinside : b :: below <:+ b' :: below' :=
    suffix_of_length_le hb hb' (by simp only [List.length_cons]; omega)
  rcases hinside with ⟨above, habove⟩
  cases above with
  | nil =>
    cases habove
    rw [Nat.sub_self]
    omega
  | cons u above =>
    have hhead : u = b' ∧ above ++ b :: below = below' := List.cons.inj habove
    have hspaced : Spaced gap (b' :: above ++ b :: below) := by
      rw [← hhead.1, habove]
      exact h.of_suffix hb'
    have hgap := hspaced.le_of_above
    have hlength : below'.length = above.length + (below.length + 1) := by
      rw [← hhead.2, List.length_append, List.length_cons]
    have hcount : below'.length - below.length = above.length + 1 := by omega
    rw [hcount]
    exact hgap

end Chain
