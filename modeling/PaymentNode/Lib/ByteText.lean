import Mathlib

/-!
# ByteText — text addressed by byte offsets

A text is its characters; its offsets count the bytes of their UTF-8 encoding.  A slice exists when both its ends lie
between two characters.
-/

namespace ByteText

def byteLen (text : List Char) : ℕ := (text.map Char.utf8Size).sum

/-- The characters of the first `n` bytes, if a character ends there. -/
def takeBytes : List Char → ℕ → Option (List Char)
  | _, 0 => some []
  | [], _ + 1 => none
  | c :: rest, n + 1 => if c.utf8Size ≤ n + 1 then (takeBytes rest (n + 1 - c.utf8Size)).map (c :: ·) else none

/-- The characters after the first `n` bytes, if a character ends there. -/
def dropBytes : List Char → ℕ → Option (List Char)
  | text, 0 => some text
  | [], _ + 1 => none
  | c :: rest, n + 1 => if c.utf8Size ≤ n + 1 then dropBytes rest (n + 1 - c.utf8Size) else none

/-- The characters from byte `a` to byte `b`. -/
def slice (text : List Char) (a b : ℕ) : Option (List Char) := (takeBytes text b).bind (dropBytes · a)

def Boundary (text : List Char) (i : ℕ) : Prop := ∃ front rest, text = front ++ rest ∧ byteLen front = i

/-- The character `c` starts at byte `i`. -/
def Holds (text : List Char) (i : ℕ) (c : Char) : Prop := ∃ front rest, text = front ++ c :: rest ∧ byteLen front = i

@[simp] theorem byteLen_nil : byteLen [] = 0 := rfl

@[simp] theorem byteLen_cons (c : Char) (rest : List Char) : byteLen (c :: rest) = c.utf8Size + byteLen rest := by
  simp [byteLen]

@[simp] theorem byteLen_append (a b : List Char) : byteLen (a ++ b) = byteLen a + byteLen b := by
  simp [byteLen]

variable {text : List Char}

theorem byteLen_ascii (h : ∀ c ∈ text, c.toNat < 128) : byteLen text = text.length := by
  induction text with
  | nil => rfl
  | cons c rest ih =>
    obtain ⟨hc, hrest⟩ := List.forall_mem_cons.mp h
    have hsize : c.utf8Size = 1 := Char.utf8Size_eq_one_iff.mpr (Nat.le_of_lt_succ hc)
    rw [byteLen_cons, hsize, ih hrest, List.length_cons, Nat.add_comm]

theorem eq_nil_of_byteLen (h : byteLen text = 0) : text = [] := by
  cases text with
  | nil => rfl
  | cons c rest =>
    have hpos := Char.utf8Size_pos c
    rw [byteLen_cons] at h
    omega

theorem takeBytes_some {text front : List Char} {n : ℕ} :
    takeBytes text n = some front ↔ (∃ rest, text = front ++ rest) ∧ byteLen front = n := by
  induction text generalizing n front with
  | nil =>
    cases n with
    | zero =>
      simp only [takeBytes, Option.some.injEq]
      constructor
      · rintro rfl
        exact ⟨⟨[], rfl⟩, rfl⟩
      · rintro ⟨-, hlen⟩
        exact (eq_nil_of_byteLen hlen).symm
    | succ n =>
      simp only [takeBytes, reduceCtorEq, false_iff]
      rintro ⟨⟨rest, hrest⟩, hlen⟩
      rw [(List.append_eq_nil_iff.mp hrest.symm).1] at hlen
      cases hlen
  | cons c text ih =>
    cases n with
    | zero =>
      simp only [takeBytes, Option.some.injEq]
      constructor
      · rintro rfl
        exact ⟨⟨c :: text, rfl⟩, rfl⟩
      · rintro ⟨-, hlen⟩
        exact (eq_nil_of_byteLen hlen).symm
    | succ n =>
      have hpos := Char.utf8Size_pos c
      rw [takeBytes]
      constructor
      · intro h
        split at h
        · rename_i hle
          obtain ⟨front', hfront, rfl⟩ := Option.map_eq_some_iff.mp h
          obtain ⟨⟨rest, rfl⟩, hlen⟩ := ih.mp hfront
          refine ⟨⟨rest, rfl⟩, ?_⟩
          rw [byteLen_cons]
          omega
        · cases h
      · rintro ⟨⟨rest, hrest⟩, hlen⟩
        cases front with
        | nil => cases hlen
        | cons d front =>
          rw [List.cons_append, List.cons.injEq] at hrest
          obtain ⟨rfl, hrest⟩ := hrest
          rw [byteLen_cons] at hlen
          rw [if_pos (by omega), Option.map_eq_some_iff]
          exact ⟨front, ih.mpr ⟨⟨rest, hrest⟩, by omega⟩, rfl⟩

theorem dropBytes_some {text rest : List Char} {n : ℕ} :
    dropBytes text n = some rest ↔ ∃ front, text = front ++ rest ∧ byteLen front = n := by
  induction text generalizing n with
  | nil =>
    cases n with
    | zero =>
      simp only [dropBytes, Option.some.injEq]
      constructor
      · rintro rfl
        exact ⟨[], rfl, rfl⟩
      · rintro ⟨front, hfront, -⟩
        exact (List.append_eq_nil_iff.mp hfront.symm).2.symm
    | succ n =>
      simp only [dropBytes, reduceCtorEq, false_iff]
      rintro ⟨front, hfront, hlen⟩
      rw [(List.append_eq_nil_iff.mp hfront.symm).1] at hlen
      cases hlen
  | cons c text ih =>
    cases n with
    | zero =>
      simp only [dropBytes, Option.some.injEq]
      constructor
      · rintro rfl
        exact ⟨[], rfl, rfl⟩
      · rintro ⟨front, hfront, hlen⟩
        rw [hfront, eq_nil_of_byteLen hlen, List.nil_append]
    | succ n =>
      have hpos := Char.utf8Size_pos c
      rw [dropBytes]
      constructor
      · intro h
        split at h
        · rename_i hle
          obtain ⟨front, rfl, hlen⟩ := ih.mp h
          refine ⟨c :: front, rfl, ?_⟩
          rw [byteLen_cons]
          omega
        · cases h
      · rintro ⟨front, hfront, hlen⟩
        cases front with
        | nil => cases hlen
        | cons d front =>
          rw [List.cons_append, List.cons.injEq] at hfront
          obtain ⟨rfl, hfront⟩ := hfront
          rw [byteLen_cons] at hlen
          rw [if_pos (by omega)]
          exact ih.mpr ⟨front, hfront, by omega⟩

/-- A text is cut at one place by each byte offset. -/
theorem front_unique {a b c d : List Char} (h : a ++ b = c ++ d) (hlen : byteLen a = byteLen c) : a = c := by
  have ha : takeBytes (a ++ b) (byteLen a) = some a := takeBytes_some.mpr ⟨⟨b, rfl⟩, rfl⟩
  have hc : takeBytes (a ++ b) (byteLen a) = some c := takeBytes_some.mpr ⟨⟨d, h⟩, hlen.symm⟩
  rw [ha] at hc
  exact Option.some.inj hc

theorem slice_some {text t : List Char} {a b : ℕ} : slice text a b = some t ↔
    ∃ front rest, text = front ++ t ++ rest ∧ byteLen front = a ∧ byteLen front + byteLen t = b := by
  unfold slice
  rw [Option.bind_eq_some_iff]
  constructor
  · rintro ⟨upTo, htake, hdrop⟩
    obtain ⟨⟨rest, rfl⟩, hlen⟩ := takeBytes_some.mp htake
    obtain ⟨front, rfl, hfront⟩ := dropBytes_some.mp hdrop
    exact ⟨front, rest, rfl, hfront, by rw [← hlen, byteLen_append]⟩
  · rintro ⟨front, rest, rfl, hfront, hlen⟩
    refine ⟨front ++ t, takeBytes_some.mpr ⟨⟨rest, rfl⟩, by rw [byteLen_append, hlen]⟩, ?_⟩
    exact dropBytes_some.mpr ⟨front, rfl, hfront⟩

theorem slice_isSome {a b : ℕ} (hab : a ≤ b) (ha : Boundary text a) (hb : Boundary text b) :
    ∃ t, slice text a b = some t := by
  obtain ⟨front, rest, rfl, hfront⟩ := ha
  obtain ⟨upTo, after, htext, hupTo⟩ := hb
  rcases List.append_eq_append_iff.mp htext with ⟨t, hupTo', hrest⟩ | ⟨t, hfront', hafter⟩
  · exact ⟨t, slice_some.mpr ⟨front, after, by rw [hrest, List.append_assoc], hfront, by
      rw [← byteLen_append, ← hupTo', hupTo]⟩⟩
  · have hsame : byteLen t = 0 := by
      rw [hfront', byteLen_append] at hfront
      omega
    rw [eq_nil_of_byteLen hsame, List.append_nil] at hfront'
    refine ⟨[], slice_some.mpr ⟨front, rest, by rw [List.append_nil], hfront, ?_⟩⟩
    rw [byteLen_nil, hfront', hupTo, ← hupTo]
    rw [hfront'] at hfront
    omega

/-- Slices that follow each other join. -/
theorem take_slice {text front t : List Char} {a b : ℕ} (hfront : takeBytes text a = some front)
    (ht : slice text a b = some t) : takeBytes text b = some (front ++ t) := by
  obtain ⟨⟨rest, hrest⟩, hlen⟩ := takeBytes_some.mp hfront
  obtain ⟨front', rest', htext, hfront', hend⟩ := slice_some.mp ht
  rw [List.append_assoc] at htext
  have hsame : front' = front := front_unique (htext.symm.trans hrest) (by rw [hfront', hlen])
  rw [hsame, ← List.append_assoc] at htext
  exact takeBytes_some.mpr ⟨⟨rest', htext⟩, by rw [byteLen_append, ← hsame, hend]⟩

theorem take_all {text front : List Char} (h : takeBytes text (byteLen text) = some front) : text = front := by
  obtain ⟨⟨rest, hrest⟩, hlen⟩ := takeBytes_some.mp h
  have hnil : rest = [] := by
    refine eq_nil_of_byteLen ?_
    have hcount := congrArg byteLen hrest
    rw [byteLen_append] at hcount
    omega
  rw [hnil, List.append_nil] at hrest
  exact hrest

theorem Holds.boundary {i : ℕ} {c : Char} (h : Holds text i c) :
    Boundary text i ∧ Boundary text (i + c.utf8Size) := by
  obtain ⟨front, rest, rfl, hlen⟩ := h
  refine ⟨⟨front, c :: rest, rfl, hlen⟩, ⟨front ++ [c], rest, by rw [List.append_assoc]; rfl, ?_⟩⟩
  rw [byteLen_append, byteLen_cons, byteLen_nil, hlen]
  rfl

theorem boundary_zero (text : List Char) : Boundary text 0 := ⟨[], text, rfl, rfl⟩

/-- A one-byte slice is one character of one byte. -/
theorem slice_one {text t : List Char} {i : ℕ} :
    slice text i (i + 1) = some t ↔ ∃ c, t = [c] ∧ c.utf8Size = 1 ∧ Holds text i c := by
  rw [slice_some]
  constructor
  · rintro ⟨front, rest, rfl, hfront, hlen⟩
    cases t with
    | nil =>
      rw [byteLen_nil] at hlen
      omega
    | cons c t =>
      have hpos := Char.utf8Size_pos c
      rw [byteLen_cons] at hlen
      have hnil : t = [] := eq_nil_of_byteLen (by omega)
      subst hnil
      exact ⟨c, rfl, by rw [byteLen_nil] at hlen; omega, front, rest, by rw [List.append_assoc]; rfl, hfront⟩
  · rintro ⟨c, rfl, hsize, front, rest, rfl, hfront⟩
    refine ⟨front, rest, by rw [List.append_assoc]; rfl, hfront, ?_⟩
    rw [byteLen_cons, byteLen_nil, hfront, hsize]

end ByteText
