import Mathlib

/-!
# JsonText — the tokens of JSON

A text is a list of UTF-16 code units, as an ECMAScript string is.  A string literal is read from its first character
to its closing quote; a number is the longest run the number grammar admits.  `quote` is the ECMAScript
`QuoteJSONString`.
-/

namespace JsonText

instance neZeroUnits : NeZero 65536 := ⟨by decide⟩

abbrev CodeUnit := Fin 65536

abbrev Text := List CodeUnit

def unit (c : Char) : CodeUnit := Fin.ofNat 65536 c.toNat

def units (s : String) : Text := s.toList.map unit

/-! ## String literals -/

/-- What a backslash and one more character stand for. -/
def shortEscape (e : CodeUnit) : Option CodeUnit :=
  if e = unit '"' ∨ e = unit '\\' ∨ e = unit '/' then some e
  else if e = unit 'b' then some 8
  else if e = unit 'f' then some 12
  else if e = unit 'n' then some 10
  else if e = unit 'r' then some 13
  else if e = unit 't' then some 9
  else none

variable (c : CodeUnit)

def hexValue : Option ℕ :=
  if 48 ≤ c.val ∧ c.val ≤ 57 then some (c.val - 48)
  else if 97 ≤ c.val ∧ c.val ≤ 102 then some (c.val - 87)
  else if 65 ≤ c.val ∧ c.val ≤ 70 then some (c.val - 55)
  else none

/-- What `\uabcd` stands for. -/
def fourHex (a b c d : CodeUnit) : Option CodeUnit := do
  let w ← hexValue a
  let x ← hexValue b
  let y ← hexValue c
  let z ← hexValue d
  some (Fin.ofNat 65536 (4096 * w + 256 * x + 16 * y + z))

/-- The text between the quotes of a literal, and the string it stands for. -/
inductive Chars : Text → Text → Prop
  | done : Chars [] []
  | plain {c : CodeUnit} {s x : Text} (hquote : c ≠ unit '"') (hslash : c ≠ unit '\\') (hcontrol : 32 ≤ c.val)
      (h : Chars s x) : Chars (c :: s) (c :: x)
  | short {e y : CodeUnit} {s x : Text} (hescape : shortEscape e = some y) (h : Chars s x) :
      Chars (unit '\\' :: e :: s) (y :: x)
  | code {a b c d y : CodeUnit} {s x : Text} (hescape : fourHex a b c d = some y) (h : Chars s x) :
      Chars (unit '\\' :: unit 'u' :: a :: b :: c :: d :: s) (y :: x)

/-- Reads up to the closing quote: the string, and what follows. -/
def readChars : Text → Option (Text × Text)
  | [] => none
  | c :: rest =>
    if c = unit '"' then some ([], rest)
    else if c = unit '\\' then
      match rest with
      | [] => none
      | e :: rest =>
        if e = unit 'u' then
          match rest with
          | a :: b :: c :: d :: rest => do
            let y ← fourHex a b c d
            let (x, after) ← readChars rest
            some (y :: x, after)
          | _ => none
        else do
          let y ← shortEscape e
          let (x, after) ← readChars rest
          some (y :: x, after)
    else if c.val < 32 then none
    else do
      let (x, after) ← readChars rest
      some (c :: x, after)

theorem shortEscape_u : shortEscape (unit 'u') = none := by decide

section Reading

variable {c e y : CodeUnit} {rest : Text}

theorem readChars_quote : readChars (unit '"' :: rest) = some ([], rest) := by
  rw [readChars.eq_def]
  rfl

theorem readChars_plain (hquote : c ≠ unit '"') (hslash : c ≠ unit '\\') (hcontrol : 32 ≤ c.val) :
    readChars (c :: rest) = (readChars rest).map fun (x, after) => (c :: x, after) := by
  rw [readChars.eq_def]
  simp only [if_neg hquote, if_neg hslash, if_neg (show ¬ c.val < 32 by omega)]
  cases readChars rest <;> rfl

theorem readChars_short (hescape : shortEscape e = some y) :
    readChars (unit '\\' :: e :: rest) = (readChars rest).map fun (x, after) => (y :: x, after) := by
  have hu : e ≠ unit 'u' := by
    rintro rfl
    rw [shortEscape_u] at hescape
    exact absurd hescape (by simp)
  rw [readChars.eq_def]
  simp only [if_neg (show unit '\\' ≠ unit '"' by decide), if_true, if_neg hu, hescape]
  cases readChars rest <;> rfl

theorem readChars_code {a b c d : CodeUnit} (hescape : fourHex a b c d = some y) :
    readChars (unit '\\' :: unit 'u' :: a :: b :: c :: d :: rest) =
      (readChars rest).map fun (x, after) => (y :: x, after) := by
  rw [readChars.eq_def]
  simp only [if_neg (show unit '\\' ≠ unit '"' by decide), if_true, hescape]
  cases readChars rest <;> rfl

end Reading

theorem chars_of_readChars {t x rest : Text} (h : readChars t = some (x, rest)) :
    ∃ s, t = s ++ unit '"' :: rest ∧ Chars s x := by
  induction t using readChars.induct generalizing x with
  | case1 => exact absurd h (by simp [readChars])
  | case2 r =>
    rw [readChars_quote, Option.some.injEq, Prod.mk.injEq] at h
    obtain ⟨rfl, rfl⟩ := h
    exact ⟨[], rfl, .done⟩
  | case3 hquote => exact absurd h (by simp [readChars, hquote])
  | case4 a b c d r hquote ih =>
    rw [readChars.eq_def] at h
    simp only [if_neg hquote, if_true, Option.bind_eq_bind, Option.bind_eq_some_iff, Option.some.injEq,
      Prod.mk.injEq] at h
    obtain ⟨y, hy, ⟨x', after⟩, hr, rfl, rfl⟩ := h
    obtain ⟨s, rfl, hs⟩ := ih hr
    exact ⟨_, rfl, .code hy hs⟩
  | case5 r hshape hquote =>
    rw [readChars.eq_def] at h
    simp only [if_neg hquote, if_true] at h
    exact absurd h (by simp)
  | case6 e r hu hquote ih =>
    rw [readChars.eq_def] at h
    simp only [if_neg hquote, if_true, if_neg hu, Option.bind_eq_bind, Option.bind_eq_some_iff, Option.some.injEq,
      Prod.mk.injEq] at h
    obtain ⟨y, hy, ⟨x', after⟩, hr, rfl, rfl⟩ := h
    obtain ⟨s, rfl, hs⟩ := ih hr
    exact ⟨_, rfl, .short hy hs⟩
  | case7 c r hquote hslash hcontrol =>
    rw [readChars.eq_def] at h
    exact absurd h (by simp [hquote, hslash, hcontrol])
  | case8 c r hquote hslash hcontrol ih =>
    rw [readChars_plain hquote hslash (by omega), Option.map_eq_some_iff] at h
    obtain ⟨⟨x', after⟩, hr, heq⟩ := h
    rw [Prod.mk.injEq] at heq
    obtain ⟨rfl, rfl⟩ := heq
    obtain ⟨s, rfl, hs⟩ := ih hr
    exact ⟨_, rfl, .plain hquote hslash (by omega) hs⟩

theorem readChars_of_chars {s x : Text} (h : Chars s x) (rest : Text) :
    readChars (s ++ unit '"' :: rest) = some (x, rest) := by
  induction h with
  | done => exact readChars_quote
  | plain hquote hslash hcontrol _ ih => rw [List.cons_append, readChars_plain hquote hslash hcontrol, ih]; rfl
  | short hescape _ ih => rw [List.cons_append, List.cons_append, readChars_short hescape, ih]; rfl
  | code hescape _ ih =>
    simp only [List.cons_append]
    rw [readChars_code hescape, ih]
    rfl

theorem readChars_eq_some_iff {t x rest : Text} :
    readChars t = some (x, rest) ↔ ∃ s, t = s ++ unit '"' :: rest ∧ Chars s x := by
  constructor
  · exact chars_of_readChars
  · rintro ⟨s, rfl, hs⟩
    exact readChars_of_chars hs rest

/-! ## Quoting -/

def isLead : Bool := 0xD800 ≤ c.val && c.val ≤ 0xDBFF

def isTrail : Bool := 0xDC00 ≤ c.val && c.val ≤ 0xDFFF

def shortQuote : Option CodeUnit :=
  if c = unit '"' ∨ c = unit '\\' then some c
  else if c = 8 then some (unit 'b')
  else if c = 9 then some (unit 't')
  else if c = 10 then some (unit 'n')
  else if c = 12 then some (unit 'f')
  else if c = 13 then some (unit 'r')
  else none

def hexDigit (n : ℕ) : CodeUnit := Fin.ofNat 65536 (if n < 10 then n + 48 else n + 87)

def unicodeEscape : Text :=
  [unit '\\', unit 'u', hexDigit (c.val / 4096), hexDigit (c.val / 256 % 16), hexDigit (c.val / 16 % 16),
    hexDigit (c.val % 16)]

/-- A surrogate pair is copied; a surrogate that stands alone is escaped. -/
def quoteChars : Text → Text
  | [] => []
  | c :: rest =>
    match shortQuote c with
    | some e => unit '\\' :: e :: quoteChars rest
    | none =>
      if c.val < 32 then unicodeEscape c ++ quoteChars rest
      else if isLead c then
        match rest with
        | d :: rest => if isTrail d then c :: d :: quoteChars rest else unicodeEscape c ++ quoteChars (d :: rest)
        | [] => unicodeEscape c
      else if isTrail c then unicodeEscape c ++ quoteChars rest
      else c :: quoteChars rest

def quote (s : Text) : Text := unit '"' :: quoteChars s ++ [unit '"']

theorem hexValue_hexDigit {n : ℕ} (h : n < 16) : hexValue (hexDigit n) = some n := by
  have hall : ∀ k : Fin 16, hexValue (hexDigit k.val) = some k.val := by decide
  exact hall ⟨n, h⟩

theorem fourHex_hexDigits :
    fourHex (hexDigit (c.val / 4096)) (hexDigit (c.val / 256 % 16)) (hexDigit (c.val / 16 % 16))
      (hexDigit (c.val % 16)) = some c := by
  have hc := c.isLt
  have hsum : 4096 * (c.val / 4096) + 256 * (c.val / 256 % 16) + 16 * (c.val / 16 % 16) + c.val % 16 = c.val := by
    omega
  have hlt : c.val / 4096 < 16 := by omega
  unfold fourHex
  rw [hexValue_hexDigit hlt, hexValue_hexDigit (Nat.mod_lt _ (by decide)),
    hexValue_hexDigit (Nat.mod_lt _ (by decide)), hexValue_hexDigit (Nat.mod_lt _ (by decide))]
  show some (Fin.ofNat 65536 (4096 * (c.val / 4096) + 256 * (c.val / 256 % 16) + 16 * (c.val / 16 % 16) +
    c.val % 16)) = some c
  rw [hsum, Option.some.injEq]
  exact Fin.ext (Nat.mod_eq_of_lt hc)

theorem shortEscape_shortQuote {c e : CodeUnit} (h : shortQuote c = some e) : shortEscape e = some c := by
  unfold shortQuote at h
  split_ifs at h with hself h8 h9 h10 h12 h13 <;> simp only [Option.some.injEq] at h
  · subst h
    rcases hself with rfl | rfl <;> decide
  all_goals subst_vars; decide

theorem plain_of_shortQuote {c : CodeUnit} (h : shortQuote c = none) : c ≠ unit '"' ∧ c ≠ unit '\\' := by
  constructor
  · rintro rfl
    exact absurd h (by decide)
  · rintro rfl
    exact absurd h (by decide)

theorem chars_unicodeEscape {s x : Text} (c : CodeUnit) (h : Chars s x) : Chars (unicodeEscape c ++ s) (c :: x) :=
  .code (fourHex_hexDigits c) h

theorem plain_of_ge {c : CodeUnit} (h : 128 ≤ c.val) : c ≠ unit '"' ∧ c ≠ unit '\\' ∧ 32 ≤ c.val := by
  refine ⟨?_, ?_, by omega⟩
  · rintro rfl
    exact absurd h (by decide)
  · rintro rfl
    exact absurd h (by decide)

/-- What is written for a string is a literal of that string. -/
theorem chars_quoteChars (s : Text) : Chars (quoteChars s) s := by
  induction s using quoteChars.induct with
  | case1 => exact .done
  | case2 c rest e he ih =>
    rw [quoteChars.eq_def]
    simp only [he]
    exact .short (shortEscape_shortQuote he) ih
  | case3 c rest he hcontrol ih =>
    rw [quoteChars.eq_def]
    simp only [he, if_pos hcontrol]
    exact chars_unicodeEscape c ih
  | case4 c he hcontrol hlead d rest htrail ih =>
    have hc : 128 ≤ c.val := by simp [isLead] at hlead; omega
    have hd : 128 ≤ d.val := by simp [isTrail] at htrail; omega
    rw [quoteChars.eq_def]
    simp only [he, if_neg hcontrol, if_pos hlead, if_pos htrail]
    obtain ⟨hcq, hcs, hcc⟩ := plain_of_ge hc
    obtain ⟨hdq, hds, hdc⟩ := plain_of_ge hd
    exact .plain hcq hcs hcc (.plain hdq hds hdc ih)
  | case5 c he hcontrol hlead d rest htrail ih =>
    rw [quoteChars.eq_def]
    simp only [he, if_neg hcontrol, if_pos hlead, if_neg htrail]
    exact chars_unicodeEscape c ih
  | case6 c he hcontrol hlead =>
    rw [quoteChars.eq_def]
    simp only [he, if_neg hcontrol, if_pos hlead]
    rw [← List.append_nil (unicodeEscape c)]
    exact chars_unicodeEscape c .done
  | case7 c rest he hcontrol hlead htrail ih =>
    rw [quoteChars.eq_def]
    simp only [he, if_neg hcontrol, if_neg hlead, if_pos htrail]
    exact chars_unicodeEscape c ih
  | case8 c rest he hcontrol hlead htrail ih =>
    rw [quoteChars.eq_def]
    simp only [he, if_neg hcontrol, if_neg hlead, if_neg htrail]
    obtain ⟨hquote, hslash⟩ := plain_of_shortQuote he
    exact .plain hquote hslash (by omega) ih

/-! ## Numbers -/

def isDigit : Bool := 48 ≤ c.val && c.val ≤ 57

def AllDigits (s : Text) : Prop := ∀ c ∈ s, isDigit c = true

/-- `0|[1-9][0-9]*` -/
def IsInteger (s : Text) : Prop := s = [unit '0'] ∨ ∃ d r, s = d :: r ∧ d ≠ unit '0' ∧ AllDigits (d :: r)

/-- `(\.[0-9]+)?` -/
def IsFraction (s : Text) : Prop := s = [] ∨ ∃ d r, s = unit '.' :: d :: r ∧ AllDigits (d :: r)

def isExponentMark : Bool := c == unit 'e' || c == unit 'E'

def isSign : Bool := c == unit '+' || c == unit '-'

/-- `([eE][+-]?[0-9]+)?` -/
def IsExponent (s : Text) : Prop :=
  s = [] ∨ ∃ m sign d r, s = m :: (sign ++ d :: r) ∧ isExponentMark m = true ∧
    (sign = [] ∨ ∃ c, sign = [c] ∧ isSign c = true) ∧ AllDigits (d :: r)

/-- `-?` and the three parts above. -/
def IsNumber (s : Text) : Prop :=
  ∃ sign i f e, s = sign ++ (i ++ (f ++ e)) ∧ (sign = [] ∨ sign = [unit '-']) ∧ IsInteger i ∧ IsFraction f ∧
    IsExponent e

/-- The longest prefix in a class, and what follows. -/
def digitRun (t : Text) : Text × Text := (t.takeWhile isDigit, t.dropWhile isDigit)

def takeInteger : Text → Option (Text × Text)
  | [] => none
  | c :: rest =>
    if c = unit '0' then some ([c], rest)
    else if isDigit c then some (c :: (digitRun rest).1, (digitRun rest).2)
    else none

def takeFraction : Text → Text × Text
  | c :: d :: rest =>
    if c = unit '.' ∧ isDigit d = true then (c :: d :: (digitRun rest).1, (digitRun rest).2)
    else ([], c :: d :: rest)
  | t => ([], t)

def takeSign : Text → Text × Text
  | c :: rest => if isSign c then ([c], rest) else ([], c :: rest)
  | [] => ([], [])

def takeExponent : Text → Text × Text
  | [] => ([], [])
  | c :: rest =>
    if isExponentMark c then
      match (takeSign rest).2 with
      | d :: after =>
        if isDigit d then (c :: ((takeSign rest).1 ++ d :: (digitRun after).1), (digitRun after).2)
        else ([], c :: rest)
      | [] => ([], c :: rest)
    else ([], c :: rest)

def takeMinus : Text → Text × Text
  | c :: rest => if c = unit '-' then ([c], rest) else ([], c :: rest)
  | [] => ([], [])

/-- The longest number the text starts with, and what follows. -/
def takeNumber (t : Text) : Option (Text × Text) := do
  let (i, rest) ← takeInteger (takeMinus t).2
  some ((takeMinus t).1 ++ (i ++ ((takeFraction rest).1 ++ (takeExponent (takeFraction rest).2).1)),
    (takeExponent (takeFraction rest).2).2)

/-- Nothing that could belong to a number before it. -/
def EndsNumber (rest : Text) : Prop :=
  ∀ c ∈ rest.head?, isDigit c = false ∧ c ≠ unit '.' ∧ isExponentMark c = false

def EndsDigits (rest : Text) : Prop := ∀ c ∈ rest.head?, isDigit c = false

section Digits

variable {r rest : Text}

theorem digitRun_append (hr : AllDigits r) (hrest : EndsDigits rest) : digitRun (r ++ rest) = (r, rest) := by
  unfold digitRun
  rw [List.takeWhile_append_of_pos hr, List.dropWhile_append_of_pos hr]
  cases rest with
  | nil => simp
  | cons c rest =>
    have hc : isDigit c = false := hrest c rfl
    simp [hc]

theorem digitRun_spec (t : Text) : t = (digitRun t).1 ++ (digitRun t).2 ∧ AllDigits (digitRun t).1 :=
  ⟨List.takeWhile_append_dropWhile.symm, fun _ hc => List.mem_takeWhile_imp hc⟩

theorem AllDigits.cons {d : CodeUnit} (hd : isDigit d = true) (hr : AllDigits r) : AllDigits (d :: r) :=
  List.forall_mem_cons.mpr ⟨hd, hr⟩

theorem EndsNumber.digits (h : EndsNumber rest) : EndsDigits rest := fun c hc => (h c hc).1

end Digits

section Parts

variable {t s rest : Text}

theorem takeInteger_sound (h : takeInteger t = some (s, rest)) : t = s ++ rest ∧ IsInteger s := by
  cases t with
  | nil => exact absurd h (by simp [takeInteger])
  | cons c r =>
    rw [takeInteger] at h
    split_ifs at h with hzero hdigit
    · cases h
      exact ⟨rfl, .inl (by rw [hzero])⟩
    · cases h
      obtain ⟨heq, hall⟩ := digitRun_spec r
      exact ⟨congrArg (c :: ·) heq, .inr ⟨c, _, rfl, hzero, hall.cons hdigit⟩⟩

theorem takeInteger_complete (h : IsInteger s) (hrest : EndsDigits rest) :
    takeInteger (s ++ rest) = some (s, rest) := by
  rcases h with rfl | ⟨d, r, rfl, hzero, hall⟩
  · rfl
  · obtain ⟨hd, hr⟩ := List.forall_mem_cons.mp hall
    rw [List.cons_append, takeInteger, if_neg hzero, if_pos hd, digitRun_append hr hrest]

theorem takeFraction_sound (t : Text) :
    t = (takeFraction t).1 ++ (takeFraction t).2 ∧ IsFraction (takeFraction t).1 := by
  unfold takeFraction
  split
  · split_ifs with h
    · obtain ⟨rfl, hd⟩ := h
      rename_i d r
      obtain ⟨heq, hall⟩ := digitRun_spec r
      exact ⟨congrArg (unit '.' :: d :: ·) heq, .inr ⟨d, _, rfl, hall.cons hd⟩⟩
    · exact ⟨rfl, .inl rfl⟩
  · exact ⟨rfl, .inl rfl⟩

theorem takeFraction_complete (h : IsFraction s) (hrest : EndsDigits rest) (hpoint : rest.head? ≠ some (unit '.')) :
    takeFraction (s ++ rest) = (s, rest) := by
  rcases h with rfl | ⟨d, r, rfl, hall⟩
  · rw [List.nil_append]
    unfold takeFraction
    split
    · rename_i c d r
      have hc : c ≠ unit '.' := fun hc => hpoint (by rw [hc]; rfl)
      rw [if_neg fun h => hc h.1]
    · rfl
  · obtain ⟨hd, hr⟩ := List.forall_mem_cons.mp hall
    show takeFraction (unit '.' :: d :: (r ++ rest)) = _
    rw [takeFraction, if_pos ⟨rfl, hd⟩, digitRun_append hr hrest]

theorem takeSign_sound (t : Text) :
    t = (takeSign t).1 ++ (takeSign t).2 ∧ ((takeSign t).1 = [] ∨ ∃ c, (takeSign t).1 = [c] ∧ isSign c = true) := by
  cases t with
  | nil => exact ⟨rfl, .inl rfl⟩
  | cons c r =>
    rw [takeSign]
    split_ifs with h
    · exact ⟨rfl, .inr ⟨c, rfl, h⟩⟩
    · exact ⟨rfl, .inl rfl⟩

theorem takeSign_complete {d : CodeUnit} (h : s = [] ∨ ∃ c, s = [c] ∧ isSign c = true) (hd : isDigit d = true) :
    takeSign (s ++ d :: rest) = (s, d :: rest) := by
  rcases h with rfl | ⟨c, rfl, hc⟩
  · have hsign : isSign d = false := by
      unfold isSign
      rw [Bool.or_eq_false_iff, beq_eq_false_iff_ne, beq_eq_false_iff_ne]
      constructor <;> rintro rfl <;> exact absurd hd (by decide)
    rw [List.nil_append, takeSign, if_neg (by rw [hsign]; decide)]
  · rw [List.singleton_append, takeSign, if_pos hc]

theorem takeExponent_sound (t : Text) :
    t = (takeExponent t).1 ++ (takeExponent t).2 ∧ IsExponent (takeExponent t).1 := by
  cases t with
  | nil => exact ⟨rfl, .inl rfl⟩
  | cons c r =>
    obtain ⟨hsplit, hsign⟩ := takeSign_sound r
    rw [takeExponent]
    split_ifs with hmark
    · split
      · rename_i d after hafter
        split_ifs with hd
        · obtain ⟨heq, hall⟩ := digitRun_spec after
          refine ⟨?_, .inr ⟨c, _, d, _, rfl, hmark, hsign, hall.cons hd⟩⟩
          rw [hafter, heq] at hsplit
          rw [List.cons_append, List.append_assoc, List.cons_append]
          exact congrArg (c :: ·) hsplit
        · exact ⟨rfl, .inl rfl⟩
      · exact ⟨rfl, .inl rfl⟩
    · exact ⟨rfl, .inl rfl⟩

theorem takeExponent_complete (h : IsExponent s) (hrest : EndsNumber rest) :
    takeExponent (s ++ rest) = (s, rest) := by
  rcases h with rfl | ⟨m, sign, d, r, rfl, hmark, hsign, hall⟩
  · rw [List.nil_append]
    cases rest with
    | nil => rfl
    | cons c rest =>
      have hc : isExponentMark c = false := (hrest c rfl).2.2
      rw [takeExponent, if_neg (by rw [hc]; decide)]
  · obtain ⟨hd, hr⟩ := List.forall_mem_cons.mp hall
    have hshape : m :: (sign ++ d :: r) ++ rest = m :: (sign ++ d :: (r ++ rest)) := by simp
    rw [hshape, takeExponent, if_pos hmark, takeSign_complete hsign hd]
    simp only [if_pos hd, digitRun_append hr hrest.digits]

theorem takeMinus_sound (t : Text) :
    t = (takeMinus t).1 ++ (takeMinus t).2 ∧ ((takeMinus t).1 = [] ∨ (takeMinus t).1 = [unit '-']) := by
  cases t with
  | nil => exact ⟨rfl, .inl rfl⟩
  | cons c r =>
    rw [takeMinus]
    split_ifs with h
    · exact ⟨rfl, .inr (by rw [h])⟩
    · exact ⟨rfl, .inl rfl⟩

theorem IsInteger.head (h : IsInteger s) : ∃ d r, s = d :: r ∧ isDigit d = true := by
  rcases h with rfl | ⟨d, r, rfl, _, hall⟩
  · exact ⟨_, _, rfl, by decide⟩
  · exact ⟨d, r, rfl, hall d List.mem_cons_self⟩

theorem takeMinus_complete (h : s = [] ∨ s = [unit '-']) {i : Text} (hi : IsInteger i) :
    takeMinus (s ++ (i ++ rest)) = (s, i ++ rest) := by
  rcases h with rfl | rfl
  · obtain ⟨d, r, rfl, hd⟩ := hi.head
    have hminus : d ≠ unit '-' := by
      rintro rfl
      exact absurd hd (by decide)
    rw [List.nil_append, List.cons_append, takeMinus, if_neg hminus]
  · rfl

theorem IsExponent.ends (h : IsExponent s) (hrest : EndsNumber rest) :
    EndsDigits (s ++ rest) ∧ (s ++ rest).head? ≠ some (unit '.') := by
  rcases h with rfl | ⟨m, sign, d, r, rfl, hmark, _, _⟩
  · exact ⟨hrest.digits, fun hpoint => (hrest _ hpoint).2.1 rfl⟩
  · have hm : m = unit 'e' ∨ m = unit 'E' := by simpa [isExponentMark] using hmark
    refine ⟨fun c hc => ?_, fun hpoint => ?_⟩
    · obtain rfl : m = c := by simpa using hc
      rcases hm with rfl | rfl <;> decide
    · obtain rfl : m = unit '.' := by simpa using hpoint
      rcases hm with hm | hm <;> exact absurd hm (by decide)

theorem IsFraction.ends (h : IsFraction s) (hrest : EndsDigits rest) : EndsDigits (s ++ rest) := by
  rcases h with rfl | ⟨d, r, rfl, _⟩
  · exact hrest
  · intro c hc
    obtain rfl : unit '.' = c := by simpa using hc
    decide

end Parts

theorem isNumber_of_takeNumber {t s rest : Text} (h : takeNumber t = some (s, rest)) :
    t = s ++ rest ∧ IsNumber s := by
  simp only [takeNumber, Option.bind_eq_bind, Option.bind_eq_some_iff, Option.some.injEq, Prod.mk.injEq] at h
  obtain ⟨⟨i, r⟩, hinteger, rfl, rfl⟩ := h
  obtain ⟨hm, hsign⟩ := takeMinus_sound t
  obtain ⟨hi, hint⟩ := takeInteger_sound hinteger
  obtain ⟨hf, hfrac⟩ := takeFraction_sound r
  obtain ⟨he, hexp⟩ := takeExponent_sound (takeFraction r).2
  refine ⟨?_, _, _, _, _, rfl, hsign, hint, hfrac, hexp⟩
  rw [List.append_assoc, List.append_assoc, List.append_assoc, ← he, ← hf, ← hi, ← hm]

theorem takeNumber_of_isNumber {s rest : Text} (h : IsNumber s) (hrest : EndsNumber rest) :
    takeNumber (s ++ rest) = some (s, rest) := by
  obtain ⟨sign, i, f, e, rfl, hsign, hi, hf, he⟩ := h
  obtain ⟨hdigits, hpoint⟩ := he.ends hrest
  have hassoc : sign ++ (i ++ (f ++ e)) ++ rest = sign ++ (i ++ (f ++ (e ++ rest))) := by
    simp only [List.append_assoc]
  rw [hassoc, takeNumber, takeMinus_complete hsign hi, takeInteger_complete hi (hf.ends hdigits)]
  simp only [Option.bind_eq_bind, Option.bind_some, takeFraction_complete hf hdigits hpoint,
    takeExponent_complete he hrest]

end JsonText
