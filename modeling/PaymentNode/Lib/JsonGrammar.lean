import PaymentNode.Lib.JsonText

/-!
# JsonGrammar — JSON texts and the values they stand for

The grammar of RFC 8259 over a set of blanks, and a reader that accepts exactly the texts of the grammar.  An object
keeps the members of its text in order, repeated names included; `evaluate` is the object `JSON.parse` builds from
them.  Numbers are a type `N` with a reading of numerals.
-/

namespace JsonGrammar

open JsonText

inductive Json (N : Type)
  | null
  | bool (b : Bool)
  | number (n : N)
  | string (s : Text)
  | array (items : List (Json N))
  | object (members : List (Text × Json N))

/-- The code units a token starts with or is made of. -/
def isToken (c : CodeUnit) : Bool := isDigit c || (units "{}[],:\"-.eEtfn").contains c

/-- A set of blanks, none of which a token needs. -/
structure Blanks where
  has : CodeUnit → Bool
  apart : ∀ c, has c = true → isToken c = false

/-- Space, tab, line feed and carriage return. -/
def jsonBlanks : Blanks where
  has c := c == 32 || c == 9 || c == 10 || c == 13
  apart c h := by
    simp only [Bool.or_eq_true, beq_iff_eq] at h
    rcases h with ((rfl | rfl) | rfl) | rfl <;> decide

section Grammar

variable {N : Type} (blanks : Blanks) (num : Text → N)

def Blank (w : Text) : Prop := ∀ c ∈ w, blanks.has c = true

mutual

inductive IsValue : Text → Json N → Prop
  | null : IsValue (units "null") .null
  | true : IsValue (units "true") (.bool true)
  | false : IsValue (units "false") (.bool false)
  | number {s : Text} (h : IsNumber s) : IsValue s (.number (num s))
  | string {s x : Text} (h : Chars s x) : IsValue (unit '"' :: (s ++ [unit '"'])) (.string x)
  | emptyArray {w : Text} (h : Blank blanks w) : IsValue (unit '[' :: (w ++ [unit ']'])) (.array [])
  | array {s : Text} {xs : List (Json N)} (h : IsItems s xs) : IsValue (unit '[' :: (s ++ [unit ']'])) (.array xs)
  | emptyObject {w : Text} (h : Blank blanks w) : IsValue (unit '{' :: (w ++ [unit '}'])) (.object [])
  | object {s : Text} {ms : List (Text × Json N)} (h : IsMembers s ms) :
      IsValue (unit '{' :: (s ++ [unit '}'])) (.object ms)

/-- A value between blanks; a JSON text is one of these. -/
inductive IsText : Text → Json N → Prop
  | padded {w v w' : Text} {x : Json N} (hbefore : Blank blanks w) (h : IsValue v x) (hafter : Blank blanks w') :
      IsText (w ++ (v ++ w')) x

inductive IsItems : Text → List (Json N) → Prop
  | one {s : Text} {x : Json N} (h : IsText s x) : IsItems s [x]
  | more {s t : Text} {x : Json N} {xs : List (Json N)} (h : IsText s x) (hs : IsItems t xs) :
      IsItems (s ++ unit ',' :: t) (x :: xs)

inductive IsMembers : Text → List (Text × Json N) → Prop
  | one {w k name w' s : Text} {x : Json N} (hbefore : Blank blanks w) (hname : Chars k name)
      (hafter : Blank blanks w') (h : IsText s x) :
      IsMembers (w ++ unit '"' :: (k ++ unit '"' :: (w' ++ unit ':' :: s))) [(name, x)]
  | more {w k name w' s t : Text} {x : Json N} {ms : List (Text × Json N)} (hbefore : Blank blanks w)
      (hname : Chars k name) (hafter : Blank blanks w') (h : IsText s x) (hs : IsMembers t ms) :
      IsMembers (w ++ unit '"' :: (k ++ unit '"' :: (w' ++ unit ':' :: (s ++ unit ',' :: t)))) ((name, x) :: ms)

end

/-! ## The reader -/

def skip (t : Text) : Text := t.dropWhile blanks.has

/-- What follows the given code unit, where the text starts with it. -/
def after (c : CodeUnit) : Text → Option Text
  | [] => none
  | d :: rest => if d = c then some rest else none

mutual

def readValue : ℕ → Text → Option (Json N × Text)
  | 0, _ => none
  | fuel + 1, t =>
    match skip blanks t with
    | [] => none
    | c :: rest =>
      if c = unit '{' then
        match after (unit '}') (skip blanks rest) with
        | some rest => some (.object [], rest)
        | none => (readMembers fuel (skip blanks rest)).map fun (ms, rest) => (.object ms, rest)
      else if c = unit '[' then
        match after (unit ']') (skip blanks rest) with
        | some rest => some (.array [], rest)
        | none => (readItems fuel (skip blanks rest)).map fun (xs, rest) => (.array xs, rest)
      else if c = unit '"' then (readChars rest).map fun (x, rest) => (.string x, rest)
      else if units "true" <+: c :: rest then some (.bool true, (c :: rest).drop 4)
      else if units "false" <+: c :: rest then some (.bool false, (c :: rest).drop 5)
      else if units "null" <+: c :: rest then some (.null, (c :: rest).drop 4)
      else (takeNumber (c :: rest)).map fun (s, rest) => (.number (num s), rest)

/-- The items up to the closing bracket. -/
def readItems : ℕ → Text → Option (List (Json N) × Text)
  | 0, _ => none
  | fuel + 1, t => do
    let (x, rest) ← readValue fuel t
    match skip blanks rest with
    | [] => none
    | c :: rest =>
      if c = unit ']' then some ([x], rest)
      else if c = unit ',' then (readItems fuel rest).map fun (xs, rest) => (x :: xs, rest)
      else none

/-- The members up to the closing brace. -/
def readMembers : ℕ → Text → Option (List (Text × Json N) × Text)
  | 0, _ => none
  | fuel + 1, t => do
    let opened ← after (unit '"') (skip blanks t)
    let (name, rest) ← readChars opened
    let rest ← after (unit ':') (skip blanks rest)
    let (x, rest) ← readValue fuel rest
    match skip blanks rest with
    | [] => none
    | c :: rest =>
      if c = unit '}' then some ([(name, x)], rest)
      else if c = unit ',' then (readMembers fuel rest).map fun (ms, rest) => ((name, x) :: ms, rest)
      else none

end

/-- The value of a whole text. -/
def read (t : Text) : Option (Json N) :=
  match readValue blanks num (2 * t.length) t with
  | some (x, rest) => if skip blanks rest = [] then some x else none
  | none => none

end Grammar

section Blanks

variable {blanks : Blanks} {c : CodeUnit} {w t : Text}

theorem skip_append (hw : Blank blanks w) (t : Text) : skip blanks (w ++ t) = skip blanks t :=
  List.dropWhile_append_of_pos hw

theorem skip_token (h : isToken c = true) (t : Text) : skip blanks (c :: t) = c :: t := by
  have hblank : blanks.has c = false := by
    by_contra hc
    rw [blanks.apart c (by simpa using hc)] at h
    exact absurd h (by decide)
  rw [skip, List.dropWhile_cons_of_neg (by rw [hblank]; decide)]

theorem skip_blank (hw : Blank blanks w) : skip blanks w = [] := by
  have h := skip_append hw []
  rwa [List.append_nil] at h

theorem skip_spec (blanks : Blanks) (t : Text) : ∃ w, Blank blanks w ∧ t = w ++ skip blanks t :=
  ⟨t.takeWhile blanks.has, fun _ hc => List.mem_takeWhile_imp hc, List.takeWhile_append_dropWhile.symm⟩

theorem blank_of_skip (h : skip blanks t = []) : Blank blanks t := by
  obtain ⟨w, hw, hsplit⟩ := skip_spec blanks t
  rw [h, List.append_nil] at hsplit
  exact hsplit ▸ hw

theorem skip_skip (blanks : Blanks) (t : Text) : skip blanks (skip blanks t) = skip blanks t := by
  obtain ⟨w, hw, hsplit⟩ := skip_spec blanks t
  have h := skip_append hw (skip blanks t)
  rw [← hsplit] at h
  exact h.symm

theorem blank_nil : Blank blanks [] := fun _ hc => absurd hc List.not_mem_nil

theorem blank_append {u : Text} (hw : Blank blanks w) (hu : Blank blanks u) : Blank blanks (w ++ u) :=
  List.forall_mem_append.mpr ⟨hw, hu⟩

@[simp] theorem after_eq_some {rest : Text} : after c t = some rest ↔ t = c :: rest := by
  cases t with
  | nil => simp [after]
  | cons d t =>
    rw [after]
    split_ifs with h
    · simp [h]
    · simp [h]

end Blanks

section Reading

variable {N : Type} {blanks : Blanks} {num : Text → N}

/-! ## What is read is in the grammar -/

theorem isPrefix_drop {p t : Text} (h : p <+: t) : t = p ++ t.drop p.length := by
  obtain ⟨r, rfl⟩ := h
  rw [List.drop_left]

def ValueSound (blanks : Blanks) (num : Text → N) (fuel : ℕ) : Prop :=
  ∀ t x rest, readValue blanks num fuel t = some (x, rest) →
    ∃ w v, t = w ++ (v ++ rest) ∧ Blank blanks w ∧ IsValue blanks num v x

def ItemsSound (blanks : Blanks) (num : Text → N) (fuel : ℕ) : Prop :=
  ∀ t xs rest, readItems blanks num fuel t = some (xs, rest) →
    ∃ s, t = s ++ unit ']' :: rest ∧ IsItems blanks num s xs

def MembersSound (blanks : Blanks) (num : Text → N) (fuel : ℕ) : Prop :=
  ∀ t ms rest, readMembers blanks num fuel t = some (ms, rest) →
    ∃ s, t = s ++ unit '}' :: rest ∧ IsMembers blanks num s ms

theorem isItems_blank {w s : Text} {xs : List (Json N)} (hw : Blank blanks w) (h : IsItems blanks num s xs) :
    IsItems blanks num (w ++ s) xs := by
  cases h with
  | one h =>
    obtain ⟨hbefore, hv, hafter⟩ := h
    have h := IsText.padded (blank_append hw hbefore) hv hafter
    rw [List.append_assoc] at h
    exact .one h
  | more h hs =>
    obtain ⟨hbefore, hv, hafter⟩ := h
    have h := IsText.padded (blank_append hw hbefore) hv hafter
    rw [List.append_assoc] at h
    rw [← List.append_assoc]
    exact .more h hs

theorem isMembers_blank {w s : Text} {ms : List (Text × Json N)} (hw : Blank blanks w)
    (h : IsMembers blanks num s ms) : IsMembers blanks num (w ++ s) ms := by
  cases h with
  | one hbefore hname hafter h =>
    rw [← List.append_assoc]
    exact .one (blank_append hw hbefore) hname hafter h
  | more hbefore hname hafter h hs =>
    rw [← List.append_assoc]
    exact .more (blank_append hw hbefore) hname hafter h hs

variable {fuel : ℕ}

theorem value_sound (hitems : ItemsSound blanks num fuel) (hmembers : MembersSound blanks num fuel) :
    ValueSound blanks num (fuel + 1) := by
  intro t x rest h
  obtain ⟨w, hw, hsplit⟩ := skip_spec blanks t
  rw [readValue] at h
  cases hskip : skip blanks t with
  | nil => simp [hskip] at h
  | cons c r =>
    obtain ⟨u, hu, hinner⟩ := skip_spec blanks r
    rw [hskip] at hsplit h
    refine ⟨w, ?_⟩
    suffices ∃ v, c :: r = v ++ rest ∧ IsValue blanks num v x by
      obtain ⟨v, hv, hvalue⟩ := this
      exact ⟨v, by rw [hsplit, hv], hw, hvalue⟩
    simp only at h
    split_ifs at h with hbrace hbracket hquote htrue hfalse hnull
    · cases hclose : after (unit '}') (skip blanks r) with
      | some r' =>
        simp only [hclose, Option.some.injEq, Prod.mk.injEq] at h
        obtain ⟨rfl, rfl⟩ := h
        rw [after_eq_some] at hclose
        exact ⟨_, by rw [hinner, hclose, hbrace]; simp, .emptyObject hu⟩
      | none =>
        simp only [hclose, Option.map_eq_some_iff, Prod.mk.injEq] at h
        obtain ⟨⟨ms, r'⟩, hread, rfl, rfl⟩ := h
        obtain ⟨s, hs, hms⟩ := hmembers _ _ _ hread
        exact ⟨_, by rw [hinner, hs, hbrace]; simp, .object (isMembers_blank hu hms)⟩
    · cases hclose : after (unit ']') (skip blanks r) with
      | some r' =>
        simp only [hclose, Option.some.injEq, Prod.mk.injEq] at h
        obtain ⟨rfl, rfl⟩ := h
        rw [after_eq_some] at hclose
        exact ⟨_, by rw [hinner, hclose, hbracket]; simp, .emptyArray hu⟩
      | none =>
        simp only [hclose, Option.map_eq_some_iff, Prod.mk.injEq] at h
        obtain ⟨⟨xs, r'⟩, hread, rfl, rfl⟩ := h
        obtain ⟨s, hs, hxs⟩ := hitems _ _ _ hread
        exact ⟨_, by rw [hinner, hs, hbracket]; simp, .array (isItems_blank hu hxs)⟩
    · simp only [Option.map_eq_some_iff, Prod.mk.injEq] at h
      obtain ⟨⟨y, r'⟩, hread, rfl, rfl⟩ := h
      obtain ⟨s, rfl, hs⟩ := chars_of_readChars hread
      exact ⟨_, by rw [hquote]; simp, .string hs⟩
    · cases h
      exact ⟨_, isPrefix_drop htrue, .true⟩
    · cases h
      exact ⟨_, isPrefix_drop hfalse, .false⟩
    · cases h
      exact ⟨_, isPrefix_drop hnull, .null⟩
    · simp only [Option.map_eq_some_iff, Prod.mk.injEq] at h
      obtain ⟨⟨s, r'⟩, hread, rfl, rfl⟩ := h
      obtain ⟨hnumber, hs⟩ := isNumber_of_takeNumber hread
      exact ⟨s, hnumber, .number hs⟩

variable {c : CodeUnit}

theorem isText_of_read (hvalue : ValueSound blanks num fuel) {t rest : Text} {x : Json N}
    {r : Text} (h : readValue blanks num fuel t = some (x, rest)) (hskip : skip blanks rest = c :: r) :
    ∃ s, t = s ++ c :: r ∧ IsText blanks num s x := by
  obtain ⟨w, v, ht, hw, hv⟩ := hvalue _ _ _ h
  obtain ⟨w', hw', hrest⟩ := skip_spec blanks rest
  rw [hskip] at hrest
  exact ⟨_, by rw [ht, hrest]; simp, .padded hw hv hw'⟩

theorem items_sound (hvalue : ValueSound blanks num fuel) (hitems : ItemsSound blanks num fuel) :
    ItemsSound blanks num (fuel + 1) := by
  intro t xs rest h
  simp only [readItems, Option.bind_eq_bind, Option.bind_eq_some_iff] at h
  obtain ⟨⟨x, r⟩, hread, h⟩ := h
  cases hskip : skip blanks r with
  | nil => simp [hskip] at h
  | cons c r' =>
    obtain ⟨s, rfl, hs⟩ := isText_of_read hvalue hread hskip
    simp only [hskip] at h
    split_ifs at h with hclose hcomma
    · cases h
      exact ⟨s, by rw [hclose], .one hs⟩
    · simp only [Option.map_eq_some_iff, Prod.mk.injEq] at h
      obtain ⟨⟨xs', r''⟩, hmore, rfl, rfl⟩ := h
      obtain ⟨s', rfl, hs'⟩ := hitems _ _ _ hmore
      exact ⟨_, by rw [hcomma]; simp, .more hs hs'⟩

theorem members_sound (hvalue : ValueSound blanks num fuel) (hmembers : MembersSound blanks num fuel) :
    MembersSound blanks num (fuel + 1) := by
  intro t ms rest h
  simp only [readMembers, Option.bind_eq_bind, Option.bind_eq_some_iff, after_eq_some] at h
  obtain ⟨opened, hopen, ⟨name, r₁⟩, hname, r₂, hcolon, ⟨x, r₃⟩, hread, h⟩ := h
  obtain ⟨w, hw, ht⟩ := skip_spec blanks t
  obtain ⟨k, hk, hchars⟩ := chars_of_readChars hname
  obtain ⟨w', hw', hr₁⟩ := skip_spec blanks r₁
  rw [hopen, hk, hr₁, hcolon] at ht
  cases hskip : skip blanks r₃ with
  | nil => simp [hskip] at h
  | cons c r' =>
    obtain ⟨s, hr₂, hs⟩ := isText_of_read hvalue hread hskip
    rw [hr₂] at ht
    simp only [hskip] at h
    split_ifs at h with hclose hcomma
    · cases h
      exact ⟨_, by rw [ht, hclose]; simp, .one hw hchars hw' hs⟩
    · simp only [Option.map_eq_some_iff, Prod.mk.injEq] at h
      obtain ⟨⟨ms', r''⟩, hmore, rfl, rfl⟩ := h
      obtain ⟨s', hr', hs'⟩ := hmembers _ _ _ hmore
      exact ⟨_, by rw [ht, hcomma, hr']; simp, .more hw hchars hw' hs hs'⟩

theorem sound (blanks : Blanks) (num : Text → N) (fuel : ℕ) :
    ValueSound blanks num fuel ∧ ItemsSound blanks num fuel ∧ MembersSound blanks num fuel := by
  induction fuel with
  | zero =>
    refine ⟨fun t x rest h => ?_, fun t xs rest h => ?_, fun t ms rest h => ?_⟩
    · simp [readValue] at h
    · simp [readItems] at h
    · simp [readMembers] at h
  | succ fuel ih =>
    obtain ⟨hvalue, hitems, hmembers⟩ := ih
    exact ⟨value_sound hitems hmembers, items_sound hvalue hitems, members_sound hvalue hmembers⟩

/-! ## What is in the grammar is read -/

def Follows (blanks : Blanks) (rest : Text) : Prop :=
  ∀ c ∈ rest.head?, blanks.has c = true ∨ c = unit ',' ∨ c = unit ']' ∨ c = unit '}'

theorem endsNumber_of_follows {rest : Text} (h : Follows blanks rest) : EndsNumber rest := by
  intro c hc
  rcases h c hc with hblank | rfl | rfl | rfl
  · have hapart := blanks.apart c hblank
    simp only [isToken, Bool.or_eq_false_iff] at hapart
    refine ⟨hapart.1, ?_, ?_⟩
    · rintro rfl
      exact absurd hapart.2 (by decide)
    · unfold isExponentMark
      rw [Bool.or_eq_false_iff, beq_eq_false_iff_ne, beq_eq_false_iff_ne]
      constructor <;> rintro rfl <;> exact absurd hapart.2 (by decide)
  all_goals decide

theorem follows_nil : Follows blanks [] := fun _ hc => by simp at hc

theorem follows_cons {rest : Text} (hc : c = unit ',' ∨ c = unit ']' ∨ c = unit '}') :
    Follows blanks (c :: rest) := by
  intro d hd
  obtain rfl : c = d := by simpa using hd
  exact .inr hc

theorem follows_blank {w rest : Text} (hw : Blank blanks w) (h : Follows blanks rest) : Follows blanks (w ++ rest) := by
  cases w with
  | nil => exact h
  | cons c w =>
    intro d hd
    obtain rfl : c = d := by simpa using hd
    exact .inl (hw c List.mem_cons_self)

/-- A code unit a value can start with. -/
def starts (c : CodeUnit) : Bool := isToken c && c != unit ']' && c != unit '}'

theorem starts_digit {d : CodeUnit} (hd : isDigit d = true) : starts d = true := by
  have hclose : d ≠ unit ']' ∧ d ≠ unit '}' := by
    constructor <;> rintro rfl <;> exact absurd hd (by decide)
  simp [starts, isToken, hd, hclose]

theorem isNumber_first {s : Text} (h : IsNumber s) : ∃ c r, s = c :: r ∧ (c = unit '-' ∨ isDigit c = true) := by
  obtain ⟨sign, i, f, e, rfl, hsign, hi, _, _⟩ := h
  obtain ⟨d, r, rfl, hd⟩ := hi.head
  rcases hsign with rfl | rfl
  · exact ⟨d, _, rfl, .inr hd⟩
  · exact ⟨_, _, rfl, .inl rfl⟩

theorem isValue_first {v : Text} {x : Json N} (h : IsValue blanks num v x) :
    ∃ c r, v = c :: r ∧ starts c = true := by
  cases h with
  | number h =>
    obtain ⟨c, r, rfl, hc⟩ := isNumber_first h
    refine ⟨c, r, rfl, ?_⟩
    rcases hc with rfl | hd
    · decide
    · exact starts_digit hd
  | _ => exact ⟨_, _, rfl, by decide⟩

theorem isToken_of_starts (h : starts c = true) : isToken c = true := by
  simp only [starts, Bool.and_eq_true] at h
  exact h.1.1

theorem skip_value {v t : Text} {x : Json N} (h : IsValue blanks num v x) : skip blanks (v ++ t) = v ++ t := by
  obtain ⟨c, r, rfl, hc⟩ := isValue_first h
  exact skip_token (isToken_of_starts hc) _

/-- A bracket does not close where an item starts. -/
theorem not_closed_items {s rest : Text} {xs : List (Json N)} (h : IsItems blanks num s xs) :
    after (unit ']') (skip blanks (s ++ rest)) = none := by
  have hstart : ∀ {s x} (t : Text), IsText blanks num s x → after (unit ']') (skip blanks (s ++ t)) = none := by
    rintro _ _ t ⟨hw, hv, _⟩
    obtain ⟨c, r, rfl, hc⟩ := isValue_first hv
    have hclose : c ≠ unit ']' := by
      rintro rfl
      exact absurd hc (by decide)
    rw [List.append_assoc, skip_append hw, List.append_assoc, List.cons_append,
      skip_token (isToken_of_starts hc), after, if_neg hclose]
  cases h with
  | one h => exact hstart _ h
  | more h _ =>
    rw [List.append_assoc]
    exact hstart _ h

theorem not_closed_members {s rest : Text} {ms : List (Text × Json N)} (h : IsMembers blanks num s ms) :
    after (unit '}') (skip blanks (s ++ rest)) = none := by
  cases h with
  | one hw _ _ _ =>
    rw [List.append_assoc, skip_append hw, List.cons_append, skip_token (by decide)]
    rfl
  | more hw _ _ _ _ =>
    rw [List.append_assoc, skip_append hw, List.cons_append, skip_token (by decide)]
    rfl

def ValueComplete (blanks : Blanks) (num : Text → N) (fuel : ℕ) : Prop :=
  ∀ w v x rest, Blank blanks w → IsValue blanks num v x → Follows blanks rest → 2 * v.length ≤ fuel →
    readValue blanks num fuel (w ++ (v ++ rest)) = some (x, rest)

def ItemsComplete (blanks : Blanks) (num : Text → N) (fuel : ℕ) : Prop :=
  ∀ s xs rest, IsItems blanks num s xs → 2 * s.length + 1 ≤ fuel →
    readItems blanks num fuel (s ++ unit ']' :: rest) = some (xs, rest)

def MembersComplete (blanks : Blanks) (num : Text → N) (fuel : ℕ) : Prop :=
  ∀ s ms rest, IsMembers blanks num s ms → 2 * s.length + 1 ≤ fuel →
    readMembers blanks num fuel (s ++ unit '}' :: rest) = some (ms, rest)

section Heads

variable {fuel : ℕ} {t rest : Text}

theorem readValue_brace (h : skip blanks t = unit '{' :: rest) :
    readValue blanks num (fuel + 1) t =
      match after (unit '}') (skip blanks rest) with
      | some rest => some (.object [], rest)
      | none => (readMembers blanks num fuel (skip blanks rest)).map fun (ms, rest) => (.object ms, rest) := by
  rw [readValue]
  simp only [h, if_true]

theorem readValue_bracket (h : skip blanks t = unit '[' :: rest) :
    readValue blanks num (fuel + 1) t =
      match after (unit ']') (skip blanks rest) with
      | some rest => some (.array [], rest)
      | none => (readItems blanks num fuel (skip blanks rest)).map fun (xs, rest) => (.array xs, rest) := by
  rw [readValue]
  simp only [h, if_neg (show unit '[' ≠ unit '{' by decide), if_true]

theorem readValue_quote (h : skip blanks t = unit '"' :: rest) :
    readValue blanks num (fuel + 1) t = (readChars rest).map fun (x, rest) => (.string x, rest) := by
  rw [readValue]
  simp only [h, if_neg (show unit '"' ≠ unit '{' by decide), if_neg (show unit '"' ≠ unit '[' by decide), if_true]

theorem readValue_number (h : skip blanks t = c :: rest) (hc : c = unit '-' ∨ isDigit c = true) :
    readValue blanks num (fuel + 1) t =
      (takeNumber (c :: rest)).map fun (s, rest) => (.number (num s), rest) := by
  have hother : ∀ k ∈ units "\x7b[\"tfn", c ≠ k := by
    rintro k hk rfl
    have hall : ((units "\x7b[\"tfn").all fun k => k != unit '-' && !isDigit k) = true := by decide
    have hnone := List.all_eq_true.mp hall _ hk
    simp only [Bool.and_eq_true, bne_iff_ne, Bool.not_eq_true'] at hnone
    rcases hc with rfl | hd
    · exact hnone.1 rfl
    · exact absurd hd (by rw [hnone.2]; decide)
  have hword : ∀ p, (∃ k ∈ units "\x7b[\"tfn", p.head? = some k) → ¬ p <+: c :: rest := by
    rintro p ⟨k, hk, hp⟩ hprefix
    cases p with
    | nil => simp at hp
    | cons d p =>
      obtain rfl : d = k := by simpa using hp
      exact hother d hk (List.cons_prefix_cons.mp hprefix).1.symm
  rw [readValue]
  simp only [h]
  rw [if_neg (hother _ (by decide)), if_neg (hother _ (by decide)), if_neg (hother _ (by decide)),
    if_neg (hword _ ⟨unit 't', by decide, by decide⟩), if_neg (hword _ ⟨unit 'f', by decide, by decide⟩),
    if_neg (hword _ ⟨unit 'n', by decide, by decide⟩)]

theorem readValue_skip : readValue blanks num fuel (skip blanks t) = readValue blanks num fuel t := by
  cases fuel with
  | zero => rfl
  | succ fuel => rw [readValue, readValue, skip_skip]

theorem readItems_skip : readItems blanks num fuel (skip blanks t) = readItems blanks num fuel t := by
  cases fuel with
  | zero => rfl
  | succ fuel => rw [readItems, readItems, readValue_skip]

theorem readMembers_skip : readMembers blanks num fuel (skip blanks t) = readMembers blanks num fuel t := by
  cases fuel with
  | zero => rfl
  | succ fuel => rw [readMembers, readMembers, skip_skip]

theorem readValue_null (h : skip blanks t = units "null" ++ rest) :
    readValue blanks num (fuel + 1) t = some (.null, rest) := by
  rw [readValue]
  simp only [h]
  rfl

theorem readValue_true (h : skip blanks t = units "true" ++ rest) :
    readValue blanks num (fuel + 1) t = some (.bool true, rest) := by
  rw [readValue]
  simp only [h]
  rfl

theorem readValue_false (h : skip blanks t = units "false" ++ rest) :
    readValue blanks num (fuel + 1) t = some (.bool false, rest) := by
  rw [readValue]
  simp only [h]
  rfl

end Heads

theorem value_complete (hitems : ItemsComplete blanks num fuel)
    (hmembers : MembersComplete blanks num fuel) : ValueComplete blanks num (fuel + 1) := by
  intro w v x rest hw hv hrest hfuel
  have hskip : skip blanks (w ++ (v ++ rest)) = v ++ rest := by rw [skip_append hw, skip_value hv]
  cases hv with
  | null => exact readValue_null hskip
  | true => exact readValue_true hskip
  | false => exact readValue_false hskip
  | number hs =>
    obtain ⟨c, r, rfl, hc⟩ := isNumber_first hs
    have htake := takeNumber_of_isNumber hs (endsNumber_of_follows hrest)
    rw [readValue_number hskip hc]
    exact congrArg (Option.map fun p => (Json.number (num p.1), p.2)) htake
  | @string s y hs =>
    rw [readValue_quote (show _ = unit '"' :: (s ++ unit '"' :: rest) by rw [hskip]; simp), readChars_of_chars hs]
    rfl
  | @emptyArray u hu =>
    rw [readValue_bracket (show _ = unit '[' :: (u ++ unit ']' :: rest) by rw [hskip]; simp), skip_append hu,
      skip_token (by decide)]
    rfl
  | @array s xs hs =>
    have hlength : 2 * s.length + 1 ≤ fuel := by
      simp only [List.length_cons, List.length_append] at hfuel
      omega
    rw [readValue_bracket (show _ = unit '[' :: (s ++ unit ']' :: rest) by rw [hskip]; simp), not_closed_items hs, readItems_skip,
      hitems _ _ _ hs hlength]
    rfl
  | @emptyObject u hu =>
    rw [readValue_brace (show _ = unit '{' :: (u ++ unit '}' :: rest) by rw [hskip]; simp), skip_append hu, skip_token (by decide)]
    rfl
  | @object s ms hs =>
    have hlength : 2 * s.length + 1 ≤ fuel := by
      simp only [List.length_cons, List.length_append] at hfuel
      omega
    rw [readValue_brace (show _ = unit '{' :: (s ++ unit '}' :: rest) by rw [hskip]; simp), not_closed_members hs,
      readMembers_skip, hmembers _ _ _ hs hlength]
    rfl

/-- Reading a padded value: it ends at the first code unit after the blanks that follow it. -/
theorem read_isText (hvalue : ValueComplete blanks num fuel) {s r : Text} {x : Json N}
    (h : IsText blanks num s x) (hc : c = unit ',' ∨ c = unit ']' ∨ c = unit '}') (hfuel : 2 * s.length ≤ fuel) :
    ∃ rest, readValue blanks num fuel (s ++ c :: r) = some (x, rest) ∧ skip blanks rest = c :: r := by
  obtain @⟨w, v, w', _, hw, hv, hw'⟩ := h
  simp only [List.length_append] at hfuel
  refine ⟨w' ++ c :: r, ?_, ?_⟩
  · rw [List.append_assoc, List.append_assoc]
    exact hvalue w v x _ hw hv (follows_blank hw' (follows_cons hc)) (by omega)
  · have htoken : isToken c = true := by rcases hc with rfl | rfl | rfl <;> decide
    rw [skip_append hw', skip_token htoken]

theorem items_complete (hvalue : ValueComplete blanks num fuel) (hitems : ItemsComplete blanks num fuel) :
    ItemsComplete blanks num (fuel + 1) := by
  intro s xs rest h hfuel
  cases h with
  | one h =>
    obtain ⟨r, hread, hskip⟩ := read_isText hvalue (r := rest) h (.inr (.inl rfl)) (by omega)
    rw [readItems, hread]
    simp only [Option.bind_eq_bind, Option.bind_some, hskip, if_true]
  | @more s t x xs h hs =>
    simp only [List.length_append, List.length_cons] at hfuel
    obtain ⟨r, hread, hskip⟩ := read_isText hvalue (r := t ++ unit ']' :: rest) h (.inl rfl) (by omega)
    rw [List.append_assoc, List.cons_append, readItems, hread]
    simp only [Option.bind_eq_bind, Option.bind_some, hskip, if_neg (show unit ',' ≠ unit ']' by decide), if_true]
    rw [hitems _ _ _ hs (by omega)]
    rfl

theorem members_complete (hvalue : ValueComplete blanks num fuel)
    (hmembers : MembersComplete blanks num fuel) : MembersComplete blanks num (fuel + 1) := by
  intro s ms rest h hfuel
  cases h with
  | @one w k name w' s x hw hname hw' h =>
    simp only [List.length_append, List.length_cons] at hfuel
    obtain ⟨r, hread, hskip⟩ := read_isText hvalue (r := rest) h (.inr (.inr rfl)) (by omega)
    simp only [List.append_assoc, List.cons_append, readMembers, skip_append hw, skip_token (c := unit '"') (by decide),
      after, if_true, Option.bind_eq_bind, Option.bind_some, readChars_of_chars hname, skip_append hw',
      skip_token (c := unit ':') (by decide), hread, hskip]
  | @more w k name w' s t x ms hw hname hw' h hs =>
    simp only [List.length_append, List.length_cons] at hfuel
    obtain ⟨r, hread, hskip⟩ := read_isText hvalue (r := t ++ unit '}' :: rest) h (.inl rfl) (by omega)
    simp only [List.append_assoc, List.cons_append, readMembers, skip_append hw, skip_token (c := unit '"') (by decide),
      after, if_true, Option.bind_eq_bind, Option.bind_some, readChars_of_chars hname, skip_append hw',
      skip_token (c := unit ':') (by decide), hread, hskip, if_neg (show unit ',' ≠ unit '}' by decide)]
    rw [hmembers _ _ _ hs (by omega)]
    rfl

theorem complete (blanks : Blanks) (num : Text → N) (fuel : ℕ) :
    ValueComplete blanks num fuel ∧ ItemsComplete blanks num fuel ∧ MembersComplete blanks num fuel := by
  induction fuel with
  | zero =>
    refine ⟨fun w v x rest _ hv _ hfuel => ?_, fun s xs rest _ hfuel => ?_, fun s ms rest _ hfuel => ?_⟩
    · obtain ⟨c, r, rfl, _⟩ := isValue_first hv
      simp at hfuel
    · omega
    · omega
  | succ fuel ih =>
    obtain ⟨hvalue, hitems, hmembers⟩ := ih
    exact ⟨value_complete hitems hmembers, items_complete hvalue hitems, members_complete hvalue hmembers⟩

/-- The reader accepts exactly the grammar. -/
theorem read_eq_some_iff {t : Text} {x : Json N} : read blanks num t = some x ↔ IsText blanks num t x := by
  constructor
  · intro h
    unfold read at h
    cases hread : readValue blanks num (2 * t.length) t with
    | none => simp [hread] at h
    | some result =>
      obtain ⟨y, rest⟩ := result
      simp only [hread] at h
      split_ifs at h with hend
      obtain rfl : y = x := by simpa using h
      obtain ⟨w, v, rfl, hw, hv⟩ := (sound blanks num _).1 _ _ _ hread
      exact .padded hw hv (blank_of_skip hend)
  · rintro @⟨w, v, w', _, hw, hv, hw'⟩
    have hfollows : Follows blanks w' := by
      have h : Follows blanks (w' ++ []) := follows_blank hw' follows_nil
      rwa [List.append_nil] at h
    have hlength : 2 * v.length ≤ 2 * (w ++ (v ++ w')).length := by
      simp only [List.length_append]
      omega
    have hread := (complete blanks num _).1 w v x w' hw hv hfollows hlength
    unfold read
    rw [hread]
    simp only [skip_blank hw', if_true]

/-- A text stands for one value. -/
theorem isText_unique {t : Text} {x y : Json N} (hx : IsText blanks num t x) (hy : IsText blanks num t y) : x = y := by
  rw [← read_eq_some_iff] at hx hy
  rw [hx] at hy
  exact Option.some.inj hy

end Reading

end JsonGrammar
