import Mathlib.Data.List.Nodup
import PaymentNode.Basic
import PaymentNode.Lib.JsonObject

/-!
# StrictJson — the parser of seller-controlled JSON

`x402-strict-json.ts`.  The text still to be read stands for the offset.  A parse stops with a protocol error, or
where its fuel ends; a text it stops on either way is not accepted.
-/

namespace PaymentNode.StrictJson

open JsonText JsonGrammar

inductive Stop
  /-- `APN_HTTP_PROTOCOL` with its message. -/
  | protocol (message : String)
  | exhausted
deriving DecidableEq, Repr

/-- `\s` of a regular expression: white space and line terminators. -/
def isSpace (c : CodeUnit) : Bool :=
  (9 ≤ c.val && c.val ≤ 13) || c == 32 || c == 0xA0 || c == 0x1680 || (0x2000 ≤ c.val && c.val ≤ 0x200A) ||
    c == 0x2028 || c == 0x2029 || c == 0x202F || c == 0x205F || c == 0x3000 || c == 0xFEFF

def scriptBlanks : Blanks where
  has := isSpace
  apart c h := by
    by_contra htoken
    rw [Bool.not_eq_false] at htoken
    have hascii : c.val < 128 := by
      simp only [isToken, isDigit, Bool.or_eq_true, Bool.and_eq_true, decide_eq_true_eq] at htoken
      rcases htoken with hdigit | hlist
      · omega
      · have hall : ((units "{}[],:\"-.eEtfn").all fun k => k.val < 128) = true := by decide
        simpa using List.all_eq_true.mp hall c (by simpa using hlist)
    have hall : ((List.range 128).all fun n => !isSpace (Fin.ofNat 65536 n) || !isToken (Fin.ofNat 65536 n)) = true := by
      decide +kernel
    have hc := List.all_eq_true.mp hall c.val (List.mem_range.mpr hascii)
    have hsame : Fin.ofNat 65536 c.val = c := Fin.ext (Nat.mod_eq_of_lt c.isLt)
    rw [hsame, h, htoken] at hc
    exact absurd hc (by decide)

def skipWhitespace (text : Text) : Text := skip scriptBlanks text

/-- The text is to go on with the given code unit. -/
def expect (c : CodeUnit) (message : String) (text : Text) : Except Stop Text :=
  match after c text with
  | some rest => .ok rest
  | none => .error (.protocol message)

/-- Up to the first quote no backslash escapes: what stands before it, and after it. -/
def closing (escaped : Bool) : Text → Option (Text × Text)
  | [] => none
  | c :: rest =>
    if escaped = false ∧ c = unit '"' then some ([], rest)
    else (closing (!escaped && c == unit '\\') rest).map fun (body, rest) => (c :: body, rest)

section Parser

variable {N : Type} (num : Text → N) (safe : N → Bool)

/-- The opening quote has been read; the literal itself is left to `JSON.parse`. -/
def parseString (text : Text) : Except Stop (Text × Text) :=
  match closing false text with
  | none => .error (.protocol "x402 JSON string is unterminated.")
  | some (body, rest) =>
    match jsonParse num (unit '"' :: (body ++ [unit '"'])) with
    | some (.string s) => .ok (s, rest)
    | _ => .error (.protocol "x402 JSON string is invalid.")

def parseNumber (text : Text) : Except Stop (Json N × Text) :=
  match takeNumber text with
  | none => .error (.protocol "x402 JSON syntax is invalid.")
  | some (digits, rest) =>
    if safe (num digits) then .ok (.number (num digits), rest)
    else .error (.protocol "x402 JSON contains an unsafe number.")

def parseObject (members : Text → Except Stop (Json N × Text)) (text : Text) : Except Stop (Json N × Text) :=
  match after (unit '}') (skipWhitespace text) with
  | some rest => .ok (.object [], rest)
  | none => members (skipWhitespace text)

def parseArray (items : Text → Except Stop (Json N × Text)) (text : Text) : Except Stop (Json N × Text) :=
  match after (unit ']') (skipWhitespace text) with
  | some rest => .ok (.array [], rest)
  | none => items (skipWhitespace text)

def rejectDuplicate (keys : List Text) (key : Text) : Except Stop Unit :=
  if key ∈ keys then .error (.protocol "x402 JSON contains a duplicate member name.") else .ok ()

mutual

def parseValue : ℕ → Text → Except Stop (Json N × Text)
  | 0, _ => .error .exhausted
  | fuel + 1, text =>
    match skipWhitespace text with
    | [] => .error (.protocol "x402 JSON syntax is invalid.")
    | c :: rest =>
      if c = unit '{' then parseObject (membersLoop fuel [] []) rest
      else if c = unit '[' then parseArray (itemsLoop fuel []) rest
      else if c = unit '"' then (parseString num rest).map fun (s, rest) => (.string s, rest)
      else if units "true" <+: c :: rest then .ok (.bool true, (c :: rest).drop 4)
      else if units "false" <+: c :: rest then .ok (.bool false, (c :: rest).drop 5)
      else if units "null" <+: c :: rest then .ok (.null, (c :: rest).drop 4)
      else parseNumber num safe (c :: rest)

/-- The loop of `parseObject`. -/
def membersLoop : ℕ → List Text → List (Text × Json N) → Text → Except Stop (Json N × Text)
  | 0, _, _, _ => .error .exhausted
  | fuel + 1, keys, object, text => do
    let opened ← expect (unit '"') "x402 JSON object key is invalid." (skipWhitespace text)
    let (key, rest) ← parseString num opened
    rejectDuplicate keys key
    let rest ← expect (unit ':') "x402 JSON object separator is invalid." (skipWhitespace rest)
    let (value, rest) ← parseValue fuel rest
    match skipWhitespace rest with
    | [] => .error (.protocol "x402 JSON object delimiter is invalid.")
    | c :: rest =>
      if c = unit '}' then .ok (.object (define key value object), rest)
      else if c = unit ',' then membersLoop fuel (key :: keys) (define key value object) rest
      else .error (.protocol "x402 JSON object delimiter is invalid.")

/-- The loop of `parseArray`. -/
def itemsLoop : ℕ → List (Json N) → Text → Except Stop (Json N × Text)
  | 0, _, _ => .error .exhausted
  | fuel + 1, array, text => do
    let (value, rest) ← parseValue fuel text
    match skipWhitespace rest with
    | [] => .error (.protocol "x402 JSON array delimiter is invalid.")
    | c :: rest =>
      if c = unit ']' then .ok (.array (array ++ [value]), rest)
      else if c = unit ',' then itemsLoop fuel (array ++ [value]) rest
      else .error (.protocol "x402 JSON array delimiter is invalid.")

end

def finish (result : Json N × Text) : Except Stop (Json N) :=
  if skipWhitespace result.2 = [] then .ok result.1 else .error (.protocol "x402 JSON has trailing data.")

def parseJsonWithDuplicateRejection (text : Text) : Except Stop (Json N) := do
  let result ← parseValue num safe (2 * text.length + 1) text
  finish result

end Parser

/-! ## String literals -/

theorem closing_spec {t body rest : Text} {escaped : Bool} (h : closing escaped t = some (body, rest)) :
    t = body ++ unit '"' :: rest ∧ ∀ r, closing escaped (body ++ unit '"' :: r) = some (body, r) := by
  induction t generalizing escaped body with
  | nil => exact absurd h (by simp [closing])
  | cons c t ih =>
    rw [closing] at h
    split_ifs at h with hend
    · cases h
      refine ⟨by rw [hend.2, List.nil_append], fun r => ?_⟩
      rw [List.nil_append, closing, if_pos ⟨hend.1, rfl⟩]
    · simp only [Option.map_eq_some_iff, Prod.mk.injEq] at h
      obtain ⟨⟨body', rest'⟩, hmore, rfl, rfl⟩ := h
      obtain ⟨rfl, hall⟩ := ih hmore
      refine ⟨rfl, fun r => ?_⟩
      rw [List.cons_append, closing, if_neg hend, hall r]
      rfl

theorem closing_of_chars {s x : Text} (h : Chars s x) (rest : Text) :
    closing false (s ++ unit '"' :: rest) = some (s, rest) := by
  have hplain : ∀ {c : CodeUnit} {t : Text}, c ≠ unit '"' → c ≠ unit '\\' →
      closing false (c :: t) = (closing false t).map fun (body, rest) => (c :: body, rest) := by
    intro c t hquote hslash
    have hnext : (!false && c == unit '\\') = false := by simpa using hslash
    rw [closing, if_neg fun h => hquote h.2, hnext]
  have hescape : ∀ {e : CodeUnit} {t : Text},
      closing false (unit '\\' :: e :: t) =
        (closing false t).map fun (body, rest) => (unit '\\' :: e :: body, rest) := by
    intro e t
    rw [closing, if_neg (by decide), closing, if_neg (by simp)]
    simp only [Bool.not_false, beq_self_eq_true, Bool.and_self, Bool.not_true, Bool.false_and, Option.map_map]
    rfl
  have hhex : ∀ {c : CodeUnit} {n : ℕ}, hexValue c = some n → c ≠ unit '"' ∧ c ≠ unit '\\' := by
    intro c n hc
    constructor <;> rintro rfl <;> exact absurd hc (by rw [show hexValue _ = none by decide]; simp)
  induction h with
  | done => rw [List.nil_append, closing, if_pos ⟨rfl, rfl⟩]
  | plain hquote hslash _ _ ih => rw [List.cons_append, hplain hquote hslash, ih]; rfl
  | short _ _ ih => rw [List.cons_append, List.cons_append, hescape, ih]; rfl
  | code hfour _ ih =>
    simp only [fourHex, Option.bind_eq_bind, Option.bind_eq_some_iff] at hfour
    obtain ⟨_, ha, _, hb, _, hc, _, hd, _⟩ := hfour
    simp only [List.cons_append]
    rw [hescape, hplain (hhex ha).1 (hhex ha).2, hplain (hhex hb).1 (hhex hb).2, hplain (hhex hc).1 (hhex hc).2,
      hplain (hhex hd).1 (hhex hd).2, ih]
    rfl

section Literals

variable {N : Type} {num : Text → N}

theorem jsonParse_literal {s x : Text} (h : Chars s x) :
    jsonParse num (unit '"' :: (s ++ [unit '"'])) = some (.string x) := by
  have hread : read jsonBlanks num (unit '"' :: (s ++ [unit '"'])) = some (.string x) := by
    rw [read_eq_some_iff]
    have htext : IsText jsonBlanks num ([] ++ (unit '"' :: (s ++ [unit '"']) ++ [])) (.string x) :=
      .padded blank_nil (.string h) blank_nil
    rwa [List.nil_append, List.append_nil] at htext
  rw [jsonParse, hread]
  rfl

-- A slice that ends at its first unescaped quote is read as one literal.
theorem chars_of_jsonParse {body x rest t : Text} (hclose : closing false t = some (body, rest))
    (h : jsonParse num (unit '"' :: (body ++ [unit '"'])) = some (.string x)) : Chars body x := by
  rw [jsonParse, Option.map_eq_some_iff] at h
  obtain ⟨y, hread, hy⟩ := h
  rw [read_eq_some_iff] at hread
  generalize hslice : unit '"' :: (body ++ [unit '"']) = slice at hread
  obtain @⟨w, v, w', _, hw, hv, hw'⟩ := hread
  obtain ⟨c, r, hfirst, _⟩ := isValue_first hv
  have hnil : w = [] := by
    cases w with
    | nil => rfl
    | cons d w =>
      rw [List.cons_append, List.cons.injEq] at hslice
      have hblank := hw d List.mem_cons_self
      rw [← hslice.1] at hblank
      exact absurd hblank (by decide)
  have hquote : c = unit '"' := by
    rw [hnil, hfirst, List.nil_append, List.cons_append, List.cons.injEq] at hslice
    exact hslice.1.symm
  rw [hquote] at hfirst
  rw [hnil, List.nil_append] at hslice
  cases hv with
  | @string s z hs =>
    have hrest : body ++ [unit '"'] = s ++ unit '"' :: w' := by simpa using hslice
    have hsame := (closing_spec hclose).2 []
    rw [hrest, closing_of_chars hs, Option.some.injEq, Prod.mk.injEq] at hsame
    have hvalue : z = x := Json.string.inj hy
    rw [← hsame.1, ← hvalue]
    exact hs
  | number hs =>
    obtain ⟨d, r', hd, hstart⟩ := isNumber_first hs
    rw [hfirst, List.cons.injEq] at hd
    rw [← hd.1] at hstart
    exact absurd hstart (by decide)
  | null => exact absurd (List.cons.inj hfirst).1 (by decide)
  | true => exact absurd (List.cons.inj hfirst).1 (by decide)
  | false => exact absurd (List.cons.inj hfirst).1 (by decide)
  | emptyArray _ => exact absurd (List.cons.inj hfirst).1 (by decide)
  | array _ => exact absurd (List.cons.inj hfirst).1 (by decide)
  | emptyObject _ => exact absurd (List.cons.inj hfirst).1 (by decide)
  | object _ => exact absurd (List.cons.inj hfirst).1 (by decide)

theorem parseString_ok {t x rest : Text} : parseString num t = .ok (x, rest) ↔ readChars t = some (x, rest) := by
  rw [readChars_eq_some_iff]
  constructor
  · intro h
    unfold parseString at h
    split at h
    · exact absurd h (by simp)
    · rename_i body rest' hclose
      split at h
      · rename_i s hliteral
        rw [Except.ok.injEq, Prod.mk.injEq] at h
        obtain ⟨rfl, rfl⟩ := h
        exact ⟨body, (closing_spec hclose).1, chars_of_jsonParse hclose hliteral⟩
      · exact absurd h (by simp)
  · rintro ⟨s, rfl, hs⟩
    unfold parseString
    rw [closing_of_chars hs]
    simp only [jsonParse_literal hs]

end Literals

/-! ## The parser and the reader -/

section Agreement

variable {N : Type} {num : Text → N} {safe : N → Bool}

def ValueAgrees (num : Text → N) (safe : N → Bool) (fuel : ℕ) : Prop :=
  ∀ t y rest, parseValue num safe fuel t = .ok (y, rest) ↔
    readValue scriptBlanks num fuel t = some (y, rest) ∧ Strict safe y

def ItemsAgree (num : Text → N) (safe : N → Bool) (fuel : ℕ) : Prop :=
  ∀ done t y rest, itemsLoop num safe fuel done t = .ok (y, rest) ↔
    ∃ xs, readItems scriptBlanks num fuel t = some (xs, rest) ∧ StrictItems safe xs ∧ y = .array (done ++ xs)

/-- The loop has the names of the members it has defined. -/
def MembersAgree (num : Text → N) (safe : N → Bool) (fuel : ℕ) : Prop :=
  ∀ keys done t y rest, (∀ k, k ∈ keys ↔ k ∈ done.map Prod.fst) → (done.map Prod.fst).Nodup →
    (membersLoop num safe fuel keys done t = .ok (y, rest) ↔
      ∃ ms, readMembers scriptBlanks num fuel t = some (ms, rest) ∧ StrictMembers safe ms ∧
        ((done ++ ms).map Prod.fst).Nodup ∧ y = .object (done ++ ms))

theorem expect_ok {c : CodeUnit} {message : String} {t rest : Text} :
    expect c message t = .ok rest ↔ after c t = some rest := by
  unfold expect
  cases after c t <;> simp

theorem rejectDuplicate_ok {keys : List Text} {key : Text} {u : Unit} :
    rejectDuplicate keys key = .ok u ↔ key ∉ keys := by
  unfold rejectDuplicate
  split_ifs with h <;> simp [h]

theorem parseNumber_ok {t rest : Text} {y : Json N} :
    parseNumber num safe t = .ok (y, rest) ↔
      (takeNumber t).map (fun (s, rest) => (Json.number (num s), rest)) = some (y, rest) ∧ Strict safe y := by
  unfold parseNumber
  cases htake : takeNumber t with
  | none => simp
  | some p =>
    obtain ⟨s, r⟩ := p
    simp only [Option.map_some, Option.some.injEq, Prod.mk.injEq]
    constructor
    · intro h
      split_ifs at h with hsafe
      simp only [Except.ok.injEq, Prod.mk.injEq] at h
      obtain ⟨rfl, rfl⟩ := h
      exact ⟨⟨rfl, rfl⟩, hsafe⟩
    · rintro ⟨⟨rfl, rfl⟩, hsafe⟩
      rw [Strict] at hsafe
      rw [if_pos hsafe]

theorem value_agrees {fuel : ℕ} (hitems : ItemsAgree num safe fuel) (hmembers : MembersAgree num safe fuel) :
    ValueAgrees num safe (fuel + 1) := by
  intro t y rest
  rw [parseValue, readValue, skipWhitespace]
  cases skip scriptBlanks t with
  | nil => simp
  | cons c r =>
    simp only
    split_ifs with hbrace hbracket hquote htrue hfalse hnull
    · unfold parseObject skipWhitespace
      cases after (unit '}') (skip scriptBlanks r) with
      | some r' =>
        simp only [Except.ok.injEq, Option.some.injEq, Prod.mk.injEq, iff_self_and]
        rintro ⟨rfl, rfl⟩
        exact ⟨List.nodup_nil, trivial⟩
      | none =>
        simp only [hmembers [] [] _ y rest (fun k => Iff.rfl) List.nodup_nil, List.nil_append,
          Option.map_eq_some_iff, Prod.mk.injEq, Prod.exists]
        constructor
        · rintro ⟨ms, hread, hstrict, hnodup, rfl⟩
          exact ⟨⟨ms, rest, hread, rfl, rfl⟩, hnodup, hstrict⟩
        · rintro ⟨⟨ms, r', hread, rfl, rfl⟩, hnodup, hstrict⟩
          exact ⟨ms, hread, hstrict, hnodup, rfl⟩
    · unfold parseArray skipWhitespace
      cases after (unit ']') (skip scriptBlanks r) with
      | some r' =>
        simp only [Except.ok.injEq, Option.some.injEq, Prod.mk.injEq, iff_self_and]
        rintro ⟨rfl, rfl⟩
        trivial
      | none =>
        simp only [hitems [] _ y rest, List.nil_append, Option.map_eq_some_iff, Prod.mk.injEq, Prod.exists]
        constructor
        · rintro ⟨xs, hread, hstrict, rfl⟩
          exact ⟨⟨xs, rest, hread, rfl, rfl⟩, hstrict⟩
        · rintro ⟨⟨xs, r', hread, rfl, rfl⟩, hstrict⟩
          exact ⟨xs, hread, hstrict, rfl⟩
    · cases hstring : parseString num r with
      | error e =>
        have hnone : ∀ x r', readChars r ≠ some (x, r') := fun x r' hread => by
          rw [parseString_ok.mpr hread] at hstring
          exact absurd hstring (by simp)
        simp only [Option.map_eq_some_iff, Prod.exists]
        constructor
        · intro h
          exact absurd h (by simp [Except.map])
        · rintro ⟨⟨x, r', hread, _⟩, _⟩
          exact absurd hread (hnone x r')
      | ok p =>
        obtain ⟨x, r'⟩ := p
        rw [parseString_ok.mp hstring]
        simp only [Except.map, Except.ok.injEq, Option.map_some, Option.some.injEq, Prod.mk.injEq, iff_self_and]
        rintro ⟨rfl, rfl⟩
        trivial
    · simp only [Except.ok.injEq, Option.some.injEq, Prod.mk.injEq, iff_self_and]
      rintro ⟨rfl, rfl⟩
      trivial
    · simp only [Except.ok.injEq, Option.some.injEq, Prod.mk.injEq, iff_self_and]
      rintro ⟨rfl, rfl⟩
      trivial
    · simp only [Except.ok.injEq, Option.some.injEq, Prod.mk.injEq, iff_self_and]
      rintro ⟨rfl, rfl⟩
      trivial
    · exact parseNumber_ok

theorem items_agree {fuel : ℕ} (hvalue : ValueAgrees num safe fuel) (hitems : ItemsAgree num safe fuel) :
    ItemsAgree num safe (fuel + 1) := by
  intro done t y rest
  simp only [itemsLoop, bind_ok, Prod.exists, hvalue _ _ _, readItems, Option.bind_eq_bind, Option.bind_eq_some_iff,
    skipWhitespace]
  constructor
  · rintro ⟨x, r, ⟨hread, hstrict⟩, h⟩
    cases hskip : skip scriptBlanks r with
    | nil => simp [hskip] at h
    | cons c r' =>
      simp only [hskip] at h
      split_ifs at h with hclose hcomma
      · simp only [Except.ok.injEq, Prod.mk.injEq] at h
        obtain ⟨rfl, rfl⟩ := h
        exact ⟨[x], ⟨x, r, hread, by simp [hskip, hclose]⟩, ⟨hstrict, trivial⟩, rfl⟩
      · obtain ⟨xs, hmore, hxs, rfl⟩ := (hitems _ _ _ _).mp h
        refine ⟨x :: xs, ⟨x, r, hread, ?_⟩, ⟨hstrict, hxs⟩, by rw [List.append_assoc, List.singleton_append]⟩
        simp only [hskip, if_neg hclose, if_pos hcomma, hmore, Option.map_some]
  · rintro ⟨xs, ⟨x, r, hread, h⟩, hstrict, rfl⟩
    cases hskip : skip scriptBlanks r with
    | nil => simp [hskip] at h
    | cons c r' =>
      simp only [hskip] at h
      split_ifs at h with hclose hcomma
      · cases h
        exact ⟨x, r, ⟨hread, hstrict.1⟩, by simp [hskip, hclose]⟩
      · simp only [Option.map_eq_some_iff, Prod.mk.injEq, Prod.exists] at h
        obtain ⟨xs', r'', hmore, rfl, rfl⟩ := h
        refine ⟨x, r, ⟨hread, hstrict.1⟩, ?_⟩
        simp only [hskip, if_neg hclose, if_pos hcomma]
        rw [hitems]
        exact ⟨xs', hmore, hstrict.2, by rw [List.append_assoc, List.singleton_append]⟩

-- The keys after a member whose name is new.
theorem keys_define {keys : List Text} {done : List (Text × Json N)} {name : Text} {x : Json N}
    (hkeys : ∀ k, k ∈ keys ↔ k ∈ done.map Prod.fst) :
    ∀ k, k ∈ name :: keys ↔ k ∈ (done ++ [(name, x)]).map Prod.fst := by
  intro k
  rw [List.mem_cons, hkeys, List.map_append, List.mem_append, or_comm]
  simp

theorem nodup_define {done : List (Text × Json N)} {name : Text} {x : Json N} (hnodup : (done.map Prod.fst).Nodup)
    (hfresh : name ∉ done.map Prod.fst) : ((done ++ [(name, x)]).map Prod.fst).Nodup := by
  rw [List.map_append]
  exact hnodup.append (List.nodup_singleton name) (by simpa using hfresh)

theorem fresh_of_nodup {done ms : List (Text × Json N)} {name : Text} {x : Json N}
    (h : ((done ++ (name, x) :: ms).map Prod.fst).Nodup) : name ∉ done.map Prod.fst := by
  rw [List.map_append, List.map_cons, List.nodup_append] at h
  intro hmem
  exact h.2.2 name hmem name List.mem_cons_self rfl

theorem members_agree {fuel : ℕ} (hvalue : ValueAgrees num safe fuel) (hmembers : MembersAgree num safe fuel) :
    MembersAgree num safe (fuel + 1) := by
  intro keys done t y rest hkeys hnodup
  simp only [membersLoop, bind_ok, Prod.exists, hvalue _ _ _, readMembers, Option.bind_eq_bind,
    Option.bind_eq_some_iff, skipWhitespace, expect_ok, parseString_ok, rejectDuplicate_ok]
  constructor
  · rintro ⟨opened, hopen, name, r₁, hname, _, hnew, r₂, hcolon, x, r, ⟨hread, hstrict⟩, h⟩
    have hfresh : name ∉ done.map Prod.fst := fun hmem => hnew ((hkeys name).mpr hmem)
    cases hskip : skip scriptBlanks r with
    | nil => simp [hskip] at h
    | cons c r' =>
      simp only [hskip, define_fresh hfresh] at h
      split_ifs at h with hclose hcomma
      · simp only [Except.ok.injEq, Prod.mk.injEq] at h
        obtain ⟨rfl, rfl⟩ := h
        refine ⟨[(name, x)], ⟨opened, hopen, name, r₁, hname, r₂, hcolon, x, r, hread, ?_⟩, ⟨hstrict, trivial⟩,
          nodup_define hnodup hfresh, rfl⟩
        simp [hskip, hclose]
      · obtain ⟨ms, hmore, hms, hall, rfl⟩ :=
          (hmembers _ _ _ _ _ (keys_define hkeys) (nodup_define hnodup hfresh)).mp h
        rw [List.append_assoc, List.singleton_append] at hall
        refine ⟨(name, x) :: ms, ⟨opened, hopen, name, r₁, hname, r₂, hcolon, x, r, hread, ?_⟩, ⟨hstrict, hms⟩, hall,
          by rw [List.append_assoc, List.singleton_append]⟩
        simp only [hskip, if_neg hclose, if_pos hcomma, hmore, Option.map_some]
  · rintro ⟨ms, ⟨opened, hopen, name, r₁, hname, r₂, hcolon, x, r, hread, h⟩, hstrict, hall, rfl⟩
    cases hskip : skip scriptBlanks r with
    | nil => simp [hskip] at h
    | cons c r' =>
      simp only [hskip] at h
      split_ifs at h with hclose hcomma
      · cases h
        have hfresh := fresh_of_nodup hall
        refine ⟨opened, hopen, name, r₁, hname, (), fun hmem => hfresh ((hkeys name).mp hmem), r₂, hcolon, x, r,
          ⟨hread, hstrict.1⟩, ?_⟩
        simp [hskip, hclose, define_fresh hfresh]
      · simp only [Option.map_eq_some_iff, Prod.mk.injEq, Prod.exists] at h
        obtain ⟨ms', r'', hmore, rfl, rfl⟩ := h
        have hfresh := fresh_of_nodup hall
        refine ⟨opened, hopen, name, r₁, hname, (), fun hmem => hfresh ((hkeys name).mp hmem), r₂, hcolon, x, r,
          ⟨hread, hstrict.1⟩, ?_⟩
        simp only [hskip, if_neg hclose, if_pos hcomma, define_fresh hfresh]
        rw [hmembers _ _ _ _ _ (keys_define hkeys) (nodup_define hnodup hfresh)]
        refine ⟨ms', hmore, hstrict.2, ?_, ?_⟩
        · rwa [List.append_assoc, List.singleton_append]
        · rw [List.append_assoc, List.singleton_append]

-- The parser reads what the reader reads over its own blanks, and admits what is strict of it.
theorem agrees (num : Text → N) (safe : N → Bool) (fuel : ℕ) :
    ValueAgrees num safe fuel ∧ ItemsAgree num safe fuel ∧ MembersAgree num safe fuel := by
  induction fuel with
  | zero =>
    refine ⟨fun t y rest => ?_, fun done t y rest => ?_, fun keys done t y rest _ _ => ?_⟩
    · simp [parseValue, readValue]
    · simp [itemsLoop, readItems]
    · simp [membersLoop, readMembers]
  | succ fuel ih =>
    obtain ⟨hvalue, hitems, hmembers⟩ := ih
    exact ⟨value_agrees hitems hmembers, items_agree hvalue hitems, members_agree hvalue hmembers⟩

theorem parse_ok {t : Text} {y : Json N} :
    parseJsonWithDuplicateRejection num safe t = .ok y ↔ IsText scriptBlanks num t y ∧ Strict safe y := by
  have hfinish : ∀ {p : Json N × Text}, finish p = .ok y ↔ p.1 = y ∧ skip scriptBlanks p.2 = [] := by
    rintro ⟨x, r⟩
    unfold finish skipWhitespace
    split_ifs with h <;> simp [h]
  simp only [parseJsonWithDuplicateRejection, bind_ok, hfinish, Prod.exists]
  constructor
  · rintro ⟨x, r, hparse, rfl, hend⟩
    obtain ⟨hread, hstrict⟩ := ((agrees num safe _).1 _ _ _).mp hparse
    obtain ⟨w, v, rfl, hw, hv⟩ := (sound scriptBlanks num _).1 _ _ _ hread
    exact ⟨.padded hw hv (blank_of_skip hend), hstrict⟩
  · rintro ⟨@⟨w, v, w', _, hw, hv, hw'⟩, hstrict⟩
    have hfollows : Follows scriptBlanks w' := by
      have h : Follows scriptBlanks (w' ++ []) := follows_blank hw' follows_nil
      rwa [List.append_nil] at h
    have hlength : 2 * v.length ≤ 2 * (w ++ (v ++ w')).length + 1 := by
      simp only [List.length_append]
      omega
    have hread := (complete scriptBlanks num _).1 w v y w' hw hv hfollows hlength
    exact ⟨y, w', ((agrees num safe _).1 _ _ _).mpr ⟨hread, hstrict⟩, rfl, skip_blank hw'⟩

end Agreement

end PaymentNode.StrictJson
