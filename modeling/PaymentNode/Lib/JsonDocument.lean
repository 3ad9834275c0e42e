import PaymentNode.Lib.JsonIntegers
import PaymentNode.Lib.Utf16

/-!
# JsonDocument — a document written character by character

A writer of documents has its own way of writing strings; of it only two things are asked: a text that needs no escape
stands as it is, and what is written between the quotes stands for the text.  What it writes determines the document,
and on plain texts it is what `JSON.stringify` writes.
-/

namespace JsonGrammar

open JsonText

structure StringWriter where
  escape : List Char → List Char
  escape_plain : ∀ text, (∀ c ∈ text, isPlain c = true) → escape text = text
  chars_escape : ∀ text, Chars (utf16 (escape text)) (utf16 text)

/-- Texts, counts, and objects whose members stand in the order they are written. -/
inductive Document
  | text (s : List Char)
  | count (n : ℕ)
  | object (members : List (List Char × Document))

variable (writer : StringWriter)

def literal (s : List Char) : List Char := '"' :: (writer.escape s ++ ['"'])

mutual

def write : Document → List Char
  | .text s => literal writer s
  | .count n => DecimalText.print n
  | .object ms => '{' :: (writeMembers ms ++ ['}'])

def writeMembers : List (List Char × Document) → List Char
  | [] => []
  | (name, x) :: ms =>
    literal writer name ++ ':' :: (write x ++ if ms.isEmpty then [] else ',' :: writeMembers ms)

end

mutual

def toJson : Document → Json integers.Num
  | .text s => .string (utf16 s)
  | .count n => .number (false, n)
  | .object ms => .object (toJsonMembers ms)

def toJsonMembers : List (List Char × Document) → List (Text × Json integers.Num)
  | [] => []
  | (name, x) :: ms => (utf16 name, toJson x) :: toJsonMembers ms

end

mutual

/-- Nothing in it needs an escape, and no member is named by an array index. -/
def IsPlain : Document → Prop
  | .text s => ∀ c ∈ s, isPlain c = true
  | .count _ => True
  | .object ms => IsPlainMembers ms

def IsPlainMembers : List (List Char × Document) → Prop
  | [] => True
  | (name, x) :: ms => ((∀ c ∈ name, isPlain c = true) ∧ isIndex (utf16 name) = false) ∧ IsPlain x ∧ IsPlainMembers ms

end

theorem utf16_digits {text : List Char} (h : DecimalText.Digits text) : utf16 text = text.map unit := by
  induction text with
  | nil => rfl
  | cons c rest ih =>
    obtain ⟨hc, hrest⟩ := h.cons
    rw [DecimalText.isDigit_iff] at hc
    rw [utf16_cons, ih hrest, encodeUtf16, if_pos (by omega), List.singleton_append, List.map_cons]

theorem utf16_print (n : ℕ) : utf16 (DecimalText.print n) = decimal n := utf16_digits (DecimalText.digits_print n)

theorem isNumber_decimal (n : ℕ) : IsNumber (decimal n) :=
  ⟨[], decimal n, [], [], by simp, .inl rfl, isInteger_decimal n, .inl rfl, .inl rfl⟩

theorem read_decimal (n : ℕ) : integers.read (decimal n) = (false, n) := by
  have hminus : takeMinus ([] ++ (decimal n ++ [])) = ([], decimal n ++ []) :=
    takeMinus_complete (.inl rfl) (isInteger_decimal n)
  have hrun : digitRun (decimal n ++ []) = (decimal n, []) :=
    digitRun_append (allDigits_decimal n) fun _ h => by simp at h
  rw [List.append_nil, List.nil_append] at hminus
  rw [List.append_nil] at hrun
  show (!(takeMinus (decimal n)).1.isEmpty, numeral (digitRun (takeMinus (decimal n)).2).1) = (false, n)
  simp only [hminus, hrun, numeral_decimal]
  rfl

/-! ## What is written stands for the document -/

theorem utf16_literal (s : List Char) : utf16 (literal writer s) = unit '"' :: (utf16 (writer.escape s) ++ [unit '"']) := by
  rw [literal, utf16_cons, utf16_append]
  rfl

mutual

theorem isValue_write : ∀ x : Document, IsValue jsonBlanks integers.read (utf16 (write writer x)) (toJson x)
  | .text s => by
    rw [write, toJson, utf16_literal]
    exact .string (writer.chars_escape s)
  | .count n => by
    rw [write, toJson, utf16_print, ← read_decimal n]
    exact .number (isNumber_decimal n)
  | .object ms => by
    have hbraces : utf16 (write writer (.object ms)) = unit '{' :: (utf16 (writeMembers writer ms) ++ [unit '}']) := by
      rw [write, utf16_cons, utf16_append]
      rfl
    rw [hbraces, toJson]
    cases ms with
    | nil => exact .emptyObject blank_nil
    | cons m ms => exact .object (isMembers_write (m :: ms) (by simp))

theorem isMembers_write : ∀ ms : List (List Char × Document), ms ≠ [] →
    IsMembers jsonBlanks integers.read (utf16 (writeMembers writer ms)) (toJsonMembers ms)
  | [], h => absurd rfl h
  | (name, x) :: ms, _ => by
    have hx : IsText jsonBlanks integers.read ([] ++ (utf16 (write writer x) ++ [])) (toJson x) :=
      .padded blank_nil (isValue_write x) blank_nil
    rw [List.nil_append, List.append_nil] at hx
    have hcolon : ∀ rest, utf16 (':' :: rest) = unit ':' :: utf16 rest := fun _ => rfl
    have hcomma : ∀ rest, utf16 (',' :: rest) = unit ',' :: utf16 rest := fun _ => rfl
    rw [writeMembers, toJsonMembers, utf16_append, utf16_literal, hcolon, utf16_append]
    cases ms with
    | nil =>
      have hone := IsMembers.one blank_nil (writer.chars_escape name) blank_nil hx
      simpa [toJsonMembers] using hone
    | cons m ms =>
      have hmore := IsMembers.more blank_nil (writer.chars_escape name) blank_nil hx
        (isMembers_write (m :: ms) (by simp))
      simpa [hcomma] using hmore

end

/-- What is written determines the value. -/
theorem toJson_of_write {x y : Document} (h : write writer x = write writer y) : toJson x = toJson y := by
  have htext : ∀ z : Document, IsText jsonBlanks integers.read (utf16 (write writer z)) (toJson z) := by
    intro z
    have hpadded : IsText jsonBlanks integers.read ([] ++ (utf16 (write writer z) ++ [])) (toJson z) :=
      .padded blank_nil (isValue_write writer z) blank_nil
    rwa [List.nil_append, List.append_nil] at hpadded
  have hx := htext x
  rw [h] at hx
  exact isText_unique hx (htext y)

/-! ## Plain documents -/

theorem utf16_plain_literal {s : List Char} (h : ∀ c ∈ s, isPlain c = true) :
    utf16 (literal writer s) = quote (utf16 s) := by
  rw [utf16_literal, writer.escape_plain s h, quote, quoteChars_plain h, List.cons_append]

theorem enumerate_named {α : Type} {ms : List (Text × α)} (h : ∀ m ∈ ms, isIndex m.1 = false) : enumerate ms = ms := by
  have hnone : (ms.filter fun m => isIndex m.1) = [] := by
    rw [List.filter_eq_nil_iff]
    intro m hm
    rw [h m hm]
    exact Bool.false_ne_true
  have hall : (ms.filter fun m => !isIndex m.1) = ms := by
    rw [List.filter_eq_self]
    intro m hm
    rw [h m hm]
    rfl
  rw [enumerate, hnone, hall]
  rfl

theorem toJsonMembers_named : ∀ ms : List (List Char × Document), IsPlainMembers ms →
    ∀ m ∈ toJsonMembers ms, isIndex m.1 = false
  | [], _ => fun _ hm => absurd hm List.not_mem_nil
  | (name, x) :: ms, h => by
    rw [IsPlainMembers] at h
    rw [toJsonMembers, List.forall_mem_cons]
    exact ⟨h.1.2, toJsonMembers_named ms h.2.2⟩

mutual

/-- A plain document is written as `JSON.stringify` writes it. -/
theorem stringify_toJson : ∀ x : Document, IsPlain x → stringify (toJson x) = utf16 (write writer x)
  | .text s, h => by
    rw [IsPlain] at h
    rw [toJson, write, utf16_plain_literal writer h]
    rfl
  | .count n, _ => by
    rw [toJson, write, utf16_print]
    rfl
  | .object ms, h => by
    rw [IsPlain] at h
    rw [toJson, write, stringify_object, enumerate_named (toJsonMembers_named ms h), stringify_members ms h, utf16_cons,
      utf16_append]
    rfl

theorem stringify_members : ∀ ms : List (List Char × Document), IsPlainMembers ms →
    commas ((toJsonMembers ms).map fun m => quote m.1 ++ unit ':' :: stringify m.2) = utf16 (writeMembers writer ms)
  | [], _ => rfl
  | (name, x) :: ms, h => by
    rw [IsPlainMembers] at h
    have hx := stringify_toJson x h.2.1
    have hms := stringify_members ms h.2.2
    have hcolon : ∀ rest, utf16 (':' :: rest) = unit ':' :: utf16 rest := fun _ => rfl
    have hcomma : ∀ rest, utf16 (',' :: rest) = unit ',' :: utf16 rest := fun _ => rfl
    rw [toJsonMembers, writeMembers, List.map_cons, utf16_append, hcolon, utf16_append,
      utf16_plain_literal writer h.1.1, hx]
    cases ms with
    | nil => simp [toJsonMembers, commas]
    | cons m ms =>
      have hnext : utf16 (if (m :: ms).isEmpty = true then [] else ',' :: writeMembers writer (m :: ms)) =
          unit ',' :: commas ((toJsonMembers (m :: ms)).map fun m => quote m.1 ++ unit ':' :: stringify m.2) := by
        rw [hms, ← hcomma]
        rfl
      rw [hnext]
      simp [toJsonMembers, commas]

end

end JsonGrammar
