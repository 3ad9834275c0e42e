import Mathlib.Data.List.Sort
import PaymentNode.Lib.JsonObject

/-!
# JsonPrint — the text `JSON.stringify` writes

The own keys of an object are enumerated with the array indices first, in ascending order, and the others in the order
they were defined.  What is written for a value is a JSON text of that value, its members so arranged.
-/

namespace JsonGrammar

open JsonText

/-! ## Enumeration -/

def numeral (key : Text) : ℕ := key.foldl (fun n c => 10 * n + (c.val - 48)) 0

/-- Whether a property key is an array index: the numeral of a number below `2 ^ 32 - 1`. -/
def isIndex (key : Text) : Bool :=
  (key == [unit '0'] || (key.all isDigit && key.head?.any (· != unit '0'))) && numeral key < 4294967295

section Enumerate

variable {α β : Type}

def byIndex (a b : Text × α) : Prop := numeral a.1 ≤ numeral b.1

instance : DecidableRel (@byIndex α) := fun a b => inferInstanceAs (Decidable (numeral a.1 ≤ numeral b.1))

def enumerate (ms : List (Text × α)) : List (Text × α) :=
  (ms.filter fun m => isIndex m.1).insertionSort byIndex ++ ms.filter fun m => !isIndex m.1

theorem perm_enumerate (ms : List (Text × α)) : (enumerate ms).Perm ms :=
  ((List.perm_insertionSort _ _).append_right _).trans (List.filter_append_perm _ ms)

theorem enumerate_map (f : α → β) (ms : List (Text × α)) :
    enumerate (ms.map fun m => (m.1, f m.2)) = (enumerate ms).map fun m => (m.1, f m.2) := by
  unfold enumerate
  rw [List.map_append, List.filter_map, List.filter_map]
  refine congrArg₂ (· ++ ·) ?_ rfl
  exact (List.map_insertionSort byIndex byIndex (fun m : Text × α => (m.1, f m.2)) _ fun _ _ _ _ => Iff.rfl).symm

theorem nodup_enumerate {ms : List (Text × α)} (h : (ms.map Prod.fst).Nodup) : ((enumerate ms).map Prod.fst).Nodup :=
  ((perm_enumerate ms).map Prod.fst).nodup_iff.mpr h

end Enumerate

/-- ECMAScript numbers, as far as JSON reads and prints them. -/
structure Numbers where
  Num : Type
  read : Text → Num
  print : Num → Text
  /-- Finite, and of magnitude at most `2 ^ 53 - 1`. -/
  safe : Num → Bool
  /-- The number with positive zero for either zero. -/
  unsigned : Num → Num
  isNumber_print : ∀ n, safe n = true → IsNumber (print n)
  read_print : ∀ n, safe n = true → read (print n) = unsigned n
  print_unsigned : ∀ n, print (unsigned n) = print n
  safe_unsigned : ∀ n, safe n = true → safe (unsigned n) = true
  unsigned_unsigned : ∀ n, unsigned (unsigned n) = unsigned n

variable {numbers : Numbers}

def commas : List Text → Text
  | [] => []
  | [s] => s
  | s :: rest => s ++ unit ',' :: commas rest

mutual

def stringify : Json numbers.Num → Text
  | .null => units "null"
  | .bool true => units "true"
  | .bool false => units "false"
  | .number n => numbers.print n
  | .string s => quote s
  | .array xs => unit '[' :: (commas (stringifyItems xs) ++ [unit ']'])
  | .object ms =>
    unit '{' :: (commas ((enumerate (stringifyMembers ms)).map fun m => quote m.1 ++ unit ':' :: m.2) ++ [unit '}'])

def stringifyItems : List (Json numbers.Num) → List Text
  | [] => []
  | x :: xs => stringify x :: stringifyItems xs

def stringifyMembers : List (Text × Json numbers.Num) → List (Text × Text)
  | [] => []
  | (name, x) :: ms => (name, stringify x) :: stringifyMembers ms

end

mutual

/-- The value as it is read back: members in the order they are written, and no negative zero. -/
def arrange : Json numbers.Num → Json numbers.Num
  | .number n => .number (numbers.unsigned n)
  | .array xs => .array (arrangeItems xs)
  | .object ms => .object (enumerate (arrangeMembers ms))
  | x => x

def arrangeItems : List (Json numbers.Num) → List (Json numbers.Num)
  | [] => []
  | x :: xs => arrange x :: arrangeItems xs

def arrangeMembers : List (Text × Json numbers.Num) → List (Text × Json numbers.Num)
  | [] => []
  | (name, x) :: ms => (name, arrange x) :: arrangeMembers ms

end

theorem stringifyItems_eq (xs : List (Json numbers.Num)) : stringifyItems xs = xs.map stringify := by
  induction xs with
  | nil => rfl
  | cons x xs ih => rw [stringifyItems, ih, List.map_cons]

variable (ms : List (Text × Json numbers.Num))

theorem stringifyMembers_eq :
    stringifyMembers ms = ms.map fun m => (m.1, stringify m.2) := by
  induction ms with
  | nil => rfl
  | cons m ms ih => rw [stringifyMembers, ih, List.map_cons]

theorem arrangeItems_eq (xs : List (Json numbers.Num)) : arrangeItems xs = xs.map arrange := by
  induction xs with
  | nil => rfl
  | cons x xs ih => rw [arrangeItems, ih, List.map_cons]

theorem arrangeMembers_eq :
    arrangeMembers ms = ms.map fun m => (m.1, arrange m.2) := by
  induction ms with
  | nil => rfl
  | cons m ms ih => rw [arrangeMembers, ih, List.map_cons]

section Induction

variable {N : Type} {P : Json N → Prop}

mutual

/-- Induction over a value, with the hypothesis for every item and every member. -/
theorem json_induct (null : P .null) (bool : ∀ b, P (.bool b)) (number : ∀ n, P (.number n))
    (string : ∀ s, P (.string s)) (array : ∀ xs, (∀ x ∈ xs, P x) → P (.array xs))
    (object : ∀ ms, (∀ m ∈ ms, P m.2) → P (.object ms)) : ∀ x, P x
  | .null => null
  | .bool b => bool b
  | .number n => number n
  | .string s => string s
  | .array xs => array xs (json_induct_items null bool number string array object xs)
  | .object ms => object ms (json_induct_members null bool number string array object ms)

theorem json_induct_items (null : P .null) (bool : ∀ b, P (.bool b)) (number : ∀ n, P (.number n))
    (string : ∀ s, P (.string s)) (array : ∀ xs, (∀ x ∈ xs, P x) → P (.array xs))
    (object : ∀ ms, (∀ m ∈ ms, P m.2) → P (.object ms)) : ∀ xs : List (Json N), ∀ x ∈ xs, P x
  | [], _, h => absurd h List.not_mem_nil
  | y :: ys, x, h => by
    rcases List.mem_cons.mp h with heq | h
    · rw [heq]
      exact json_induct null bool number string array object y
    · exact json_induct_items null bool number string array object ys x h

theorem json_induct_members (null : P .null) (bool : ∀ b, P (.bool b)) (number : ∀ n, P (.number n))
    (string : ∀ s, P (.string s)) (array : ∀ xs, (∀ x ∈ xs, P x) → P (.array xs))
    (object : ∀ ms, (∀ m ∈ ms, P m.2) → P (.object ms)) : ∀ ms : List (Text × Json N), ∀ m ∈ ms, P m.2
  | [], _, h => absurd h List.not_mem_nil
  | (name, y) :: ms, m, h => by
    rcases List.mem_cons.mp h with heq | h
    · rw [heq]
      exact json_induct null bool number string array object y
    · exact json_induct_members null bool number string array object ms m h

end

end Induction

/-! ## What is written is a text of the arranged value -/

theorem isItems_commas {num : Text → numbers.Num} {xs : List (Json numbers.Num)} (hne : xs ≠ [])
    (h : ∀ x ∈ xs, IsValue jsonBlanks num (stringify x) (arrange x)) :
    IsItems jsonBlanks num (commas (xs.map stringify)) (xs.map arrange) := by
  have htext : ∀ x ∈ xs, IsText jsonBlanks num (stringify x) (arrange x) := by
    intro x hx
    have hpadded : IsText jsonBlanks num ([] ++ (stringify x ++ [])) (arrange x) := .padded blank_nil (h x hx) blank_nil
    rwa [List.nil_append, List.append_nil] at hpadded
  clear h
  induction xs with
  | nil => exact absurd rfl hne
  | cons x xs ih =>
    obtain ⟨hx, hxs⟩ := List.forall_mem_cons.mp htext
    cases xs with
    | nil => exact .one hx
    | cons y ys => exact .more hx (ih (by simp) hxs)

theorem isMembers_commas {num : Text → numbers.Num} {ms : List (Text × Json numbers.Num)} (hne : ms ≠ [])
    (h : ∀ m ∈ ms, IsValue jsonBlanks num (stringify m.2) (arrange m.2)) :
    IsMembers jsonBlanks num (commas (ms.map fun m => quote m.1 ++ unit ':' :: stringify m.2))
      (ms.map fun m => (m.1, arrange m.2)) := by
  have htext : ∀ m ∈ ms, IsText jsonBlanks num (stringify m.2) (arrange m.2) := by
    intro m hm
    have hpadded : IsText jsonBlanks num ([] ++ (stringify m.2 ++ [])) (arrange m.2) :=
      .padded blank_nil (h m hm) blank_nil
    rwa [List.nil_append, List.append_nil] at hpadded
  clear h
  induction ms with
  | nil => exact absurd rfl hne
  | cons m ms ih =>
    obtain ⟨hm, hms⟩ := List.forall_mem_cons.mp htext
    cases ms with
    | nil =>
      have hone := IsMembers.one blank_nil (chars_quoteChars m.1) blank_nil hm
      simpa [commas, quote] using hone
    | cons n ms =>
      have hmore := IsMembers.more blank_nil (chars_quoteChars m.1) blank_nil hm (ih (by simp) hms)
      simpa [commas, quote] using hmore

theorem strictItems_iff {N : Type} {safe : N → Bool} {xs : List (Json N)} :
    StrictItems safe xs ↔ ∀ x ∈ xs, Strict safe x := by
  induction xs with
  | nil => exact iff_of_true trivial (fun _ h => absurd h List.not_mem_nil)
  | cons x xs ih => rw [StrictItems, ih, List.forall_mem_cons]

theorem strictMembers_iff {N : Type} {safe : N → Bool} {ms : List (Text × Json N)} :
    StrictMembers safe ms ↔ ∀ m ∈ ms, Strict safe m.2 := by
  induction ms with
  | nil => exact iff_of_true trivial (fun _ h => absurd h List.not_mem_nil)
  | cons m ms ih => rw [StrictMembers, ih, List.forall_mem_cons]

theorem stringify_object :
    stringify (.object ms) =
      unit '{' :: (commas ((enumerate ms).map fun m => quote m.1 ++ unit ':' :: stringify m.2) ++ [unit '}']) := by
  rw [stringify, stringifyMembers_eq, enumerate_map, List.map_map]
  rfl

theorem arrange_object :
    arrange (.object ms) = .object ((enumerate ms).map fun m => (m.1, arrange m.2)) := by
  rw [arrange, arrangeMembers_eq, enumerate_map]

theorem isValue_stringify (x : Json numbers.Num) (h : Strict numbers.safe x) :
    IsValue jsonBlanks numbers.read (stringify x) (arrange x) := by
  induction x using json_induct with
  | null => exact .null
  | bool b => cases b with
    | true => exact .true
    | false => exact .false
  | number n =>
    rw [Strict] at h
    rw [stringify, arrange, ← numbers.read_print n h]
    exact .number (numbers.isNumber_print n h)
  | string s => exact .string (chars_quoteChars s)
  | array xs ih =>
    rw [Strict, strictItems_iff] at h
    rw [stringify, arrange, stringifyItems_eq, arrangeItems_eq]
    by_cases hne : xs = []
    · rw [hne]
      exact .emptyArray blank_nil
    · exact .array (isItems_commas hne fun x hx => ih x hx (h x hx))
  | object ms ih =>
    rw [Strict, strictMembers_iff] at h
    rw [stringify_object, arrange_object]
    by_cases hne : enumerate ms = []
    · rw [hne]
      exact .emptyObject blank_nil
    · refine .object (isMembers_commas hne fun m hm => ?_)
      have hmem := (perm_enumerate ms).mem_iff.mp hm
      exact ih m hmem (h.2 m hmem)

theorem strict_arrange (x : Json numbers.Num) (h : Strict numbers.safe x) : Strict numbers.safe (arrange x) := by
  induction x using json_induct with
  | null => trivial
  | bool _ => trivial
  | number n => exact numbers.safe_unsigned n h
  | string _ => trivial
  | array xs ih =>
    rw [Strict, strictItems_iff] at h
    rw [arrange, arrangeItems_eq, Strict, strictItems_iff, List.forall_mem_map]
    exact fun x hx => ih x hx (h x hx)
  | object ms ih =>
    rw [Strict, strictMembers_iff] at h
    rw [arrange_object, Strict, strictMembers_iff, List.forall_mem_map, List.map_map]
    refine ⟨nodup_enumerate h.1, fun m hm => ?_⟩
    have hmem := (perm_enumerate ms).mem_iff.mp hm
    exact ih m hmem (h.2 m hmem)

theorem jsonParse_stringify {x : Json numbers.Num} (h : Strict numbers.safe x) :
    jsonParse numbers.read (stringify x) = some (arrange x) := by
  have hpadded : IsText jsonBlanks numbers.read ([] ++ (stringify x ++ [])) (arrange x) :=
    .padded blank_nil (isValue_stringify x h) blank_nil
  rw [List.nil_append, List.append_nil, ← read_eq_some_iff] at hpadded
  rw [jsonParse, hpadded, Option.map_some, evaluate_strict (strict_arrange x h)]

theorem map_eq_of_map_eq {α β γ : Type} {f : α → β} {g : α → γ} {xs ys : List α}
    (h : ∀ x ∈ xs, ∀ y, f x = f y → g x = g y) (hf : xs.map f = ys.map f) : xs.map g = ys.map g := by
  induction xs generalizing ys with
  | nil =>
    rw [List.map_nil, eq_comm, List.map_eq_nil_iff] at hf
    rw [hf]
  | cons x xs ih =>
    cases ys with
    | nil => exact absurd hf (by simp)
    | cons y ys =>
      rw [List.map_cons, List.map_cons, List.cons.injEq] at hf
      obtain ⟨hx, hxs⟩ := List.forall_mem_cons.mp h
      rw [List.map_cons, List.map_cons, hx y hf.1, ih hxs hf.2]

/-- The text depends on the arranged value alone. -/
theorem stringify_of_arrange {x y : Json numbers.Num} (h : arrange x = arrange y) : stringify x = stringify y := by
  induction x using json_induct generalizing y with
  | null => cases y with
    | null => rfl
    | _ => simp [arrange] at h
  | bool b => cases y with
    | bool b' => rw [Json.bool.inj h]
    | _ => simp [arrange] at h
  | number n => cases y with
    | number m =>
      rw [arrange, arrange, Json.number.injEq] at h
      rw [stringify, stringify, ← numbers.print_unsigned, h, numbers.print_unsigned]
    | _ => simp [arrange] at h
  | string s => cases y with
    | string s' => rw [Json.string.inj h]
    | _ => simp [arrange] at h
  | array xs ih => cases y with
    | array ys =>
      rw [arrange, arrange, arrangeItems_eq, arrangeItems_eq, Json.array.injEq] at h
      rw [stringify, stringify, stringifyItems_eq, stringifyItems_eq,
        map_eq_of_map_eq (fun x hx y hxy => ih x hx hxy) h]
    | _ => simp [arrange] at h
  | object ms ih => cases y with
    | object ns =>
      rw [arrange_object, arrange_object, Json.object.injEq] at h
      have hstep : ∀ m ∈ enumerate ms, ∀ n : Text × Json numbers.Num, (m.1, arrange m.2) = (n.1, arrange n.2) →
          quote m.1 ++ unit ':' :: stringify m.2 = quote n.1 ++ unit ':' :: stringify n.2 := by
        intro m hm n hmn
        rw [Prod.mk.injEq] at hmn
        rw [hmn.1, ih m ((perm_enumerate ms).mem_iff.mp hm) hmn.2]
      rw [stringify_object, stringify_object, map_eq_of_map_eq hstep h]
    | _ => simp [arrange] at h

/-- What is written determines the value up to its arrangement, and is determined by it. -/
theorem stringify_eq_iff {x y : Json numbers.Num} (hx : Strict numbers.safe x) (hy : Strict numbers.safe y) :
    stringify x = stringify y ↔ arrange x = arrange y := by
  constructor
  · intro h
    have hparse := jsonParse_stringify hx
    rw [h, jsonParse_stringify hy] at hparse
    exact (Option.some.inj hparse).symm
  · exact stringify_of_arrange

end JsonGrammar
