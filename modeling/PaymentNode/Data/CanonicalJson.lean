import Mathlib.Data.List.Lex
import PaymentNode.Basic
import PaymentNode.Lib.JsonIntegers
import PaymentNode.Lib.Utf8

/-!
# CanonicalJson — the text every integrity hash is taken of

`canonical.ts`, and the bytes `SecureStateStore.writeJson` puts in a file and `readJson` takes back.  A `Datum` is what `canonicalJson` may be given: a
record keeps its own members in the order they were defined, and a member may be undefined.
-/

namespace PaymentNode.CanonicalJson

open JsonText JsonGrammar

inductive Datum (N : Type)
  | undefined
  /-- A bigint, a symbol or a function. -/
  | unsupported
  | null
  | bool (b : Bool)
  | number (n : N)
  | string (s : Text)
  | array (items : List (Datum N))
  | record (members : List (Text × Datum N))

def isUndefined {N : Type} : Datum N → Bool
  | .undefined => true
  | _ => false

/-- `sort()` of strings: by their code units. -/
def sortKeys (keys : List Text) : List Text := keys.insertionSort (· ≤ ·)

/-- What the loop assigns for a key: nothing where the member is undefined. -/
def pick {α : Type} (items : List (Text × α)) (key : Text) : Option (Text × α) :=
  (items.lookup key).map fun item => (key, item)

section Code

variable {numbers : Numbers}

mutual

/-- The members are translated where they stand; the loop then takes them in the order of the sorted keys. -/
def toCanonical : Datum numbers.Num → Result (Json numbers.Num)
  | .null => .ok .null
  | .bool b => .ok (.bool b)
  | .string s => .ok (.string s)
  | .number n => if numbers.safe n then .ok (.number n) else invalid "Canonical data contains an unsupported value."
  | .array xs => (toCanonicalItems xs).map .array
  | .record ms =>
    (toCanonicalMembers ms).map fun items => .object ((sortKeys (ms.map Prod.fst)).filterMap (pick items))
  | .undefined => invalid "Canonical data contains an unsupported value."
  | .unsupported => invalid "Canonical data contains an unsupported value."

def toCanonicalItems : List (Datum numbers.Num) → Result (List (Json numbers.Num))
  | [] => .ok []
  | x :: xs => do
    let item ← toCanonical x
    let items ← toCanonicalItems xs
    .ok (item :: items)

/-- The members that are not undefined. -/
def toCanonicalMembers : List (Text × Datum numbers.Num) → Result (List (Text × Json numbers.Num))
  | [] => .ok []
  | (key, x) :: ms =>
    if isUndefined x then toCanonicalMembers ms
    else do
      let item ← toCanonical x
      let items ← toCanonicalMembers ms
      .ok ((key, item) :: items)

end

def canonicalJson (value : Datum numbers.Num) : Result Text := (toCanonical value).map stringify

mutual

/-- A parsed value, as a value of the program. -/
def ofJson : Json numbers.Num → Datum numbers.Num
  | .null => .null
  | .bool b => .bool b
  | .number n => .number n
  | .string s => .string s
  | .array xs => .array (ofJsonItems xs)
  | .object ms => .record (ofJsonMembers ms)

def ofJsonItems : List (Json numbers.Num) → List (Datum numbers.Num)
  | [] => []
  | x :: xs => ofJson x :: ofJsonItems xs

def ofJsonMembers : List (Text × Json numbers.Num) → List (Text × Datum numbers.Num)
  | [] => []
  | (name, x) :: ms => (name, ofJson x) :: ofJsonMembers ms

end

def maxStateBytes : ℕ := 1024 * 1024

/-- `readJson`, from the decoded text of the file on. -/
def readText (text : Text) : Result (Json numbers.Num) :=
  match jsonParse numbers.read text with
  | none => corrupt "State file is not valid JSON."
  | some value => do
    let canonical ← canonicalJson (ofJson value)
    if text = canonical ∨ text = canonical ++ [10] then .ok value
    else corrupt "State file is not canonical JSON."

/-- `readJson`, from the size of the open file on. -/
def readJson (bytes : ByteArray) : Result (Json numbers.Num) :=
  if maxStateBytes < bytes.size then corrupt "State file exceeds the size limit."
  else match decodeUtf8 bytes with
    | none => corrupt "State file is not strict UTF-8."
    | some text => readText text

/-- The bytes `writeJson` puts in the file. -/
def writeJson (value : Datum numbers.Num) : Result ByteArray := do
  let canonical ← canonicalJson value
  let serialized := encodeUtf8 (canonical ++ [10])
  if maxStateBytes < serialized.size then corrupt "State file exceeds the size limit."
  else .ok serialized

/-! ## Data, and when two data are the same -/

mutual

/-- Null, booleans, strings, safe numbers, arrays, and records whose members may be undefined. -/
def IsData : Datum numbers.Num → Prop
  | .undefined => False
  | .unsupported => False
  | .number n => numbers.safe n = true
  | .array xs => IsDataItems xs
  | .record ms => (ms.map Prod.fst).Nodup ∧ IsDataMembers ms
  | _ => True

def IsDataItems : List (Datum numbers.Num) → Prop
  | [] => True
  | x :: xs => IsData x ∧ IsDataItems xs

def IsDataMembers : List (Text × Datum numbers.Num) → Prop
  | [] => True
  | (_, x) :: ms => (isUndefined x = true ∨ IsData x) ∧ IsDataMembers ms

end

/-- The key names a member that is not undefined. -/
def Present (key : Text) (ms : List (Text × Datum numbers.Num)) : Prop :=
  ∃ x, (key, x) ∈ ms ∧ isUndefined x = false

mutual

/-- Equal up to the order of record members, members that are undefined, and the sign of zero. -/
def Same : Datum numbers.Num → Datum numbers.Num → Prop
  | .null, .null => True
  | .bool a, .bool b => a = b
  | .number a, .number b => numbers.unsigned a = numbers.unsigned b
  | .string a, .string b => a = b
  | .array xs, .array ys => SameItems xs ys
  | .record ms, .record ns => SameMembers ms ns ∧ ∀ key, Present key ns → Present key ms
  | _, _ => False

def SameItems : List (Datum numbers.Num) → List (Datum numbers.Num) → Prop
  | [], [] => True
  | x :: xs, y :: ys => Same x y ∧ SameItems xs ys
  | _, _ => False

/-- Every member of the first list is in the second. -/
def SameMembers : List (Text × Datum numbers.Num) → List (Text × Datum numbers.Num) → Prop
  | [], _ => True
  | (key, x) :: ms, ns => (isUndefined x = true ∨ ∃ y, (key, y) ∈ ns ∧ Same x y) ∧ SameMembers ms ns

end

end Code

section Induction

variable {N : Type} {P : Datum N → Prop}

mutual

theorem datum_induct (undefined : P .undefined) (unsupported : P .unsupported) (null : P .null)
    (bool : ∀ b, P (.bool b)) (number : ∀ n, P (.number n)) (string : ∀ s, P (.string s))
    (array : ∀ xs, (∀ x ∈ xs, P x) → P (.array xs)) (record : ∀ ms, (∀ m ∈ ms, P m.2) → P (.record ms)) : ∀ x, P x
  | .undefined => undefined
  | .unsupported => unsupported
  | .null => null
  | .bool b => bool b
  | .number n => number n
  | .string s => string s
  | .array xs => array xs (datum_induct_items undefined unsupported null bool number string array record xs)
  | .record ms => record ms (datum_induct_members undefined unsupported null bool number string array record ms)

theorem datum_induct_items (undefined : P .undefined) (unsupported : P .unsupported) (null : P .null)
    (bool : ∀ b, P (.bool b)) (number : ∀ n, P (.number n)) (string : ∀ s, P (.string s))
    (array : ∀ xs, (∀ x ∈ xs, P x) → P (.array xs)) (record : ∀ ms, (∀ m ∈ ms, P m.2) → P (.record ms)) :
    ∀ xs : List (Datum N), ∀ x ∈ xs, P x
  | [], _, h => absurd h List.not_mem_nil
  | y :: ys, x, h => by
    rcases List.mem_cons.mp h with heq | h
    · rw [heq]
      exact datum_induct undefined unsupported null bool number string array record y
    · exact datum_induct_items undefined unsupported null bool number string array record ys x h

theorem datum_induct_members (undefined : P .undefined) (unsupported : P .unsupported) (null : P .null)
    (bool : ∀ b, P (.bool b)) (number : ∀ n, P (.number n)) (string : ∀ s, P (.string s))
    (array : ∀ xs, (∀ x ∈ xs, P x) → P (.array xs)) (record : ∀ ms, (∀ m ∈ ms, P m.2) → P (.record ms)) :
    ∀ ms : List (Text × Datum N), ∀ m ∈ ms, P m.2
  | [], _, h => absurd h List.not_mem_nil
  | (name, y) :: ms, m, h => by
    rcases List.mem_cons.mp h with heq | h
    · rw [heq]
      exact datum_induct undefined unsupported null bool number string array record y
    · exact datum_induct_members undefined unsupported null bool number string array record ms m h

end

end Induction

section Lists

variable {numbers : Numbers} {xs ys : List (Datum numbers.Num)} {ms ns : List (Text × Datum numbers.Num)}

theorem isDataItems_iff : IsDataItems xs ↔ ∀ x ∈ xs, IsData x := by
  induction xs with
  | nil => exact iff_of_true trivial (fun _ h => absurd h List.not_mem_nil)
  | cons x xs ih => rw [IsDataItems, ih, List.forall_mem_cons]

theorem isDataMembers_iff : IsDataMembers ms ↔ ∀ m ∈ ms, isUndefined m.2 = true ∨ IsData m.2 := by
  induction ms with
  | nil => exact iff_of_true trivial (fun _ h => absurd h List.not_mem_nil)
  | cons m ms ih => rw [IsDataMembers, ih, List.forall_mem_cons]

theorem sameItems_iff : SameItems xs ys ↔ List.Forall₂ Same xs ys := by
  induction xs generalizing ys with
  | nil => cases ys <;> simp [SameItems]
  | cons x xs ih => cases ys with
    | nil => simp [SameItems]
    | cons y ys => rw [SameItems, ih, List.forall₂_cons]

theorem sameMembers_iff :
    SameMembers ms ns ↔ ∀ m ∈ ms, isUndefined m.2 = true ∨ ∃ y, (m.1, y) ∈ ns ∧ Same m.2 y := by
  induction ms with
  | nil => exact iff_of_true trivial (fun _ h => absurd h List.not_mem_nil)
  | cons m ms ih => rw [SameMembers, ih, List.forall_mem_cons]

end Lists

/-! ## Members in the order of their keys -/

section Sorted

variable {α : Type} {items : List (Text × α)}

theorem lookup_iff_mem (h : (items.map Prod.fst).Nodup) {key : Text} {item : α} :
    items.lookup key = some item ↔ (key, item) ∈ items := by
  induction items with
  | nil => simp
  | cons m items ih =>
    obtain ⟨name, x⟩ := m
    rw [List.map_cons, List.nodup_cons] at h
    rw [List.lookup_cons]
    by_cases hkey : key = name
    · subst hkey
      have hfresh : ∀ y, (key, y) ∉ items := fun y hy => h.1 (List.mem_map.mpr ⟨(key, y), hy, rfl⟩)
      simp only [beq_self_eq_true, Option.some.injEq, List.mem_cons, Prod.mk.injEq, true_and, hfresh,
        or_false]
      exact eq_comm
    · have hbeq : (key == name) = false := beq_false_of_ne hkey
      simp only [hbeq, ih h.2, List.mem_cons, Prod.mk.injEq, hkey, false_and, false_or]

-- The loop keeps exactly the members it was given a value for.
theorem mem_picked (h : (items.map Prod.fst).Nodup) {keys : List Text}
    (hkeys : ∀ m ∈ items, m.1 ∈ keys) {m : Text × α} : m ∈ (sortKeys keys).filterMap (pick items) ↔ m ∈ items := by
  obtain ⟨key, item⟩ := m
  simp only [List.mem_filterMap, pick, Option.map_eq_some_iff, Prod.mk.injEq]
  constructor
  · rintro ⟨k, _, x, hlookup, rfl, rfl⟩
    exact (lookup_iff_mem h).mp hlookup
  · intro hmem
    exact ⟨key, (List.mem_insertionSort _).mpr (hkeys _ hmem), item, (lookup_iff_mem h).mpr hmem, rfl, rfl⟩

theorem sortKeys_lt {keys : List Text} (h : keys.Nodup) : (sortKeys keys).Pairwise (· < ·) := by
  have hle : (sortKeys keys).Pairwise (· ≤ ·) := List.pairwise_insertionSort _ _
  have hne : (sortKeys keys).Pairwise (· ≠ ·) := (List.perm_insertionSort _ _).nodup_iff.mpr h
  exact (hle.and hne).imp fun hlt => lt_of_le_of_ne hlt.1 hlt.2

theorem picked_lt {keys : List Text} (h : keys.Nodup) :
    ((sortKeys keys).filterMap (pick items)).Pairwise fun a b => a.1 < b.1 := by
  rw [List.pairwise_filterMap]
  refine (sortKeys_lt h).imp fun {k k'} hlt a ha b hb => ?_
  simp only [pick, Option.map_eq_some_iff] at ha hb
  obtain ⟨_, _, rfl⟩ := ha
  obtain ⟨_, _, rfl⟩ := hb
  exact hlt

-- Two lists of members in strictly ascending order with the same members are one list.
theorem sorted_ext {l l' : List (Text × α)} (hl : l.Pairwise fun a b => a.1 < b.1)
    (hl' : l'.Pairwise fun a b => a.1 < b.1) (h : ∀ m, m ∈ l ↔ m ∈ l') : l = l' := by
  have hnodup : ∀ {l : List (Text × α)}, (l.Pairwise fun a b => a.1 < b.1) → l.Nodup := fun hlt =>
    List.Pairwise.imp (fun {a b} hab (heq : a = b) => lt_irrefl b.1 (heq ▸ hab)) hlt
  have hperm : l.Perm l' := (List.perm_ext_iff_of_nodup (hnodup hl) (hnodup hl')).mpr h
  exact hperm.eq_of_pairwise (fun a b _ _ hab hba => absurd (hab.trans hba) (lt_irrefl _)) hl hl'

end Sorted

/-! ## The translation of data -/

section Translation

variable {numbers : Numbers} {xs : List (Datum numbers.Num)} {ms : List (Text × Datum numbers.Num)}

theorem map_ok {α β : Type} {x : Result α} {f : α → β} {b : β} : x.map f = .ok b ↔ ∃ a, x = .ok a ∧ f a = b := by
  cases x with
  | error e => simp [Except.map]
  | ok a => simp [Except.map]

variable {c : Json numbers.Num}

theorem toCanonical_number {n : numbers.Num} :
    toCanonical (.number n) = .ok c ↔ numbers.safe n = true ∧ c = .number n := by
  rw [toCanonical]
  split_ifs with h
  · simp [h, eq_comm]
  · simp [invalid, h]

theorem toCanonicalItems_ok {cs : List (Json numbers.Num)} :
    toCanonicalItems xs = .ok cs ↔ List.Forall₂ (fun x c => toCanonical x = .ok c) xs cs := by
  induction xs generalizing cs with
  | nil => simp [toCanonicalItems, eq_comm]
  | cons x xs ih =>
    rw [toCanonicalItems, List.forall₂_cons_left_iff]
    simp only [bind_ok, Except.ok.injEq]
    constructor
    · rintro ⟨c, hc, cs', hcs, rfl⟩
      exact ⟨c, cs', hc, ih.mp hcs, rfl⟩
    · rintro ⟨c, cs', hc, hcs, rfl⟩
      exact ⟨c, hc, cs', ih.mpr hcs, rfl⟩

theorem toCanonicalMembers_names {items : List (Text × Json numbers.Num)} (h : toCanonicalMembers ms = .ok items) :
    (items.map Prod.fst).Sublist (ms.map Prod.fst) := by
  induction ms generalizing items with
  | nil =>
    obtain rfl : [] = items := by simpa [toCanonicalMembers] using h
    exact List.Sublist.refl _
  | cons m ms ih =>
    obtain ⟨key, x⟩ := m
    rw [toCanonicalMembers] at h
    split_ifs at h with hundefined
    · exact (ih h).cons key
    · simp only [bind_ok, Except.ok.injEq] at h
      obtain ⟨c, _, items', hitems, rfl⟩ := h
      exact (ih hitems).cons_cons key

theorem mem_toCanonicalMembers {items : List (Text × Json numbers.Num)} (h : toCanonicalMembers ms = .ok items)
    {key : Text} :
    (key, c) ∈ items ↔ ∃ x, (key, x) ∈ ms ∧ isUndefined x = false ∧ toCanonical x = .ok c := by
  induction ms generalizing items with
  | nil =>
    obtain rfl : [] = items := by simpa [toCanonicalMembers] using h
    simp
  | cons m ms ih =>
    obtain ⟨name, y⟩ := m
    rw [toCanonicalMembers] at h
    split_ifs at h with hundefined
    · rw [ih h]
      constructor
      · rintro ⟨x, hx, hpresent, hc⟩
        exact ⟨x, List.mem_cons_of_mem _ hx, hpresent, hc⟩
      · rintro ⟨x, hx, hpresent, hc⟩
        rcases List.mem_cons.mp hx with heq | hx
        · rw [Prod.mk.injEq] at heq
          rw [heq.2, hundefined] at hpresent
          exact absurd hpresent (by decide)
        · exact ⟨x, hx, hpresent, hc⟩
    · simp only [bind_ok, Except.ok.injEq] at h
      obtain ⟨d, hd, items', hitems, rfl⟩ := h
      rw [List.mem_cons, ih hitems]
      constructor
      · rintro (heq | ⟨x, hx, hpresent, hc⟩)
        · rw [Prod.mk.injEq] at heq
          refine ⟨y, ?_, by simpa using hundefined, by rw [heq.2, hd]⟩
          rw [heq.1]
          exact List.mem_cons_self
        · exact ⟨x, List.mem_cons_of_mem _ hx, hpresent, hc⟩
      · rintro ⟨x, hx, hpresent, hc⟩
        rcases List.mem_cons.mp hx with heq | hx
        · rw [Prod.mk.injEq] at heq
          rw [heq.2, hd] at hc
          exact .inl (by rw [heq.1, Except.ok.inj hc])
        · exact .inr ⟨x, hx, hpresent, hc⟩

-- A record that was translated: its members in strictly ascending order, those that are not undefined.
theorem toCanonical_record (hnodup : (ms.map Prod.fst).Nodup) (h : toCanonical (.record ms) = .ok c) :
    ∃ ns, c = .object ns ∧ (ns.Pairwise fun a b => a.1 < b.1) ∧
      ∀ key d, (key, d) ∈ ns ↔ ∃ x, (key, x) ∈ ms ∧ isUndefined x = false ∧ toCanonical x = .ok d := by
  rw [toCanonical, map_ok] at h
  obtain ⟨items, hitems, rfl⟩ := h
  have hnames := toCanonicalMembers_names hitems
  have hkeys : ∀ m ∈ items, m.1 ∈ ms.map Prod.fst := fun m hm => hnames.subset (List.mem_map_of_mem hm)
  refine ⟨_, rfl, picked_lt hnodup, fun key d => ?_⟩
  rw [mem_picked (hnames.nodup hnodup) hkeys, mem_toCanonicalMembers hitems]

theorem mem_of_forall₂ {α β : Type} {R : α → β → Prop} {as : List α} {bs : List β} (h : List.Forall₂ R as bs) {b : β}
    (hb : b ∈ bs) : ∃ a ∈ as, R a b := by
  induction h with
  | nil => exact absurd hb List.not_mem_nil
  | cons hab _ ih =>
    rcases List.mem_cons.mp hb with rfl | hb
    · exact ⟨_, List.mem_cons_self, hab⟩
    · obtain ⟨a, ha, h⟩ := ih hb
      exact ⟨a, List.mem_cons_of_mem _ ha, h⟩

theorem toCanonicalItems_total (h : ∀ x ∈ xs, ∃ c, toCanonical x = .ok c) : ∃ cs, toCanonicalItems xs = .ok cs := by
  induction xs with
  | nil => exact ⟨[], rfl⟩
  | cons x xs ih =>
    obtain ⟨hx, hxs⟩ := List.forall_mem_cons.mp h
    obtain ⟨c, hc⟩ := hx
    obtain ⟨cs, hcs⟩ := ih hxs
    exact ⟨c :: cs, by rw [toCanonicalItems, hc, hcs]; rfl⟩

theorem toCanonicalMembers_total (h : ∀ m ∈ ms, isUndefined m.2 = true ∨ ∃ c, toCanonical m.2 = .ok c) :
    ∃ items, toCanonicalMembers ms = .ok items := by
  induction ms with
  | nil => exact ⟨[], rfl⟩
  | cons m ms ih =>
    obtain ⟨key, x⟩ := m
    obtain ⟨hx, hms⟩ := List.forall_mem_cons.mp h
    obtain ⟨items, hitems⟩ := ih hms
    rw [toCanonicalMembers]
    rcases hx with hundefined | ⟨c, hc⟩
    · exact ⟨items, by rw [if_pos hundefined, hitems]⟩
    · split_ifs
      · exact ⟨items, hitems⟩
      · exact ⟨(key, c) :: items, by rw [show toCanonical x = .ok c from hc, hitems]; rfl⟩

-- Data is translated, to strict JSON.
theorem toCanonical_data (v : Datum numbers.Num) (h : IsData v) :
    ∃ c, toCanonical v = .ok c ∧ Strict numbers.safe c := by
  induction v using datum_induct with
  | undefined => exact absurd h (by simp [IsData])
  | unsupported => exact absurd h (by simp [IsData])
  | null => exact ⟨.null, rfl, trivial⟩
  | bool b => exact ⟨.bool b, rfl, trivial⟩
  | number n => exact ⟨.number n, toCanonical_number.mpr ⟨h, rfl⟩, h⟩
  | string s => exact ⟨.string s, rfl, trivial⟩
  | array xs ih =>
    rw [IsData, isDataItems_iff] at h
    obtain ⟨cs, hcs⟩ := toCanonicalItems_total fun x hx => (ih x hx (h x hx)).imp fun _ hc => hc.1
    refine ⟨.array cs, by rw [toCanonical, hcs]; rfl, ?_⟩
    rw [Strict, strictItems_iff]
    intro c hc
    obtain ⟨x, hx, htranslated⟩ := mem_of_forall₂ (toCanonicalItems_ok.mp hcs) hc
    obtain ⟨d, hd, hstrict⟩ := ih x hx (h x hx)
    rw [htranslated] at hd
    rwa [Except.ok.inj hd]
  | record ms ih =>
    rw [IsData, isDataMembers_iff] at h
    obtain ⟨items, hitems⟩ := toCanonicalMembers_total fun m hm =>
      (h.2 m hm).imp id fun hdata => (ih m hm hdata).imp fun _ hc => hc.1
    have hrecord : ∃ c, toCanonical (.record ms) = .ok c := ⟨_, by rw [toCanonical, hitems]; rfl⟩
    obtain ⟨c, hc⟩ := hrecord
    obtain ⟨ns, rfl, hlt, hmem⟩ := toCanonical_record h.1 hc
    refine ⟨_, hc, ?_⟩
    rw [Strict, strictMembers_iff]
    refine ⟨?_, fun m hm => ?_⟩
    · exact List.Pairwise.map Prod.fst (fun a b hab => ne_of_lt hab) hlt
    · obtain ⟨x, hx, hpresent, htranslated⟩ := (hmem m.1 m.2).mp hm
      have hdata := (h.2 _ hx).resolve_left (by simp [hpresent])
      obtain ⟨d, hd, hstrict⟩ := ih _ hx hdata
      rw [htranslated] at hd
      rwa [Except.ok.inj hd]

end Translation

/-! ## Same data, same text -/

section Normal

variable {numbers : Numbers}

-- The members of a translated record, each with its arranged value: those of the record that are not undefined.
theorem arranged_record {ms : List (Text × Datum numbers.Num)} {c : Json numbers.Num}
    (hnodup : (ms.map Prod.fst).Nodup) (h : toCanonical (.record ms) = .ok c) :
    ∃ ns, arrange c = .object (enumerate ns) ∧ (ns.Pairwise fun a b => a.1 < b.1) ∧
      ∀ key e, (key, e) ∈ ns ↔
        ∃ x d, (key, x) ∈ ms ∧ isUndefined x = false ∧ toCanonical x = .ok d ∧ e = arrange d := by
  obtain ⟨ns, rfl, hlt, hmem⟩ := toCanonical_record hnodup h
  refine ⟨ns.map fun m => (m.1, arrange m.2), ?_, ?_, fun key e => ?_⟩
  · rw [arrange_object, enumerate_map]
  · exact List.Pairwise.map _ (fun _ _ hab => hab) hlt
  · simp only [List.mem_map, Prod.mk.injEq, Prod.exists]
    constructor
    · rintro ⟨_, d, hd, rfl, rfl⟩
      obtain ⟨x, hx, hpresent, htranslated⟩ := (hmem _ _).mp hd
      exact ⟨x, d, hx, hpresent, htranslated, rfl⟩
    · rintro ⟨x, d, hx, hpresent, htranslated, rfl⟩
      exact ⟨key, d, (hmem _ _).mpr ⟨x, hx, hpresent, htranslated⟩, rfl, rfl⟩

theorem member_unique {ms : List (Text × Datum numbers.Num)} (hnodup : (ms.map Prod.fst).Nodup) {key : Text}
    {x y : Datum numbers.Num} (hx : (key, x) ∈ ms) (hy : (key, y) ∈ ms) : x = y := by
  have h := (lookup_iff_mem hnodup).mpr hx
  rw [(lookup_iff_mem hnodup).mpr hy] at h
  exact (Option.some.inj h).symm

theorem not_undefined_of_same {x y : Datum numbers.Num} (hx : isUndefined x = false) (h : Same x y) :
    isUndefined y = false := by
  cases y with
  | undefined => cases x <;> simp [Same] at h
  | _ => rfl

-- One record's members against another's, the values compared as the hypothesis says.
theorem record_iff {ms ns : List (Text × Datum numbers.Num)} {c d : Json numbers.Num}
    (hms : IsData (.record ms)) (hns : IsData (.record ns)) (hc : toCanonical (.record ms) = .ok c)
    (hd : toCanonical (.record ns) = .ok d)
    (ih : ∀ m ∈ ms, ∀ y e f, IsData m.2 → IsData y → toCanonical m.2 = .ok e → toCanonical y = .ok f →
      (arrange e = arrange f ↔ Same m.2 y)) :
    arrange c = arrange d ↔ Same (.record ms) (.record ns) := by
  rw [IsData, isDataMembers_iff] at hms hns
  obtain ⟨as, has, hlta, hmema⟩ := arranged_record hms.1 hc
  obtain ⟨bs, hbs, hltb, hmemb⟩ := arranged_record hns.1 hd
  have hdata : ∀ {ms : List (Text × Datum numbers.Num)} {key x},
      (∀ m ∈ ms, isUndefined m.2 = true ∨ IsData m.2) → (key, x) ∈ ms → isUndefined x = false → IsData x :=
    fun h hx hpresent => (h _ hx).resolve_left (by simp [hpresent])
  rw [has, hbs, Json.object.injEq, Same, sameMembers_iff]
  constructor
  · intro heq
    have hsame : ∀ m, m ∈ as ↔ m ∈ bs := fun m => by
      rw [← (perm_enumerate as).mem_iff, heq, (perm_enumerate bs).mem_iff]
    refine ⟨fun m hm => ?_, fun key ⟨y, hy, hpresent⟩ => ?_⟩
    · cases hundefined : isUndefined m.2 with
      | true => exact .inl rfl
      | false =>
        obtain ⟨e, he, _⟩ := toCanonical_data m.2 (hdata hms.2 hm hundefined)
        have hmem := (hmema m.1 (arrange e)).mpr ⟨m.2, e, hm, hundefined, he, rfl⟩
        obtain ⟨y, f, hy, hpresent, hf, harrange⟩ := (hmemb _ _).mp ((hsame _).mp hmem)
        exact .inr ⟨y, hy, (ih m hm y e f (hdata hms.2 hm hundefined) (hdata hns.2 hy hpresent) he hf).mp harrange⟩
    · obtain ⟨f, hf, _⟩ := toCanonical_data y (hdata hns.2 hy hpresent)
      have hmem := (hmemb key (arrange f)).mpr ⟨y, f, hy, hpresent, hf, rfl⟩
      obtain ⟨x, _, hx, hx', _⟩ := (hmema _ _).mp ((hsame _).mpr hmem)
      exact ⟨x, hx, hx'⟩
  · rintro ⟨hmembers, hkeys⟩
    have hforth : ∀ key x, (key, x) ∈ ms → isUndefined x = false → ∃ y, (key, y) ∈ ns ∧ Same x y := by
      intro key x hx hpresent
      exact (hmembers _ hx).resolve_left (by simp [hpresent])
    refine congrArg enumerate (sorted_ext hlta hltb fun m => ?_)
    obtain ⟨key, e⟩ := m
    rw [hmema, hmemb]
    constructor
    · rintro ⟨x, e', hx, hpresent, he, rfl⟩
      obtain ⟨y, hy, hxy⟩ := hforth key x hx hpresent
      have hpresent' := not_undefined_of_same hpresent hxy
      obtain ⟨f, hf, _⟩ := toCanonical_data y (hdata hns.2 hy hpresent')
      exact ⟨y, f, hy, hpresent', hf,
        (ih _ hx y e' f (hdata hms.2 hx hpresent) (hdata hns.2 hy hpresent') he hf).mpr hxy⟩
    · rintro ⟨y, f, hy, hpresent, hf, rfl⟩
      obtain ⟨x, hx, hpresent'⟩ := hkeys key ⟨y, hy, hpresent⟩
      obtain ⟨y', hy', hxy⟩ := hforth key x hx hpresent'
      rw [member_unique hns.1 hy' hy] at hxy
      obtain ⟨e, he, _⟩ := toCanonical_data x (hdata hms.2 hx hpresent')
      exact ⟨x, e, hx, hpresent', he,
        ((ih _ hx y e f (hdata hms.2 hx hpresent') (hdata hns.2 hy hpresent) he hf).mpr hxy).symm⟩

theorem items_iff {xs ys : List (Datum numbers.Num)} {cs ds : List (Json numbers.Num)}
    (hxs : ∀ x ∈ xs, IsData x) (hys : ∀ y ∈ ys, IsData y) (hcs : toCanonicalItems xs = .ok cs)
    (hds : toCanonicalItems ys = .ok ds)
    (ih : ∀ x ∈ xs, ∀ y e f, IsData x → IsData y → toCanonical x = .ok e → toCanonical y = .ok f →
      (arrange e = arrange f ↔ Same x y)) :
    cs.map arrange = ds.map arrange ↔ List.Forall₂ Same xs ys := by
  rw [toCanonicalItems_ok] at hcs hds
  induction hcs generalizing ys ds with
  | nil => cases hds <;> simp
  | @cons x c xs cs hc _ ihs => cases hds with
    | nil => simp
    | @cons y d ys ds hd hds =>
      obtain ⟨hx, hxs⟩ := List.forall_mem_cons.mp hxs
      obtain ⟨hy, hys⟩ := List.forall_mem_cons.mp hys
      obtain ⟨ihx, ihxs⟩ := List.forall_mem_cons.mp ih
      rw [List.map_cons, List.map_cons, List.cons.injEq, List.forall₂_cons, ihx y c d hx hy hc hd,
        ihs hxs hys hds ihxs]

def kind {N : Type} : Datum N → ℕ
  | .undefined => 0
  | .unsupported => 1
  | .null => 2
  | .bool _ => 3
  | .number _ => 4
  | .string _ => 5
  | .array _ => 6
  | .record _ => 7

def jsonKind {N : Type} : Json N → ℕ
  | .null => 2
  | .bool _ => 3
  | .number _ => 4
  | .string _ => 5
  | .array _ => 6
  | .object _ => 7

variable {v : Datum numbers.Num}

theorem kind_translated {c : Json numbers.Num} (h : toCanonical v = .ok c) :
    jsonKind (arrange c) = kind v := by
  have hkind : ∀ c : Json numbers.Num, jsonKind (arrange c) = jsonKind c := fun c => by cases c <;> rfl
  rw [hkind]
  cases v with
  | number n => rw [(toCanonical_number.mp h).2]; rfl
  | array xs =>
    rw [toCanonical, map_ok] at h
    obtain ⟨_, _, rfl⟩ := h
    rfl
  | record ms =>
    rw [toCanonical, map_ok] at h
    obtain ⟨_, _, rfl⟩ := h
    rfl
  | undefined => exact absurd h (by simp [toCanonical])
  | unsupported => exact absurd h (by simp [toCanonical])
  | _ => rw [toCanonical, Except.ok.injEq] at h; rw [← h]; rfl

theorem kind_same {v w : Datum numbers.Num} (h : Same v w) : kind v = kind w := by
  cases v <;> cases w <;> first | rfl | exact absurd h (by simp [Same])

theorem kinds_differ {v w : Datum numbers.Num} {c d : Json numbers.Num} (hc : toCanonical v = .ok c)
    (hd : toCanonical w = .ok d) (hkind : kind v ≠ kind w) : arrange c = arrange d ↔ Same v w :=
  iff_of_false (fun h => hkind (by rw [← kind_translated hc, h, kind_translated hd])) fun h => hkind (kind_same h)

-- Translated data agree in arrangement exactly where the data are the same.
theorem same_iff (v : Datum numbers.Num) : ∀ w c d, IsData v → IsData w → toCanonical v = .ok c →
    toCanonical w = .ok d → (arrange c = arrange d ↔ Same v w) := by
  induction v using datum_induct with
  | undefined => exact fun _ _ _ hv => absurd hv (by simp [IsData])
  | unsupported => exact fun _ _ _ hv => absurd hv (by simp [IsData])
  | null =>
    intro w c d _ _ hc hd
    cases w with
    | null => exact iff_of_true (by rw [Except.ok.inj (hc.symm.trans hd)]) trivial
    | _ => exact kinds_differ hc hd (by simp [kind])
  | bool b =>
    intro w c d _ _ hc hd
    cases w with
    | bool b' =>
      rw [← Except.ok.inj hc, ← Except.ok.inj hd]
      show Json.bool b = Json.bool b' ↔ b = b'
      rw [Json.bool.injEq]
    | _ => exact kinds_differ hc hd (by simp [kind])
  | number n =>
    intro w c d _ _ hc hd
    cases w with
    | number m =>
      rw [(toCanonical_number.mp hc).2, (toCanonical_number.mp hd).2, Same, arrange, arrange, Json.number.injEq]
    | _ => exact kinds_differ hc hd (by simp [kind])
  | string s =>
    intro w c d _ _ hc hd
    cases w with
    | string s' =>
      rw [← Except.ok.inj hc, ← Except.ok.inj hd]
      show Json.string s = Json.string s' ↔ s = s'
      rw [Json.string.injEq]
    | _ => exact kinds_differ hc hd (by simp [kind])
  | array xs ih =>
    intro w c d hv hw hc hd
    cases w with
    | array ys =>
      rw [IsData, isDataItems_iff] at hv hw
      rw [toCanonical, map_ok] at hc hd
      obtain ⟨cs, hcs, rfl⟩ := hc
      obtain ⟨ds, hds, rfl⟩ := hd
      rw [arrange, arrange, arrangeItems_eq, arrangeItems_eq, Json.array.injEq, Same, sameItems_iff]
      exact items_iff hv hw hcs hds ih
    | _ => exact kinds_differ hc hd (by simp [kind])
  | record ms ih =>
    intro w c d hv hw hc hd
    cases w with
    | record ns => exact record_iff hv hw hc hd ih
    | _ => exact kinds_differ hc hd (by simp [kind])

theorem canonicalJson_data (h : IsData v) :
    ∃ c, toCanonical v = .ok c ∧ Strict numbers.safe c ∧ canonicalJson v = .ok (stringify c) := by
  obtain ⟨c, hc, hstrict⟩ := toCanonical_data v h
  exact ⟨c, hc, hstrict, by rw [canonicalJson, hc]; rfl⟩

/-! ## Reading back -/

theorem ofJsonItems_eq (xs : List (Json numbers.Num)) : ofJsonItems xs = xs.map ofJson := by
  induction xs with
  | nil => rfl
  | cons x xs ih => rw [ofJsonItems, ih, List.map_cons]

theorem ofJsonMembers_eq (ms : List (Text × Json numbers.Num)) :
    ofJsonMembers ms = ms.map fun m => (m.1, ofJson m.2) := by
  induction ms with
  | nil => rfl
  | cons m ms ih => rw [ofJsonMembers, ih, List.map_cons]

theorem isData_ofJson (x : Json numbers.Num) (h : Strict numbers.safe x) : IsData (ofJson x) := by
  induction x using json_induct with
  | null => trivial
  | bool b => trivial
  | number n => exact h
  | string s => trivial
  | array xs ih =>
    rw [Strict, strictItems_iff] at h
    rw [ofJson, ofJsonItems_eq, IsData, isDataItems_iff, List.forall_mem_map]
    exact fun x hx => ih x hx (h x hx)
  | object ms ih =>
    rw [Strict, strictMembers_iff] at h
    rw [ofJson, ofJsonMembers_eq, IsData, isDataMembers_iff, List.map_map, List.forall_mem_map]
    exact ⟨h.1, fun m hm => .inr (ih m hm (h.2 m hm))⟩

-- What was written is read back as the same data.
theorem same_ofJson (v : Datum numbers.Num) : ∀ c, IsData v → toCanonical v = .ok c → Same v (ofJson (arrange c)) := by
  induction v using datum_induct with
  | undefined => exact fun _ hv => absurd hv (by simp [IsData])
  | unsupported => exact fun _ hv => absurd hv (by simp [IsData])
  | null =>
    intro c _ hc
    rw [← Except.ok.inj hc]
    trivial
  | bool b =>
    intro c _ hc
    rw [← Except.ok.inj hc]
    rfl
  | number n =>
    intro c _ hc
    rw [(toCanonical_number.mp hc).2, arrange, ofJson, Same, numbers.unsigned_unsigned]
  | string s =>
    intro c _ hc
    rw [← Except.ok.inj hc]
    rfl
  | array xs ih =>
    intro c hv hc
    rw [IsData, isDataItems_iff] at hv
    rw [toCanonical, map_ok] at hc
    obtain ⟨cs, hcs, rfl⟩ := hc
    rw [toCanonicalItems_ok] at hcs
    rw [arrange, arrangeItems_eq, ofJson, ofJsonItems_eq, List.map_map, Same, sameItems_iff,
      List.forall₂_map_right_iff]
    induction hcs with
    | nil => exact .nil
    | @cons x c xs cs hc _ ihs =>
      obtain ⟨hx, hxs⟩ := List.forall_mem_cons.mp hv
      obtain ⟨ihx, ihxs⟩ := List.forall_mem_cons.mp ih
      exact .cons (ihx c hx hc) (ihs ihxs hxs)
  | record ms ih =>
    intro c hv hc
    rw [IsData, isDataMembers_iff] at hv
    obtain ⟨ns, hns, _, hmem⟩ := arranged_record hv.1 hc
    rw [hns, ofJson, ofJsonMembers_eq, Same, sameMembers_iff]
    -- A member is undefined, or among the arranged ones; and each of these is a member.
    refine ⟨fun m hm => ?_, fun key hkey => ?_⟩
    · cases hundefined : isUndefined m.2 with
      | true => exact .inl rfl
      | false =>
        have hdata := (hv.2 m hm).resolve_left (by simp [hundefined])
        obtain ⟨d, hd, _⟩ := toCanonical_data m.2 hdata
        have hin := (hmem m.1 (arrange d)).mpr ⟨m.2, d, hm, hundefined, hd, rfl⟩
        refine .inr ⟨ofJson (arrange d), ?_, ih m hm d hdata hd⟩
        exact List.mem_map.mpr ⟨_, (perm_enumerate ns).mem_iff.mpr hin, rfl⟩
    · obtain ⟨y, hy, _⟩ := hkey
      obtain ⟨m, hm, heq⟩ := List.mem_map.mp hy
      rw [Prod.mk.injEq] at heq
      obtain ⟨x, _, hx, hpresent, _⟩ := (hmem m.1 m.2).mp ((perm_enumerate ns).mem_iff.mp hm)
      rw [heq.1] at hx
      exact ⟨x, hx, hpresent⟩

-- What `canonicalJson` writes for data is a JSON text, and is written again for the value parsed from it.
theorem canonicalJson_parsed {s : Text} (hv : IsData v) (h : canonicalJson v = .ok s) :
    ∃ p, jsonParse numbers.read s = some p ∧ canonicalJson (ofJson p) = .ok s := by
  obtain ⟨c, hc, hstrict, htext⟩ := canonicalJson_data hv
  rw [htext, Except.ok.injEq] at h
  subst h
  refine ⟨arrange c, jsonParse_stringify hstrict, ?_⟩
  have hdata : IsData (ofJson (arrange c)) := isData_ofJson _ (strict_arrange c hstrict)
  obtain ⟨d, hd, _, htext'⟩ := canonicalJson_data hdata
  have harrange := (same_iff v _ c d hv hdata hc hd).mpr (same_ofJson v c hv hc)
  rw [htext', stringify_of_arrange harrange]

/-- `canonicalJson` is a normal form: it writes one text for the same data, different texts for different data, and
the text it wrote for what is read back from it. -/
theorem canonicalJson_normal_form (v w : Datum numbers.Num) (hv : IsData v) (hw : IsData w) :
    ∃ s t, canonicalJson v = .ok s ∧ canonicalJson w = .ok t ∧ (s = t ↔ Same v w) ∧
      ∃ p, jsonParse numbers.read s = some p ∧ canonicalJson (ofJson p) = .ok s := by
  obtain ⟨c, hc, hcs, htext⟩ := canonicalJson_data hv
  obtain ⟨d, hd, hds, htext'⟩ := canonicalJson_data hw
  refine ⟨_, _, htext, htext', ?_, canonicalJson_parsed hv htext⟩
  rw [stringify_eq_iff hcs hds, same_iff v w c d hv hw hc hd]

/-- A `__proto__` member, an integer-like key, negative zero and an undefined member. -/
def written : Datum integers.Num :=
  .record [(units "__proto__", .number (true, 0)), (units "b", .undefined), (units "10", .null), (units "9", .bool true)]

/-- The same data in another order. -/
def rewritten : Datum integers.Num :=
  .record [(units "9", .bool true), (units "__proto__", .number (false, 0)), (units "10", .null)]

theorem canonicalJson_normal_form_written :
    ∃ s t, canonicalJson written = .ok s ∧ canonicalJson rewritten = .ok t ∧ (s = t ↔ Same written rewritten) ∧
      ∃ p, jsonParse integers.read s = some p ∧ canonicalJson (ofJson p) = .ok s :=
  canonicalJson_normal_form written rewritten
    ⟨by decide, .inr (show integers.safe (true, 0) = true from rfl), .inl rfl, .inr trivial, .inr trivial, trivial⟩
    ⟨by decide, .inr trivial, .inr (show integers.safe (false, 0) = true from rfl), .inr trivial, trivial⟩

example : canonicalJson written = .ok (units "\x7b\"9\":true,\"10\":null,\"__proto__\":0\x7d") := by decide +kernel

-- The canonical text, with or without a line feed, is read as the same data; no other text is read as that value.
theorem readText_iff_written {s : Text} (hv : IsData v) (h : canonicalJson v = .ok s) :
    ∃ p : Json numbers.Num, Same v (ofJson p) ∧ ∀ t, readText t = .ok p ↔ t = s ∨ t = s ++ [10] := by
  obtain ⟨p, hparse, hagain⟩ := canonicalJson_parsed hv h
  obtain ⟨c, hc, hstrict, htext⟩ := canonicalJson_data hv
  obtain rfl : stringify c = s := Except.ok.inj (htext.symm.trans h)
  obtain rfl : arrange c = p := Option.some.inj ((jsonParse_stringify hstrict).symm.trans hparse)
  have hfeed : jsonParse numbers.read (stringify c ++ [10]) = some (arrange c) := by
    have hpadded : IsText jsonBlanks numbers.read ([] ++ (stringify c ++ [10])) (arrange c) :=
      .padded blank_nil (isValue_stringify c hstrict) (by simp [Blank, jsonBlanks])
    rw [List.nil_append, ← read_eq_some_iff] at hpadded
    rw [jsonParse, hpadded, Option.map_some, evaluate_strict (strict_arrange c hstrict)]
  refine ⟨arrange c, same_ofJson v c hv hc, fun t => ⟨fun hread => ?_, fun ht => ?_⟩⟩
  · unfold readText at hread
    split at hread
    · cases hread
    · obtain ⟨canonical, hcanonical, hread⟩ := bind_ok.mp hread
      split_ifs at hread with ht
      · cases hread
        rwa [Except.ok.inj (hcanonical.symm.trans hagain)] at ht
      · cases hread
  · have htext : jsonParse numbers.read t = some (arrange c) := by
      rcases ht with rfl | rfl
      · exact hparse
      · exact hfeed
    rw [readText, htext]
    simp only [hagain]
    exact if_pos ht

theorem readJson_ok {bytes : ByteArray} {p : Json numbers.Num} :
    readJson bytes = .ok p ↔ bytes.size ≤ maxStateBytes ∧ ∃ t, decodeUtf8 bytes = some t ∧ readText t = .ok p := by
  unfold readJson
  split_ifs with hsize
  · exact iff_of_false (by simp [corrupt]) fun h => absurd h.1 (not_le.mpr hsize)
  · cases hdecode : decodeUtf8 bytes with
    | none => exact iff_of_false (by simp [corrupt]) (by simp)
    | some text => simp [not_lt.mp hsize]

-- A written text begins in ASCII.
theorem stringify_head {x : Json numbers.Num} (h : Strict numbers.safe x) :
    ∃ c r, stringify x = c :: r ∧ c.val < 128 := by
  cases x with
  | null => exact ⟨_, _, rfl, by decide⟩
  | bool b => cases b <;> exact ⟨_, _, rfl, by decide⟩
  | number n =>
    obtain ⟨c, r, heq, hc⟩ := isNumber_first (numbers.isNumber_print n h)
    refine ⟨c, r, heq, ?_⟩
    rcases hc with rfl | hc
    · decide
    · simp only [isDigit, Bool.and_eq_true, decide_eq_true_iff] at hc
      omega
  | string s => exact ⟨_, _, rfl, by decide⟩
  | array xs => exact ⟨_, _, rfl, by decide⟩
  | object ms => exact ⟨_, _, rfl, by decide⟩

/-- The file `writeJson` leaves is read as the same data.  As that value `readJson` takes these bytes, the same without
the line feed, and either behind a byte-order mark, within the size limit; and no other file. -/
theorem readJson_iff_written {v : Datum numbers.Num} {bytes : ByteArray} (hv : IsData v)
    (h : writeJson v = .ok bytes) :
    ∃ (s : Text) (p : Json numbers.Num), canonicalJson v = .ok s ∧ bytes = encodeUtf8 (s ++ [10]) ∧
      Same v (ofJson p) ∧ readJson bytes = .ok p ∧
      ∀ file, readJson file = .ok p ↔ file.size ≤ maxStateBytes ∧
        ∃ t, (t = s ∨ t = s ++ [10]) ∧ (file = encodeUtf8 t ∨ file = encodeUtf8 (unit byteOrderMark :: t)) := by
  obtain ⟨s, hs, hbytes⟩ := bind_ok.mp h
  have hlimit : encodeUtf8 (s ++ [10]) = bytes ∧ bytes.size ≤ maxStateBytes := by
    dsimp only at hbytes
    split_ifs at hbytes with hsize
    · exact absurd hbytes (by simp [corrupt])
    · cases hbytes
      exact ⟨rfl, not_lt.mp hsize⟩
  obtain ⟨p, hsame, hread⟩ := readText_iff_written hv hs
  obtain ⟨c, _, hstrict, htext⟩ := canonicalJson_data hv
  obtain rfl : stringify c = s := Except.ok.inj (htext.symm.trans hs)
  obtain ⟨first, rest, hfirst, hascii⟩ := stringify_head hstrict
  have hdecode : ∀ t, t = stringify c ∨ t = stringify c ++ [10] → ∀ file,
      decodeUtf8 file = some t ↔ file = encodeUtf8 t ∨ file = encodeUtf8 (unit byteOrderMark :: t) := by
    intro t ht file
    have hmark : first ≠ unit byteOrderMark := by
      rintro rfl
      exact absurd hascii (by decide)
    refine decodeUtf8_iff_encode ?_ ?_
    · rcases ht with rfl | rfl
      · exact paired_stringify c hstrict
      · exact (paired_stringify c hstrict).append (paired_unit (by decide))
    · rcases ht with rfl | rfl <;> rw [hfirst] <;> simpa using hmark
  have hfiles : ∀ file, readJson file = .ok p ↔ file.size ≤ maxStateBytes ∧
      ∃ t, (t = stringify c ∨ t = stringify c ++ [10]) ∧
        (file = encodeUtf8 t ∨ file = encodeUtf8 (unit byteOrderMark :: t)) := by
    intro file
    rw [readJson_ok]
    refine and_congr_right fun _ => exists_congr fun t => ?_
    rw [hread t, and_comm]
    exact and_congr_right fun ht => hdecode t ht file
  refine ⟨_, p, hs, hlimit.1.symm, hsame, (hfiles bytes).mpr ⟨hlimit.2, _, .inr rfl, .inl hlimit.1.symm⟩, hfiles⟩

theorem readJson_iff_written_record : ∃ (bytes : ByteArray) (s : Text) (p : Json integers.Num),
    writeJson written = .ok bytes ∧ canonicalJson written = .ok s ∧ Same written (ofJson p) ∧
      readJson bytes = .ok p ∧ ∀ file, file.size ≤ maxStateBytes →
        file = encodeUtf8 (unit byteOrderMark :: s) → readJson file = .ok p := by
  have hdata : IsData written :=
    ⟨by decide, .inr (show integers.safe (true, 0) = true from rfl), .inl rfl, .inr trivial, .inr trivial, trivial⟩
  have hwrites : (writeJson written).toBool = true := by decide +kernel
  cases h : writeJson written with
  | error e =>
    rw [h] at hwrites
    cases hwrites
  | ok bytes =>
    obtain ⟨s, p, hs, _, hsame, hread, hfiles⟩ := readJson_iff_written hdata h
    exact ⟨bytes, s, p, rfl, hs, hsame, hread, fun file hsize heq =>
      (hfiles file).mpr ⟨hsize, s, .inl rfl, .inr heq⟩⟩

end Normal

end PaymentNode.CanonicalJson
