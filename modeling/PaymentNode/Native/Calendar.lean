import PaymentNode.Native.Transaction
import PaymentNode.Lib.ByteText
import PaymentNode.Lib.CivilDate
import PaymentNode.Lib.DecimalText

/-!
# Calendar — timestamps of the native agent

`parse_rfc3339_utc` slices its text at fixed byte offsets, and a slice that does not lie between two characters
panics.  The calendar arithmetic is `i64` with truncating division.
-/

namespace PaymentNode.Native

open ByteText (byteLen Holds Boundary)

/-- `&value[a..b]` -/
def strSlice (value : List Char) (a b : ℕ) : Rust (List Char) :=
  match ByteText.slice value a b with
  | some text => .ok text
  | none => abort

/-- The separators the parser asks for, with their offsets. -/
def separators : List (ℕ × Char) := [(4, '-'), (7, '-'), (10, 'T'), (13, ':'), (16, ':')]

/-- `&value[k..k + 1] == c` for each of `marks`, up to the first that fails. -/
def separated (value : List Char) : List (ℕ × Char) → Rust Bool
  | [] => .ok true
  | mark :: rest => strSlice value mark.1 (mark.1 + 1) >>= fun found =>
    if found = [mark.2] then separated value rest else .ok false

/-- The guard of `parse_rfc3339_utc`. -/
def framed (value : List Char) : Rust Bool :=
  if ¬ (byteLen value = 20 ∨ byteLen value = 24) then .ok false
  else separated value separators >>= fun found =>
    if found = false ∨ value.getLast? ≠ some 'Z' then .ok false
    else if byteLen value = 24 then separated value [(19, '.')]
    else .ok true

/-- `parse_component(&value[a..b])`; a component has at most four digits, so its value fits `i64`. -/
def parseComponent (value : List Char) (a b : ℕ) : Rust ℤ := do
  let text ← strSlice value a b
  ensure (text.all Char.isDigit = true ∧ text ≠ []) .expired
  .ok (DecimalText.read text)

def daysInMonth (year month : ℤ) : ℤ :=
  if month = 1 ∨ month = 3 ∨ month = 5 ∨ month = 7 ∨ month = 8 ∨ month = 10 ∨ month = 12 then 31
  else if month = 4 ∨ month = 6 ∨ month = 9 ∨ month = 11 then 30
  else if month = 2 ∧ year.tmod 4 = 0 ∧ (year.tmod 100 ≠ 0 ∨ year.tmod 400 = 0) then 29
  else if month = 2 then 28
  else 0

def daysFromCivil (year month day : ℤ) : ℤ :=
  let adjustedYear := year - if month ≤ 2 then 1 else 0
  let era := (if 0 ≤ adjustedYear then adjustedYear else adjustedYear - 399).tdiv 400
  let yearOfEra := adjustedYear - era * 400
  let adjustedMonth := month + if 2 < month then -3 else 9
  let dayOfYear := (153 * adjustedMonth + 2).tdiv 5 + day - 1
  let dayOfEra := yearOfEra * 365 + yearOfEra.tdiv 4 - yearOfEra.tdiv 100 + dayOfYear
  era * 146097 + dayOfEra - 719468

/-- `checked_mul` and `checked_add` of `i64`. -/
def checkedI64 (x : ℤ) : Rust ℤ := if -(2 ^ 63) ≤ x ∧ x < 2 ^ 63 then .ok x else refuse .expired

/-- The milliseconds of a text of 24 bytes. -/
def fractionDigits (value : List Char) : Rust (List Char) :=
  if byteLen value = 24 then strSlice value 20 23 else .ok []

def parseRfc3339Utc (value : List Char) : Rust ℤ := do
  let shape ← framed value
  ensure (shape = true) .expired
  let year ← parseComponent value 0 4
  let month ← parseComponent value 5 7
  let day ← parseComponent value 8 10
  let hour ← parseComponent value 11 13
  let minute ← parseComponent value 14 16
  let second ← parseComponent value 17 19
  let digits ← fractionDigits value
  ensure (digits.all Char.isDigit = true) .expired
  ensure ((1 ≤ month ∧ month ≤ 12) ∧ ¬ day < 1 ∧ ¬ daysInMonth year month < day ∧ ¬ 23 < hour ∧ ¬ 59 < minute ∧
    ¬ 59 < second) .expired
  let base ← checkedI64 (daysFromCivil year month day * 86400)
  checkedI64 (base + (hour * 3600 + minute * 60 + second))

def civilFromDays (days : ℤ) : ℤ × ℤ × ℤ :=
  let shifted := days + 719468
  let era := (if 0 ≤ shifted then shifted else shifted - 146096).tdiv 146097
  let dayOfEra := shifted - era * 146097
  let yearOfEra := (dayOfEra - dayOfEra.tdiv 1460 + dayOfEra.tdiv 36524 - dayOfEra.tdiv 146096).tdiv 365
  let year := yearOfEra + era * 400
  let dayOfYear := dayOfEra - (365 * yearOfEra + yearOfEra.tdiv 4 - yearOfEra.tdiv 100)
  let monthPrime := (5 * dayOfYear + 2).tdiv 153
  let day := dayOfYear - (153 * monthPrime + 2).tdiv 5 + 1
  let month := monthPrime + if monthPrime < 10 then 3 else -9
  (year + if month ≤ 2 then 1 else 0, month, day)

/-- `{n:0width}` of a number that is not negative. -/
def zeroPadded (width : ℕ) (n : ℤ) : List Char := DecimalText.padStart width (DecimalText.print n.toNat)

/-- `{year}-{month}-{day}T{hour}:{minute}:{second}` and what follows the seconds. -/
def stamp (year month day hour minute second rest : List Char) : List Char :=
  year ++ '-' :: (month ++ '-' :: (day ++ 'T' :: (hour ++ ':' :: (minute ++ ':' :: (second ++ rest)))))

def formatRfc3339Utc (timestamp : ℤ) : Rust (List Char) :=
  let days := timestamp / 86400
  let seconds := timestamp % 86400
  let date := civilFromDays days
  if ¬ (0 ≤ date.1 ∧ date.1 ≤ 9999) then refuse .internal
  else .ok (stamp (zeroPadded 4 date.1) (zeroPadded 2 date.2.1) (zeroPadded 2 date.2.2)
    (zeroPadded 2 (seconds.tdiv 3600)) (zeroPadded 2 ((seconds.tmod 3600).tdiv 60)) (zeroPadded 2 (seconds.tmod 60))
    ['.', '0', '0', '0', 'Z'])

/-! ## Slices -/

/-- A character of one byte starts at byte `k`. -/
def OneByteAt (value : List Char) (k : ℕ) : Prop := ∃ c : Char, c.utf8Size = 1 ∧ Holds value k c

theorem strSlice_ok {value text : List Char} {a b : ℕ} :
    strSlice value a b = .ok text ↔ ByteText.slice value a b = some text := by
  unfold strSlice
  cases ByteText.slice value a b with
  | none => simp
  | some t => simp

variable {value : List Char}

theorem strSlice_quiet {a b : ℕ} (hab : a ≤ b) (ha : Boundary value a) (hb : Boundary value b) :
    ¬ Panics (strSlice value a b) := by
  obtain ⟨t, ht⟩ := ByteText.slice_isSome hab ha hb
  rw [strSlice_ok.mpr ht]
  exact panics_ok

theorem panics_strSlice_one {k : ℕ} : Panics (strSlice value k (k + 1)) ↔ ¬ OneByteAt value k := by
  unfold strSlice
  constructor
  · rintro h ⟨c, hsize, hc⟩
    rw [ByteText.slice_one.mpr ⟨c, rfl, hsize, hc⟩] at h
    exact panics_ok h
  · intro h
    cases hslice : ByteText.slice value k (k + 1) with
    | none => rfl
    | some t =>
      obtain ⟨c, -, hsize, hc⟩ := ByteText.slice_one.mp hslice
      exact absurd ⟨c, hsize, hc⟩ h

theorem strSlice_one {k : ℕ} {c : Char} (hsize : c.utf8Size = 1) :
    strSlice value k (k + 1) = .ok [c] ↔ Holds value k c := by
  rw [strSlice_ok, ByteText.slice_one]
  constructor
  · rintro ⟨d, hd, -, hholds⟩
    rw [List.singleton_inj] at hd
    rw [hd]
    exact hholds
  · exact fun h => ⟨c, rfl, hsize, h⟩

section Marks

variable {value : List Char} {marks : List (ℕ × Char)}

theorem separated_true (hsize : ∀ mark ∈ marks, mark.2.utf8Size = 1) :
    separated value marks = .ok true ↔ ∀ mark ∈ marks, Holds value mark.1 mark.2 := by
  induction marks with
  | nil => simp [separated]
  | cons mark rest ih =>
    have hmark := hsize mark List.mem_cons_self
    rw [separated, run_ok, List.forall_mem_cons, ← ih fun m hm => hsize m (List.mem_cons_of_mem _ hm),
      ← strSlice_one hmark]
    constructor
    · rintro ⟨found, hfound, hrest⟩
      by_cases hc : found = [mark.2]
      · rw [if_pos hc] at hrest
        exact ⟨hc ▸ hfound, hrest⟩
      · rw [if_neg hc] at hrest
        cases hrest
    · rintro ⟨hfound, hrest⟩
      exact ⟨_, hfound, by rw [if_pos rfl]; exact hrest⟩

-- The scan panics at the first offset without its separator, unless a one-byte character stands there.
theorem panics_separated (hsize : ∀ mark ∈ marks, mark.2.utf8Size = 1) : Panics (separated value marks) ↔
    ∃ before mark after, marks = before ++ mark :: after ∧ (∀ m ∈ before, Holds value m.1 m.2) ∧
      ¬ OneByteAt value mark.1 := by
  induction marks with
  | nil => simp [separated]
  | cons mark rest ih =>
    have hmark := hsize mark List.mem_cons_self
    have htail := ih fun m hm => hsize m (List.mem_cons_of_mem _ hm)
    rw [separated, panics_run, panics_strSlice_one]
    constructor
    · rintro (hone | ⟨found, hfound, hrest⟩)
      · exact ⟨[], mark, rest, rfl, fun m hm => absurd hm List.not_mem_nil, hone⟩
      · by_cases hc : found = [mark.2]
        · rw [if_pos hc] at hrest
          obtain ⟨before, m, after, rfl, hbefore, hone⟩ := htail.mp hrest
          refine ⟨mark :: before, m, after, rfl, fun q hq => ?_, hone⟩
          rcases List.mem_cons.mp hq with rfl | hq
          · exact (strSlice_one hmark).mp (hc ▸ hfound)
          · exact hbefore q hq
        · rw [if_neg hc] at hrest
          exact absurd hrest panics_ok
    · rintro ⟨before, m, after, heq, hbefore, hone⟩
      cases before with
      | nil =>
        rw [List.nil_append, List.cons.injEq] at heq
        rw [heq.1]
        exact Or.inl hone
      | cons first before =>
        rw [List.cons_append, List.cons.injEq] at heq
        obtain ⟨rfl, rfl⟩ := heq
        have hfirst := hbefore mark List.mem_cons_self
        refine Or.inr ⟨_, (strSlice_one hmark).mpr hfirst, ?_⟩
        rw [if_pos rfl]
        exact htail.mpr ⟨before, m, after, rfl, fun q hq => hbefore q (List.mem_cons_of_mem _ hq), hone⟩

end Marks

/-- The separators asked of a text, in the order they are asked for. -/
def marksOf (value : List Char) : List (ℕ × Char) :=
  separators ++ if byteLen value = 24 ∧ value.getLast? = some 'Z' then [(19, '.')] else []

/-- At the first offset where its separator is missing, the text has no character of one byte. -/
def CutsCharacter (value : List Char) : Prop := (byteLen value = 20 ∨ byteLen value = 24) ∧
  ∃ before mark after, marksOf value = before ++ mark :: after ∧ (∀ m ∈ before, Holds value m.1 m.2) ∧
    ¬ OneByteAt value mark.1

theorem marks_size (value : List Char) : ∀ mark ∈ marksOf value, mark.2.utf8Size = 1 := by
  intro mark hmark
  have hall : ∀ m ∈ separators ++ [(19, '.')], m.2.utf8Size = 1 := by decide
  refine hall mark ?_
  unfold marksOf at hmark
  split at hmark
  · exact hmark
  · rw [List.append_nil] at hmark
    exact List.mem_append_left _ hmark

theorem separated_append (value : List Char) (a b : List (ℕ × Char)) : separated value (a ++ b) =
    separated value a >>= fun found => if found = true then separated value b else .ok false := by
  induction a with
  | nil => rfl
  | cons mark rest ih =>
    rw [List.cons_append, separated, separated]
    cases strSlice value mark.1 (mark.1 + 1) with
    | error e => rfl
    | ok found =>
      rw [ok_run, ok_run]
      split
      · exact ih
      · rfl

theorem framed_eq (value : List Char) : framed value =
    if byteLen value = 20 ∨ byteLen value = 24 then
      separated value (marksOf value) >>= fun found => .ok (found && value.getLast? == some 'Z')
    else .ok false := by
  unfold framed marksOf
  by_cases hlen : byteLen value = 20 ∨ byteLen value = 24
  · rw [if_neg (not_not.mpr hlen), if_pos hlen, separated_append]
    cases separated value separators with
    | error e => rfl
    | ok found =>
      rw [ok_run, ok_run]
      by_cases hlast : value.getLast? = some 'Z'
      · cases found with
        | false => simp
        | true =>
          by_cases hlong : byteLen value = 24
          · rw [if_neg (by simp [hlast]), if_pos hlong, if_pos rfl, if_pos ⟨hlong, hlast⟩, hlast]
            cases separated value [(19, '.')] with
            | error e => rfl
            | ok dot => simp
          · rw [if_neg (by simp [hlast]), if_neg hlong, if_pos rfl, if_neg (by tauto), hlast]
            rfl
      · rw [if_pos (Or.inr hlast), if_neg (c := _ ∧ _) (by tauto)]
        cases found with
        | false => rfl
        | true =>
          show _ = Except.ok (true && _)
          simp [hlast]
  · rw [if_pos hlen, if_neg hlen]

theorem framed_true : framed value = .ok true ↔ (byteLen value = 20 ∨ byteLen value = 24) ∧
    (∀ mark ∈ marksOf value, Holds value mark.1 mark.2) ∧ value.getLast? = some 'Z' := by
  rw [framed_eq]
  by_cases hlen : byteLen value = 20 ∨ byteLen value = 24
  · rw [if_pos hlen, run_ok, ← separated_true (marks_size value)]
    constructor
    · rintro ⟨found, hfound, hlast⟩
      rw [Except.ok.injEq, Bool.and_eq_true, beq_iff_eq] at hlast
      exact ⟨hlen, hlast.1 ▸ hfound, hlast.2⟩
    · rintro ⟨-, hfound, hlast⟩
      exact ⟨true, hfound, by rw [hlast]; rfl⟩
  · rw [if_neg hlen]
    simp [hlen]

theorem panics_framed : Panics (framed value) ↔ CutsCharacter value := by
  unfold CutsCharacter
  rw [framed_eq, ← panics_separated (marks_size value)]
  by_cases hlen : byteLen value = 20 ∨ byteLen value = 24
  · rw [if_pos hlen, panics_run]
    simp [hlen]
  · rw [if_neg hlen]
    simp [hlen]

theorem boundary_last (h : value.getLast? = some 'Z') : Boundary value (byteLen value - 1) := by
  obtain ⟨front, rfl⟩ := List.getLast?_eq_some_iff.mp h
  have hsize : Char.utf8Size 'Z' = 1 := by decide
  refine ⟨front, ['Z'], rfl, ?_⟩
  rw [ByteText.byteLen_append, ByteText.byteLen_cons, ByteText.byteLen_nil, hsize]
  omega

-- In a framed text every component lies between two characters.
theorem boundaries_of_framed (h : framed value = .ok true) :
    (∀ k ∈ [4, 7, 10, 13, 16], Boundary value k ∧ Boundary value (k + 1)) ∧ Boundary value 19 ∧
      (byteLen value = 24 → Boundary value 20 ∧ Boundary value 23) := by
  obtain ⟨hlen, hmarks, hlast⟩ := framed_true.mp h
  have hmark : ∀ mark ∈ marksOf value, Boundary value mark.1 ∧ Boundary value (mark.1 + 1) := by
    intro mark hm
    have hbounds := (hmarks mark hm).boundary
    rwa [marks_size value mark hm] at hbounds
  have hsep : ∀ mark ∈ separators, Boundary value mark.1 ∧ Boundary value (mark.1 + 1) :=
    fun mark hm => hmark mark (List.mem_append_left _ hm)
  have hZ := boundary_last hlast
  have hdot : byteLen value = 24 → Boundary value 19 ∧ Boundary value 20 := by
    intro hlong
    refine hmark (19, '.') ?_
    unfold marksOf
    rw [if_pos ⟨hlong, hlast⟩]
    exact List.mem_append_right _ (List.mem_singleton.mpr rfl)
  refine ⟨?_, ?_, fun hlong => ⟨(hdot hlong).2, ?_⟩⟩
  · intro k hk
    simp only [List.mem_cons, List.not_mem_nil, or_false] at hk
    rcases hk with rfl | rfl | rfl | rfl | rfl
    · exact hsep (4, '-') (by decide)
    · exact hsep (7, '-') (by decide)
    · exact hsep (10, 'T') (by decide)
    · exact hsep (13, ':') (by decide)
    · exact hsep (16, ':') (by decide)
  · rcases hlen with hshort | hlong
    · rw [hshort] at hZ
      exact hZ
    · exact (hdot hlong).1
  · rw [hlong] at hZ
    exact hZ

theorem parseComponent_quiet {a b : ℕ} (hab : a ≤ b) (ha : Boundary value a)
    (hb : Boundary value b) : ¬ Panics (parseComponent value a b) := by
  unfold parseComponent
  rw [panics_run]
  rintro (h | ⟨text, -, h⟩)
  · exact strSlice_quiet hab ha hb h
  · rw [panics_ensure_run] at h
    exact panics_ok h.2

theorem checkedI64_quiet (x : ℤ) : ¬ Panics (checkedI64 x) := by
  unfold checkedI64
  split
  · exact panics_ok
  · exact panics_refuse

-- Past its guard the parser takes no slice that panics.
theorem panics_parseRfc3339Utc : Panics (parseRfc3339Utc value) ↔ CutsCharacter value := by
  rw [← panics_framed]
  unfold parseRfc3339Utc
  rw [panics_run]
  constructor
  · rintro (h | ⟨shape, hshape, h⟩)
    · exact h
    · exfalso
      rw [panics_ensure_run] at h
      obtain ⟨rfl, h⟩ := h
      obtain ⟨hmarks, hend, hfraction⟩ := boundaries_of_framed hshape
      have h4 := hmarks 4 (by decide)
      have h7 := hmarks 7 (by decide)
      have h10 := hmarks 10 (by decide)
      have h13 := hmarks 13 (by decide)
      have h16 := hmarks 16 (by decide)
      have hdigits : ¬ Panics (fractionDigits value) := by
        unfold fractionDigits
        split
        · rename_i hlong
          exact strSlice_quiet (by decide) (hfraction hlong).1 (hfraction hlong).2
        · exact panics_ok
      simp only [panics_run, parseComponent_quiet (by decide) (ByteText.boundary_zero value) h4.1,
        parseComponent_quiet (by decide) h4.2 h7.1, parseComponent_quiet (by decide) h7.2 h10.1,
        parseComponent_quiet (by decide) h10.2 h13.1, parseComponent_quiet (by decide) h13.2 h16.1,
        parseComponent_quiet (by decide) h16.2 hend, hdigits, checkedI64_quiet, ensure_quiet, or_self, and_false,
        exists_false] at h
  · exact Or.inl

/-- The decoders of untrusted bytes and text panic exactly on an overlong length header that they reach and on a
separator offset inside a character. -/
theorem decoders_panic_iff (crypto : Crypto) (raw : BigEndian.Bytes) (value : List Char) :
    (¬ Panics (decodeSigned raw) ↔ ¬ ReachesOverlong raw) ∧
    (¬ Panics (inspectSignedDetails crypto raw) ↔ ¬ ReachesOverlong raw) ∧
    (¬ Panics (parseRfc3339Utc value) ↔ ¬ CutsCharacter value) :=
  ⟨not_congr panics_decodeSigned, not_congr panics_inspect, not_congr panics_parseRfc3339Utc⟩

theorem decoders_panic :
    Panics (decodeSigned [0x02, 0xff, 0xff, 0xff, 0xff, 0xff, 0xff, 0xff, 0xff, 0xff]) ∧
    Panics (parseRfc3339Utc "2026é7-26T00:10:00Z".toList) := by
  refine ⟨?_, ?_⟩
  · unfold Panics
    decide +kernel
  · unfold Panics
    decide +kernel

end PaymentNode.Native
