import PaymentNode.Lib.Limbs
import PaymentNode.Money.Amount
import PaymentNode.Native.Timestamps

/-!
# Amounts — the native agent's decimal numbers

`Uint256::parse_decimal` carries through thirty-two bytes, the approval screen's `decimal_string` through decimal
digits; both loops run from the last place, so the limbs stand here with the last place first.
-/

namespace PaymentNode.Native

open BigEndian DecimalText ByteText

/-- `output` after the digits: each multiplies by ten and is added; nothing may be carried out. -/
def parseDigits (output : List ℕ) : List Char → Rust (List ℕ)
  | [] => .ok output
  | c :: rest => do
    let (next, carry) := Limbs.mulAdd 256 10 (c.toNat - 48) output
    ensure (carry = 0) .invalidTransaction
    parseDigits next rest

def parseDecimal (value : List Char) : Rust Uint256 := do
  ensure (¬ (value = [] ∨ 78 < byteLen value ∨ (1 < byteLen value ∧ value.head? = some '0') ∨
    value.all Char.isDigit = false)) .invalidTransaction
  let output ← parseDigits (List.replicate 32 0) value
  toOctets 32 (output.reverse.map UInt8.ofNat) .invalidTransaction

/-- `while carry != 0`: the digits of the carry go before the first place. -/
def insertCarry (carry : ℕ) (decimal : List ℕ) : List ℕ :=
  if carry = 0 then decimal else insertCarry (carry / 10) (decimal ++ [carry % 10])
termination_by carry

def decimalStep (decimal : List ℕ) (byte : UInt8) : List ℕ :=
  insertCarry (Limbs.mulAdd 10 256 byte.toNat decimal).2 (Limbs.mulAdd 10 256 byte.toNat decimal).1

def decimalString (value : Uint256) : List Char :=
  (value.val.foldl decimalStep [0]).reverse.map fun digit => Char.ofNat (48 + digit)

/-- `trim_start_matches('0')`, the empty text read as zero. -/
def trimStart (atomic : List Char) : List Char :=
  if atomic.dropWhile (· == '0') = [] then ['0'] else atomic.dropWhile (· == '0')

def checkParts (whole fraction : List Char) (amount : Uint256) : Rust Unit := do
  ensure (¬ (whole = [] ∨ (1 < byteLen whole ∧ whole.head? = some '0') ∨ whole.all Char.isDigit = false))
    .invalidTransaction
  ensure (¬ (6 < byteLen fraction ∨
    (fraction ≠ [] ∧ (fraction.all Char.isDigit = false ∨ fraction.getLast? = some '0')))) .invalidTransaction
  let parsed ← parseDecimal (trimStart (whole ++ fraction ++ List.replicate (6 - byteLen fraction) '0'))
  ensure (parsed = amount) .invalidTransaction

def validateAmountDecimal (value : List Char) (amount : Uint256) : Rust Unit :=
  match value.splitOn '.' with
  | [whole] => checkParts whole [] amount
  | [whole, fraction] => checkParts whole fraction amount
  | _ => refuse .invalidTransaction

/-- The number a word stands for. -/
def Uint256.toNat (v : Uint256) : ℕ := value v.val

/-! ## Numbers -/

variable {text : List Char}

theorem canonical_head : isCanonical text = true ↔
    text ≠ [] ∧ ¬ (1 < text.length ∧ text.head? = some '0') ∧ Digits text := by
  rw [isCanonical_iff]
  constructor
  · rintro (rfl | ⟨c, rest, rfl, hc, hrest⟩)
    · exact ⟨by decide, by decide, by intro c hc; rw [List.mem_singleton.mp hc]; decide⟩
    · simp only [isNonZeroDigit, Bool.and_eq_true, bne_iff_ne] at hc
      refine ⟨by simp, fun h => hc.2 (by simpa using h.2), ?_⟩
      intro d hd
      rcases List.mem_cons.mp hd with rfl | hd
      · exact hc.1
      · exact hrest d hd
  · rintro ⟨hne, hzero, hdigits⟩
    cases text with
    | nil => exact absurd rfl hne
    | cons c rest =>
      obtain ⟨hc, hrest⟩ := hdigits.cons
      by_cases hc0 : c = '0'
      · have hrest : rest = [] := by
          by_contra h
          exact hzero ⟨by rw [List.length_cons]; have := List.length_pos_of_ne_nil h; omega, by rw [hc0]; rfl⟩
        exact .inl (by rw [hc0, hrest])
      · exact .inr ⟨c, rest, rfl, by simp [isNonZeroDigit, hc, hc0], hrest⟩

theorem parseDigits_ok {output result : List ℕ} (htext : Digits text)
    (houtput : ∀ limb ∈ output, limb < 256) : parseDigits output text = .ok result ↔
      Nat.ofDigits 256 result = Nat.ofDigits 256 output * 10 ^ text.length + read text ∧
        result.length = output.length ∧ ∀ limb ∈ result, limb < 256 := by
  induction text generalizing output with
  | nil =>
    rw [parseDigits, Except.ok.injEq, List.length_nil, pow_zero, Nat.mul_one, read_nil, Nat.add_zero]
    constructor
    · rintro rfl
      exact ⟨rfl, rfl, houtput⟩
    · rintro ⟨hvalue, hlength, hresult⟩
      exact Nat.ofDigits_inj_of_len_eq (by decide) hlength.symm houtput hresult hvalue.symm
  | cons c rest ih =>
    obtain ⟨hc, hrest⟩ := htext.cons
    have hvalue := Limbs.mulAdd_value 256 10 (c.toNat - 48) output
    have hcarry := Limbs.carry_eq_zero_iff 10 (c.toNat - 48) output (show 1 < 256 by decide)
    have hlimbs := Limbs.mulAdd_lt 10 (c.toNat - 48) output (show 0 < 256 by decide)
    have hlength := Limbs.length_mulAdd 256 10 (c.toNat - 48) output
    have hsplit : Nat.ofDigits 256 output * 10 ^ (c :: rest).length + read (c :: rest) =
        (Nat.ofDigits 256 output * 10 + (c.toNat - 48)) * 10 ^ rest.length + read rest := by
      rw [List.length_cons, read_cons, pow_succ]
      ring
    simp only [parseDigits, run_ok, ensure_ok, exists_const, hsplit]
    rw [ih hrest hlimbs, hlength]
    constructor
    · rintro ⟨hzero, hresult, hbounds⟩
      rw [hzero, Nat.zero_mul, Nat.add_zero] at hvalue
      exact ⟨by rw [hresult, hvalue], hbounds⟩
    · rintro ⟨hresult, hlen, hbounds⟩
      have hlt : Nat.ofDigits 256 result < 256 ^ output.length :=
        hlen ▸ Nat.ofDigits_lt_base_pow_length (by decide) hbounds
      have hfits : Nat.ofDigits 256 output * 10 + (c.toNat - 48) < 256 ^ output.length := by
        have hle := Nat.le_mul_of_pos_right (Nat.ofDigits 256 output * 10 + (c.toNat - 48))
          (Nat.pow_pos (n := rest.length) (show 0 < 10 by decide))
        omega
      have hzero := hcarry.mpr hfits
      rw [hzero, Nat.zero_mul, Nat.add_zero] at hvalue
      exact ⟨hzero, by rw [hresult, hvalue], hlen, hbounds⟩

theorem value_limbs {limbs : List ℕ} (h : ∀ limb ∈ limbs, limb < 256) :
    value (limbs.reverse.map UInt8.ofNat) = Nat.ofDigits 256 limbs := by
  induction limbs with
  | nil => rfl
  | cons limb rest ih =>
    obtain ⟨hlimb, hrest⟩ := List.forall_mem_cons.mp h
    have hbyte : (UInt8.ofNat limb).toNat = limb := by
      rw [UInt8.toNat_ofNat']
      exact Nat.mod_eq_of_lt hlimb
    rw [List.reverse_cons, List.map_append, List.map_singleton, value_concat, ih hrest, Nat.ofDigits_cons, hbyte]
    ring

theorem Uint256.toNat_lt (v : Uint256) : v.toNat < 2 ^ 256 := by
  have h := value_lt v.val
  rw [v.2] at h
  exact h

theorem byteLen_all (h : text.all Char.isDigit = true) : byteLen text = text.length :=
  byteLen_digits (digits_of_all.mp h)

-- `parse_decimal` reads the canonical numerals of the numbers a word can hold, and nothing else.
theorem parseDecimal_ok {v : Uint256} :
    parseDecimal text = .ok v ↔ isCanonical text = true ∧ read text = v.toNat := by
  have hzero : Nat.ofDigits 256 (List.replicate 32 0) = 0 := by decide
  have hbounds : ∀ limb ∈ List.replicate 32 0, limb < 256 := fun limb h => by
    rw [List.eq_of_mem_replicate h]
    decide
  simp only [parseDecimal, run_ok, ensure_ok, exists_const, toOctets]
  constructor
  · rintro ⟨hshape, output, houtput, hword⟩
    simp only [not_or, Bool.not_eq_false] at hshape
    obtain ⟨hne, _, hhead, hall⟩ := hshape
    have hdigits := digits_of_all.mp hall
    rw [byteLen_digits hdigits] at hhead
    obtain ⟨hvalue, hlength, hlimbs⟩ := (parseDigits_ok hdigits hbounds).mp houtput
    rw [hzero, Nat.zero_mul, Nat.zero_add] at hvalue
    split at hword
    · rw [Except.ok.injEq] at hword
      refine ⟨canonical_head.mpr ⟨hne, hhead, hdigits⟩, ?_⟩
      rw [← hword, Uint256.toNat, value_limbs hlimbs, hvalue]
    · exact absurd hword (by simp [refuse])
  · rintro ⟨hcanonical, hread⟩
    obtain ⟨hne, hhead, hdigits⟩ := canonical_head.mp hcanonical
    have hlt : read text < 256 ^ 32 := hread ▸ v.toNat_lt
    have hlen : text.length ≤ 78 := by
      rw [← print_read hcanonical]
      exact (length_print_le (by decide)).mpr (lt_trans hlt (by decide +kernel))
    have hlimbs : ∀ limb ∈ (v.val.map UInt8.toNat).reverse, limb < 256 := by
      intro limb hlimb
      obtain ⟨byte, _, rfl⟩ := List.mem_map.mp (List.mem_reverse.mp hlimb)
      exact byte.toNat_lt
    have hbytes : ((v.val.map UInt8.toNat).reverse.reverse).map UInt8.ofNat = v.val := by
      rw [List.reverse_reverse, List.map_map]
      exact List.map_id'' (fun byte => UInt8.ofNat_toNat) v.val
    have hvalue := value_limbs hlimbs
    rw [hbytes] at hvalue
    refine ⟨?_, (v.val.map UInt8.toNat).reverse, ?_, ?_⟩
    · rw [byteLen_digits hdigits, digits_of_all.mpr hdigits]
      simp only [not_or, hne, hhead, not_false_eq_true, true_and, Bool.true_eq_false, and_true]
      omega
    · rw [parseDigits_ok hdigits hbounds, hzero, Nat.zero_mul, Nat.zero_add, ← hvalue]
      exact ⟨hread.symm, by rw [List.length_reverse, List.length_map, v.2]; rfl, hlimbs⟩
    · rw [dif_pos (by rw [hbytes, v.2])]
      exact congrArg Except.ok (Subtype.ext hbytes)

/-! ## The approval screen -/

theorem insertCarry_spec (carry : ℕ) (decimal : List ℕ) :
    Nat.ofDigits 10 (insertCarry carry decimal) = Nat.ofDigits 10 decimal + 10 ^ decimal.length * carry ∧
      ((∀ digit ∈ decimal, digit < 10) → ∀ digit ∈ insertCarry carry decimal, digit < 10) ∧
      (carry ≠ 0 → decimal.length < (insertCarry carry decimal).length ∧
        10 ^ ((insertCarry carry decimal).length - 1) ≤ Nat.ofDigits 10 (insertCarry carry decimal)) := by
  induction carry, decimal using insertCarry.induct with
  | case1 decimal =>
    rw [insertCarry, if_pos rfl]
    exact ⟨by simp, fun h => h, fun h => absurd rfl h⟩
  | case2 carry decimal hcarry ih =>
    obtain ⟨hvalue, hdigits, hlead⟩ := ih
    have hsplit := Nat.mod_add_div carry 10
    have happend : Nat.ofDigits 10 (decimal ++ [carry % 10]) =
        Nat.ofDigits 10 decimal + 10 ^ decimal.length * (carry % 10) := by
      rw [Nat.ofDigits_append, Nat.ofDigits_singleton]
    have htotal : Nat.ofDigits 10 (insertCarry (carry / 10) (decimal ++ [carry % 10])) =
        Nat.ofDigits 10 decimal + 10 ^ decimal.length * carry := by
      rw [hvalue, happend, List.length_append, List.length_singleton, pow_succ]
      calc Nat.ofDigits 10 decimal + 10 ^ decimal.length * (carry % 10) + 10 ^ decimal.length * 10 * (carry / 10)
          = Nat.ofDigits 10 decimal + 10 ^ decimal.length * (carry % 10 + 10 * (carry / 10)) := by ring
        _ = _ := by rw [hsplit]
    rw [insertCarry, if_neg hcarry]
    refine ⟨htotal, fun h => hdigits ?_, fun _ => ?_⟩
    · intro digit hdigit
      rcases List.mem_append.mp hdigit with hold | hnew
      · exact h digit hold
      · rw [List.mem_singleton.mp hnew]
        exact Nat.mod_lt _ (by decide)
    · by_cases hmore : carry / 10 = 0
      · rw [hmore, insertCarry, if_pos rfl, happend, List.length_append, List.length_singleton]
        have hpos : 1 ≤ carry % 10 := by omega
        have hmul := Nat.mul_le_mul_left (10 ^ decimal.length) hpos
        exact ⟨by omega, by rw [Nat.add_sub_cancel]; omega⟩
      · obtain ⟨hlonger, hbound⟩ := hlead hmore
        rw [List.length_append, List.length_singleton] at hlonger
        exact ⟨by omega, hbound⟩

/-- Decimal digits, last place first, of a number: no more of them than it needs. -/
structure Places (decimal : List ℕ) (n : ℕ) : Prop where
  value : Nat.ofDigits 10 decimal = n
  digits : ∀ digit ∈ decimal, digit < 10
  ne_nil : decimal ≠ []
  lead : 1 < decimal.length → 10 ^ (decimal.length - 1) ≤ n

theorem places_step {decimal : List ℕ} {n : ℕ} (h : Places decimal n) (byte : UInt8) :
    Places (decimalStep decimal byte) (n * 256 + byte.toNat) := by
  have hvalue := Limbs.mulAdd_value 10 256 byte.toNat decimal
  have hlength := Limbs.length_mulAdd 10 256 byte.toNat decimal
  have hlimbs := Limbs.mulAdd_lt 256 byte.toNat decimal (show 0 < 10 by decide)
  obtain ⟨hinsert, hdigits, hlead⟩ :=
    insertCarry_spec (Limbs.mulAdd 10 256 byte.toNat decimal).2 (Limbs.mulAdd 10 256 byte.toNat decimal).1
  have htotal : Nat.ofDigits 10 (decimalStep decimal byte) = n * 256 + byte.toNat := by
    rw [decimalStep, hinsert, hlength, Nat.mul_comm (10 ^ decimal.length), hvalue, h.value]
  have hpos := List.length_pos_of_ne_nil h.ne_nil
  by_cases hcarry : (Limbs.mulAdd 10 256 byte.toNat decimal).2 = 0
  · have hsame : decimalStep decimal byte = (Limbs.mulAdd 10 256 byte.toNat decimal).1 := by
      rw [decimalStep, hcarry, insertCarry, if_pos rfl]
    refine ⟨htotal, hdigits hlimbs, ?_, fun hlong => ?_⟩
    · rw [hsame]
      exact List.ne_nil_of_length_pos (by omega)
    · rw [hsame, hlength] at hlong ⊢
      exact le_trans (h.lead hlong) (by omega)
  · obtain ⟨hlonger, hbound⟩ := hlead hcarry
    refine ⟨htotal, hdigits hlimbs, List.ne_nil_of_length_pos (by unfold decimalStep; omega), fun _ => ?_⟩
    rw [← htotal]
    exact hbound

theorem places_fold {bytes : Bytes} {decimal : List ℕ} {n : ℕ} (h : Places decimal n) :
    Places (bytes.foldl decimalStep decimal) (bytes.foldl (fun n b => n * 256 + b.toNat) n) := by
  induction bytes generalizing decimal n with
  | nil => exact h
  | cons byte rest ih => exact ih (places_step h byte)

theorem digit_char {digit : ℕ} (h : digit < 10) :
    (Char.ofNat (48 + digit)).isDigit = true ∧ (Char.ofNat (48 + digit)).toNat = 48 + digit := by
  have hall : ∀ d : Fin 10, (Char.ofNat (48 + d.val)).isDigit = true ∧ (Char.ofNat (48 + d.val)).toNat = 48 + d.val := by
    decide
  exact hall ⟨digit, h⟩

theorem read_places {decimal : List ℕ} (h : ∀ digit ∈ decimal, digit < 10) :
    read (decimal.reverse.map fun digit => Char.ofNat (48 + digit)) = Nat.ofDigits 10 decimal := by
  induction decimal with
  | nil => rfl
  | cons digit rest ih =>
    obtain ⟨hdigit, hrest⟩ := List.forall_mem_cons.mp h
    rw [List.reverse_cons, List.map_append, List.map_singleton, read_concat, ih hrest, Nat.ofDigits_cons,
      (digit_char hdigit).2]
    rw [Nat.add_sub_cancel_left]
    ring

-- The approval screen shows the canonical numeral.
theorem decimalString_eq (v : Uint256) : decimalString v = print v.toNat := by
  have hplaces : Places (v.val.foldl decimalStep [0]) v.toNat :=
    places_fold ⟨rfl, by decide, by decide, by decide⟩
  have hread : read (decimalString v) = v.toNat := by
    rw [decimalString, read_places hplaces.digits, hplaces.value]
  have hdigits : Digits (decimalString v) := by
    intro c hc
    obtain ⟨digit, hdigit, rfl⟩ := List.mem_map.mp hc
    exact (digit_char (hplaces.digits digit (List.mem_reverse.mp hdigit))).1
  have hlength : (decimalString v).length = (v.val.foldl decimalStep [0]).length := by
    rw [decimalString, List.length_map, List.length_reverse]
  have hcanonical : isCanonical (decimalString v) = true := by
    refine canonical_head.mpr ⟨?_, ?_, hdigits⟩
    · exact List.ne_nil_of_length_pos (by rw [hlength]; exact List.length_pos_of_ne_nil hplaces.ne_nil)
    · rintro ⟨hlong, hhead⟩
      have hlead := hplaces.lead (by omega)
      obtain ⟨rest, hrest⟩ : ∃ rest, decimalString v = '0' :: rest := by
        cases hd : decimalString v with
        | nil => rw [hd] at hhead; simp at hhead
        | cons c rest =>
          rw [hd] at hhead
          exact ⟨rest, by rw [show c = '0' by simpa using hhead]⟩
      have hsmall := read_lt (show Digits rest from fun c hc => hdigits c (by rw [hrest]; exact List.mem_cons_of_mem _ hc))
      rw [hrest, read_cons, show '0'.toNat - 48 = 0 from rfl, Nat.zero_mul, Nat.zero_add] at hread
      rw [← hlength, hrest, List.length_cons, Nat.add_sub_cancel, ← hread] at hlead
      omega
  rw [← hread, print_read hcanonical]

/-! ## Amounts -/

theorem trimStart_spec (h : Digits text) :
    isCanonical (trimStart text) = true ∧ read (trimStart text) = read text := by
  induction text with
  | nil => exact ⟨by decide, by decide⟩
  | cons c rest ih =>
    obtain ⟨hc, hrest⟩ := h.cons
    by_cases hzero : c = '0'
    · have hdrop : trimStart (c :: rest) = trimStart rest := by
        unfold trimStart
        rw [List.dropWhile_cons_of_pos (by simp [hzero])]
      rw [hdrop, read_cons, hzero, show '0'.toNat - 48 = 0 from rfl, Nat.zero_mul, Nat.zero_add]
      exact ih hrest
    · have hdrop : trimStart (c :: rest) = c :: rest := by
        unfold trimStart
        rw [List.dropWhile_cons_of_neg (by simp [hzero]), if_neg (by simp)]
      rw [hdrop, isCanonical_iff]
      exact ⟨.inr ⟨c, rest, rfl, by simp [isNonZeroDigit, hc, hzero], hrest⟩, rfl⟩

theorem isFraction_iff : text = [] ∨ isFraction text = true ↔
    ¬ (text ≠ [] ∧ (text.all Char.isDigit = false ∨ text.getLast? = some '0')) := by
  rcases List.eq_nil_or_concat text with rfl | ⟨front, c, rfl⟩
  · simp
  · have hdigit : (front ++ [c]).all Char.isDigit = true → c.isDigit = true := fun h =>
      List.all_eq_true.mp h c (by simp)
    simp only [List.concat_eq_append, isFraction, List.getLast?_concat, Option.any_some, isNonZeroDigit, Bool.and_eq_true,
      bne_iff_ne, Option.some.injEq, ne_eq, List.append_eq_nil_iff, List.cons_ne_nil, and_false, not_false_eq_true,
      true_and, false_or, not_or, Bool.not_eq_false]
    exact ⟨fun h => ⟨h.1, h.2.2⟩, fun h => ⟨h.1, hdigit h.1, h.2⟩⟩

theorem checkParts_ok {w f : List Char} {v : Uint256} : checkParts w f v = .ok () ↔
    isCanonical w = true ∧ (f.length ≤ 6 ∧ (f = [] ∨ isFraction f = true)) ∧
      read w * 10 ^ 6 + read (padEnd 6 f) = v.toNat := by
  have hwhole : ¬ (w = [] ∨ (1 < byteLen w ∧ w.head? = some '0') ∨ w.all Char.isDigit = false) ↔
      isCanonical w = true := by
    rw [canonical_head, ← digits_of_all]
    simp only [not_or, Bool.not_eq_false]
    refine and_congr_right fun _ => ⟨fun ⟨hhead, hall⟩ => ⟨?_, hall⟩, fun ⟨hhead, hall⟩ => ⟨?_, hall⟩⟩
    · rwa [byteLen_all hall] at hhead
    · rwa [byteLen_all hall]
  have hfraction : ¬ (6 < byteLen f ∨ (f ≠ [] ∧ (f.all Char.isDigit = false ∨ f.getLast? = some '0'))) ↔
      f.length ≤ 6 ∧ (f = [] ∨ isFraction f = true) := by
    rw [not_or, ← isFraction_iff]
    refine and_congr_left fun h => ?_
    have hlength : byteLen f = f.length := by
      rcases h with rfl | h
      · rfl
      · exact byteLen_digits (digits_of_fraction h)
    rw [hlength, not_lt]
  simp only [checkParts, run_ok, ensure_ok, exists_const, hwhole, hfraction]
  refine and_congr_right fun hw => and_congr_right fun hf => ?_
  have hdigits : Digits f := by
    rcases hf.2 with rfl | h
    · exact digits_zeros 0
    · exact digits_of_fraction h
  have hpad : w ++ f ++ List.replicate (6 - byteLen f) '0' = w ++ padEnd 6 f := by
    rw [byteLen_digits hdigits, List.append_assoc]
    rfl
  obtain ⟨hcanonical, hread⟩ :=
    trimStart_spec (digits_append.mpr ⟨digits_of_canonical hw, digits_padEnd 6 hdigits⟩)
  rw [read_append, length_padEnd hf.1] at hread
  rw [hpad]
  simp only [parseDecimal_ok, hcanonical, hread, true_and]
  constructor
  · rintro ⟨parsed, hparsed, rfl⟩
    exact hparsed
  · intro h
    exact ⟨v, h, rfl⟩

theorem written_nil (w : List Char) : Money.written w [] = w := if_pos rfl

theorem written_cons {w f : List Char} (hf : f ≠ []) : Money.written w f = w ++ '.' :: f := if_neg hf

-- The parts a decimal text is split into.
theorem split_written {w f : List Char} (hw : isCanonical w = true) (hf : f = [] ∨ isFraction f = true) :
    (Money.written w f).splitOn '.' = if f = [] then [w] else [w, f] := by
  have hpoint := Money.point_not_digit (digits_of_canonical hw)
  by_cases hnil : f = []
  · rw [if_pos hnil, hnil, written_nil, List.splitOn_eq_singleton hpoint]
  · have hfraction := hf.resolve_left hnil
    rw [if_neg hnil, written_cons hnil, List.splitOn_append_cons_self_of_not_mem hpoint,
      List.splitOn_eq_singleton (Money.point_not_digit (digits_of_fraction hfraction))]

-- A text that passes as its two parts.
theorem decimal_of_parts {w f : List Char} {v : Uint256} (h : checkParts w f v = .ok ()) :
    Money.parseDecimal (Money.written w f) 6 false = .ok ⟨print v.toNat, Money.written w f⟩ := by
  obtain ⟨hw, ⟨hlength, hf⟩, hvalue⟩ := checkParts_ok.mp h
  have hdigits := digits_of_canonical hw
  rw [Money.parseDecimal_ok]
  refine ⟨Money.isDecimal_written hw hf, by rwa [Money.fraction_written hdigits], by simp, ?_⟩
  rw [Money.amountOf, Money.whole_written hdigits, Money.fraction_written hdigits, hvalue]

-- The native check of an amount text is the core's, but for a text that ends in its point.
theorem validateAmountDecimal_ok {v : Uint256} (hend : text.getLast? ≠ some '.') :
    validateAmountDecimal text v = .ok () ↔
      Money.parseDecimal text 6 false = .ok ⟨print v.toNat, text⟩ := by
  constructor
  · intro h
    have hjoin := @List.intercalate_splitOn _ text _ _ '.'
    unfold validateAmountDecimal at h
    split at h
    · rename_i w hsplit
      rw [hsplit] at hjoin
      have hw : w = text := by simpa using hjoin
      have hdecimal := decimal_of_parts h
      rwa [written_nil, hw] at hdecimal
    · rename_i w f hsplit
      rw [hsplit] at hjoin
      have hwf : w ++ '.' :: f = text := by simpa [List.intercalate_cons_cons] using hjoin
      have hf : f ≠ [] := by
        rintro rfl
        exact hend (by rw [← hwf]; simp)
      have hdecimal := decimal_of_parts h
      rwa [written_cons hf, hwf] at hdecimal
    · exact absurd h (by simp)
  · intro h
    rw [Money.parseDecimal_ok] at h
    obtain ⟨hdecimal, hlength, _, hparsed⟩ := h
    obtain ⟨hw, hf, hwritten⟩ := Money.isDecimal_iff.mp hdecimal
    rw [Money.Parsed.mk.injEq] at hparsed
    have hamount : Money.amountOf text 6 = v.toNat := by
      have hread := congrArg read hparsed.1
      rwa [read_print, read_print, eq_comm] at hread
    have hsplit := split_written hw hf
    rw [← hwritten] at hsplit
    unfold validateAmountDecimal
    rw [hsplit]
    by_cases hnil : Money.fraction text = []
    · rw [if_pos hnil]
      refine checkParts_ok.mpr ⟨hw, ⟨by decide, .inl rfl⟩, ?_⟩
      rw [← hamount, Money.amountOf, hnil]
    · rw [if_neg hnil]
      exact checkParts_ok.mpr ⟨hw, ⟨hlength, hf⟩, hamount⟩

-- A point with no digit after it passes the native check alone.
theorem trailing_point_accepted (v : Uint256) (h : v.toNat = 1000000) :
    validateAmountDecimal "1.".toList v = .ok () ∧ ∀ p, Money.parseDecimal "1.".toList 6 false ≠ .ok p := by
  constructor
  · have hsplit : "1.".toList.splitOn '.' = [['1'], []] := by decide
    unfold validateAmountDecimal
    rw [hsplit]
    exact checkParts_ok.mpr ⟨by decide, ⟨by decide, .inl rfl⟩, by rw [h]; decide⟩
  · intro p hp
    rw [Money.parseDecimal_ok] at hp
    exact absurd hp.1 (by decide)

end PaymentNode.Native
