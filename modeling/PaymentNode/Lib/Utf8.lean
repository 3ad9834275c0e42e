import PaymentNode.Lib.JsonPrint
import PaymentNode.Lib.Utf16

/-!
# Utf8 — the bytes of a text

`encodeUtf8` writes the characters of a text of code units; `decodeUtf8` reads bytes strictly and drops one byte-order
mark in front, as `TextDecoder` does.  A text all of whose surrogates are paired comes back from its bytes; what
`stringify` writes is such a text.
-/

namespace JsonText

def byteOrderMark : Char := Char.ofNat 0xFEFF

def encodeUtf8 (t : Text) : ByteArray := (String.ofList (ofUtf16 t)).toByteArray

def dropMark : List Char → List Char
  | c :: rest => if c = byteOrderMark then rest else c :: rest
  | [] => []

def decodeUtf8 (bytes : ByteArray) : Option Text := bytes.utf8Decode?.map fun text => utf16 (dropMark text.toList)

/-- Every surrogate of the text is one of a pair. -/
def Paired (t : Text) : Prop := ∃ text, utf16 text = t

section Paired

variable {s t : Text} {c d : CodeUnit}

theorem paired_nil : Paired [] := ⟨[], rfl⟩

theorem Paired.append (hs : Paired s) (ht : Paired t) : Paired (s ++ t) := by
  obtain ⟨a, rfl⟩ := hs
  obtain ⟨b, rfl⟩ := ht
  exact ⟨a ++ b, utf16_append a b⟩

theorem Paired.cons (ht : Paired t) (hlead : isLead c = false) (htrail : isTrail c = false) : Paired (c :: t) := by
  have hvalid : c.val.isValidChar := by
    have hc := c.isLt
    simp only [isLead, isTrail, Bool.and_eq_false_iff, decide_eq_false_iff_not] at hlead htrail
    unfold Nat.isValidChar
    omega
  have hnat : (Char.ofNat c.val).toNat = c.val := by rw [Char.toNat_ofNat, if_pos hvalid]
  refine Paired.append (s := [c]) ⟨[Char.ofNat c.val], ?_⟩ ht
  rw [utf16_cons, utf16_nil, List.append_nil, encodeUtf16, hnat, if_pos c.isLt, unit, hnat]
  exact congrArg (· :: []) (Fin.ext (Nat.mod_eq_of_lt c.isLt))

theorem Paired.pair (ht : Paired t) (hlead : isLead c = true) (htrail : isTrail d = true) : Paired (c :: d :: t) := by
  simp only [isLead, isTrail, Bool.and_eq_true, decide_eq_true_iff] at hlead htrail
  have hvalid : (65536 + (c.val - 0xD800) * 1024 + (d.val - 0xDC00)).isValidChar := by
    unfold Nat.isValidChar
    omega
  have hnat : (pairChar c d).toNat = 65536 + (c.val - 0xD800) * 1024 + (d.val - 0xDC00) := by
    rw [pairChar, Char.toNat_ofNat, if_pos hvalid]
  refine Paired.append (s := [c, d]) ⟨[pairChar c d], ?_⟩ ht
  rw [utf16_cons, utf16_nil, List.append_nil, encodeUtf16, hnat, if_neg (by omega)]
  refine congrArg₂ (fun x y => [x, y]) (Fin.ext ?_) (Fin.ext ?_) <;> rw [Fin.val_ofNat] <;> omega

/-- No code unit of the text is a surrogate. -/
theorem paired_of_lt (h : ∀ c ∈ t, c.val < 128) : Paired t := by
  induction t with
  | nil => exact paired_nil
  | cons c t ih =>
    obtain ⟨hc, ht⟩ := List.forall_mem_cons.mp h
    exact (ih ht).cons (by simp [isLead]; omega) (by simp [isTrail]; omega)

theorem paired_unit (h : c.val < 128) : Paired [c] := paired_of_lt (List.forall_mem_singleton.mpr h)

end Paired

/-! ## Literals, numbers and values -/

theorem hexDigit_lt (n : ℕ) (h : n < 16) : (hexDigit n).val < 128 := by
  have hall : ∀ k : Fin 16, (hexDigit k.val).val < 128 := by decide
  exact hall ⟨n, h⟩

theorem paired_unicodeEscape (c : CodeUnit) : Paired (unicodeEscape c) := by
  have hc := c.isLt
  refine paired_of_lt ?_
  simp only [unicodeEscape, List.forall_mem_cons, List.not_mem_nil, false_imp_iff, implies_true, and_true]
  exact ⟨by decide, by decide, hexDigit_lt _ (by omega), hexDigit_lt _ (Nat.mod_lt _ (by decide)),
    hexDigit_lt _ (Nat.mod_lt _ (by decide)), hexDigit_lt _ (Nat.mod_lt _ (by decide))⟩

theorem shortQuote_lt {c e : CodeUnit} (h : shortQuote c = some e) : e.val < 128 := by
  unfold shortQuote at h
  split_ifs at h with hself <;> simp only [Option.some.injEq] at h
  · subst h
    rcases hself with rfl | rfl <;> decide
  all_goals subst h; decide

theorem paired_quoteChars (s : Text) : Paired (quoteChars s) := by
  induction s using quoteChars.induct with
  | case1 => exact paired_nil
  | case2 c rest e he ih =>
    rw [quoteChars.eq_def]
    simp only [he]
    exact Paired.append (s := [unit '\\', e]) (.append (paired_unit (by decide)) (paired_unit (shortQuote_lt he))) ih
  | case3 c rest he hcontrol ih =>
    rw [quoteChars.eq_def]
    simp only [he, if_pos hcontrol]
    exact (paired_unicodeEscape c).append ih
  | case4 c he hcontrol hlead d rest htrail ih =>
    rw [quoteChars.eq_def]
    simp only [he, if_neg hcontrol, if_pos hlead, if_pos htrail]
    exact ih.pair hlead htrail
  | case5 c he hcontrol hlead d rest htrail ih =>
    rw [quoteChars.eq_def]
    simp only [he, if_neg hcontrol, if_pos hlead, if_neg htrail]
    exact (paired_unicodeEscape c).append ih
  | case6 c he hcontrol hlead =>
    rw [quoteChars.eq_def]
    simp only [he, if_neg hcontrol, if_pos hlead]
    exact paired_unicodeEscape c
  | case7 c rest he hcontrol hlead htrail ih =>
    rw [quoteChars.eq_def]
    simp only [he, if_neg hcontrol, if_neg hlead, if_pos htrail]
    exact (paired_unicodeEscape c).append ih
  | case8 c rest he hcontrol hlead htrail ih =>
    rw [quoteChars.eq_def]
    simp only [he, if_neg hcontrol, if_neg hlead, if_neg htrail]
    exact ih.cons (by simpa using hlead) (by simpa using htrail)

theorem paired_quote (s : Text) : Paired (quote s) :=
  Paired.append (.cons (paired_quoteChars s) (by decide) (by decide)) (paired_unit (by decide))

theorem AllDigits.paired {s : Text} (h : AllDigits s) : Paired s := by
  refine paired_of_lt fun c hc => ?_
  have hdigit := h c hc
  simp only [isDigit, Bool.and_eq_true, decide_eq_true_iff] at hdigit
  omega

theorem paired_isNumber {s : Text} (h : IsNumber s) : Paired s := by
  obtain ⟨sign, i, f, e, rfl, hsign, hi, hf, he⟩ := h
  refine Paired.append ?_ (.append ?_ (.append ?_ ?_))
  · rcases hsign with rfl | rfl
    · exact paired_nil
    · exact paired_unit (by decide)
  · rcases hi with rfl | ⟨d, r, rfl, _, hdigits⟩
    · exact paired_unit (by decide)
    · exact hdigits.paired
  · rcases hf with rfl | ⟨d, r, rfl, hdigits⟩
    · exact paired_nil
    · exact .cons hdigits.paired (by decide) (by decide)
  · rcases he with rfl | ⟨m, sign, d, r, rfl, hm, hsign, hdigits⟩
    · exact paired_nil
    · simp only [isExponentMark, Bool.or_eq_true, beq_iff_eq] at hm
      have hmark : Paired [m] := by rcases hm with rfl | rfl <;> exact paired_unit (by decide)
      refine hmark.append (.append ?_ hdigits.paired)
      rcases hsign with rfl | ⟨c, rfl, hc⟩
      · exact paired_nil
      · simp only [isSign, Bool.or_eq_true, beq_iff_eq] at hc
        rcases hc with rfl | rfl <;> exact paired_unit (by decide)

end JsonText

namespace JsonGrammar

open JsonText

variable {numbers : Numbers}

theorem paired_commas {texts : List Text} (h : ∀ s ∈ texts, Paired s) : Paired (commas texts) := by
  induction texts with
  | nil => exact paired_nil
  | cons s texts ih =>
    obtain ⟨hs, htexts⟩ := List.forall_mem_cons.mp h
    cases texts with
    | nil => exact hs
    | cons t texts => exact hs.append (.cons (ih htexts) (by decide) (by decide))

theorem paired_stringify (x : Json numbers.Num) (h : Strict numbers.safe x) : Paired (stringify x) := by
  induction x using json_induct with
  | null => exact ⟨"null".toList, rfl⟩
  | bool b => cases b with
    | true => exact ⟨"true".toList, rfl⟩
    | false => exact ⟨"false".toList, rfl⟩
  | number n => exact paired_isNumber (numbers.isNumber_print n h)
  | string s => exact paired_quote s
  | array xs ih =>
    rw [Strict, strictItems_iff] at h
    rw [stringify, stringifyItems_eq]
    have hitems : ∀ s ∈ xs.map stringify, Paired s := List.forall_mem_map.mpr fun x hx => ih x hx (h x hx)
    exact .cons ((paired_commas hitems).append (paired_unit (by decide))) (by decide) (by decide)
  | object ms ih =>
    rw [Strict, strictMembers_iff] at h
    rw [stringify_object]
    refine .cons (.append (paired_commas ?_) (paired_unit (by decide))) (by decide) (by decide)
    refine List.forall_mem_map.mpr fun m hm => (paired_quote m.1).append (.cons ?_ (by decide) (by decide))
    have hmem := (perm_enumerate ms).mem_iff.mp hm
    exact ih m hmem (h.2 m hmem)

end JsonGrammar

namespace JsonText

/-! ## Bytes -/

theorem encodeUtf8_utf16 (text : List Char) : encodeUtf8 (utf16 text) = text.utf8Encode := by
  rw [encodeUtf8, ofUtf16_utf16, String.toByteArray_ofList]

theorem decodeUtf8_iff {bytes : ByteArray} {text : List Char} :
    decodeUtf8 bytes = some (utf16 text) ↔ ∃ read, bytes = List.utf8Encode read ∧ dropMark read = text := by
  rw [decodeUtf8, Option.map_eq_some_iff]
  constructor
  · rintro ⟨read, hread, htext⟩
    refine ⟨read.toList, ?_, utf16_inj htext⟩
    have hget : bytes.utf8Decode?.get (by rw [hread]; rfl) = read := Option.get_of_eq_some _ hread
    rw [← hget, ByteArray.utf8Encode_get_utf8Decode?]
  · rintro ⟨read, rfl, rfl⟩
    exact ⟨read.toArray, List.utf8Decode?_utf8Encode, rfl⟩

theorem dropMark_iff {read text : List Char} (h : text.head? ≠ some byteOrderMark) :
    dropMark read = text ↔ read = text ∨ read = byteOrderMark :: text := by
  cases read with
  | nil => simp [dropMark, eq_comm]
  | cons c rest =>
    rw [dropMark]
    split_ifs with hmark
    · subst hmark
      constructor
      · rintro rfl
        exact .inr rfl
      · rintro (rfl | heq)
        · exact absurd rfl h
        · exact (List.cons.inj heq).2
    · constructor
      · exact .inl
      · rintro (rfl | heq)
        · rfl
        · exact absurd (List.cons.inj heq).1 hmark

/-- A text that does not begin with a byte-order mark is read from its own bytes, and from these behind one mark. -/
theorem decodeUtf8_iff_encode {bytes : ByteArray} {t : Text} (hpaired : Paired t)
    (hhead : t.head? ≠ some (unit byteOrderMark)) :
    decodeUtf8 bytes = some t ↔ bytes = encodeUtf8 t ∨ bytes = encodeUtf8 (unit byteOrderMark :: t) := by
  obtain ⟨text, rfl⟩ := hpaired
  have hmark : encodeUtf16 byteOrderMark = [unit byteOrderMark] := if_pos (by decide)
  have hfirst : text.head? ≠ some byteOrderMark := by
    cases text with
    | nil => simp
    | cons c rest =>
      rintro heq
      rw [List.head?_cons, Option.some.injEq] at heq
      exact hhead (by rw [heq, utf16_cons, hmark]; rfl)
  have hcons : unit byteOrderMark :: utf16 text = utf16 (byteOrderMark :: text) := by rw [utf16_cons, hmark]; rfl
  rw [decodeUtf8_iff, hcons, encodeUtf8_utf16, encodeUtf8_utf16]
  simp only [dropMark_iff hfirst]
  constructor
  · rintro ⟨read, rfl, rfl | rfl⟩
    · exact .inl rfl
    · exact .inr rfl
  · rintro (rfl | rfl)
    · exact ⟨_, rfl, .inl rfl⟩
    · exact ⟨_, rfl, .inr rfl⟩

end JsonText
