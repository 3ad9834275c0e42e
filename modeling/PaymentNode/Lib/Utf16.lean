import PaymentNode.Lib.JsonText

/-!
# Utf16 — the code units of a text of characters

A character is one code unit or a surrogate pair.  `ofUtf16` reads the characters back and replaces a surrogate that
stands alone, as an encoder of UTF-8 does.
-/

namespace JsonText

def encodeUtf16 (c : Char) : Text :=
  if c.toNat < 65536 then [unit c]
  else [Fin.ofNat 65536 (0xD800 + (c.toNat - 65536) / 1024), Fin.ofNat 65536 (0xDC00 + (c.toNat - 65536) % 1024)]

def utf16 (text : List Char) : Text := text.flatMap encodeUtf16

def replacement : Char := Char.ofNat 0xFFFD

def pairChar (c d : CodeUnit) : Char := Char.ofNat (65536 + (c.val - 0xD800) * 1024 + (d.val - 0xDC00))

def ofUtf16 : Text → List Char
  | [] => []
  | c :: rest =>
    if isLead c then
      match rest with
      | [] => [replacement]
      | d :: rest => if isTrail d then pairChar c d :: ofUtf16 rest else replacement :: ofUtf16 (d :: rest)
    else if isTrail c then replacement :: ofUtf16 rest
    else Char.ofNat c.val :: ofUtf16 rest

/-- Printable ASCII that needs no escape in a literal. -/
def isPlain (c : Char) : Bool := 32 ≤ c.toNat && c.toNat < 127 && c != '"' && c != '\\'

@[simp] theorem utf16_nil : utf16 [] = [] := rfl

@[simp] theorem utf16_cons (c : Char) (rest : List Char) : utf16 (c :: rest) = encodeUtf16 c ++ utf16 rest :=
  List.flatMap_cons

@[simp] theorem utf16_append (a b : List Char) : utf16 (a ++ b) = utf16 a ++ utf16 b := List.flatMap_append

/-- A character is no surrogate. -/
theorem char_ranges (c : Char) : c.toNat < 0xD800 ∨ (0xDFFF < c.toNat ∧ c.toNat < 0x110000) := c.valid

theorem ofUtf16_encode (c : Char) (t : Text) : ofUtf16 (encodeUtf16 c ++ t) = c :: ofUtf16 t := by
  have hranges := char_ranges c
  unfold encodeUtf16
  by_cases hsmall : c.toNat < 65536
  · have hval : (unit c).val = c.toNat := Nat.mod_eq_of_lt hsmall
    have hlead : isLead (unit c) = false := by simp [isLead, hval]; omega
    have htrail : isTrail (unit c) = false := by simp [isTrail, hval]; omega
    rw [if_pos hsmall, List.singleton_append, ofUtf16.eq_def]
    simp only [hlead, htrail, hval, Char.ofNat_toNat, Bool.false_eq_true, if_false]
  · have hhigh : (Fin.ofNat 65536 (0xD800 + (c.toNat - 65536) / 1024)).val = 0xD800 + (c.toNat - 65536) / 1024 :=
      Nat.mod_eq_of_lt (by omega)
    have hlow : (Fin.ofNat 65536 (0xDC00 + (c.toNat - 65536) % 1024)).val = 0xDC00 + (c.toNat - 65536) % 1024 :=
      Nat.mod_eq_of_lt (by omega)
    have hlead : isLead (Fin.ofNat 65536 (0xD800 + (c.toNat - 65536) / 1024)) = true := by
      rw [isLead, hhigh, Bool.and_eq_true, decide_eq_true_iff, decide_eq_true_iff]
      omega
    have htrail : isTrail (Fin.ofNat 65536 (0xDC00 + (c.toNat - 65536) % 1024)) = true := by
      rw [isTrail, hlow, Bool.and_eq_true, decide_eq_true_iff, decide_eq_true_iff]
      omega
    have hpair : pairChar (Fin.ofNat 65536 (0xD800 + (c.toNat - 65536) / 1024))
        (Fin.ofNat 65536 (0xDC00 + (c.toNat - 65536) % 1024)) = c := by
      have hsum : 65536 + (0xD800 + (c.toNat - 65536) / 1024 - 0xD800) * 1024 +
          (0xDC00 + (c.toNat - 65536) % 1024 - 0xDC00) = c.toNat := by omega
      rw [pairChar, hhigh, hlow, hsum, Char.ofNat_toNat]
    rw [if_neg hsmall, List.cons_append, List.singleton_append, ofUtf16.eq_def]
    simp only [hlead, htrail, hpair, if_true]

theorem ofUtf16_utf16 (text : List Char) : ofUtf16 (utf16 text) = text := by
  induction text with
  | nil => rfl
  | cons c rest ih => rw [utf16_cons, ofUtf16_encode, ih]

theorem utf16_inj {a b : List Char} (h : utf16 a = utf16 b) : a = b := by rw [← ofUtf16_utf16 a, h, ofUtf16_utf16]

/-! ## Plain texts -/

theorem isPlain_iff {c : Char} : isPlain c = true ↔
    (32 ≤ c.toNat ∧ c.toNat < 127) ∧ c ≠ '"' ∧ c ≠ '\\' := by
  simp only [isPlain, Bool.and_eq_true, decide_eq_true_iff, bne_iff_ne, and_assoc]

theorem encode_plain {c : Char} (h : isPlain c = true) : encodeUtf16 c = [unit c] := by
  rw [isPlain_iff] at h
  exact if_pos (by omega)

theorem unit_inj {c d : Char} (hc : c.toNat < 65536) (hd : d.toNat < 65536) (h : unit c = unit d) : c = d := by
  have hval := congrArg Fin.val h
  rw [show (unit c).val = c.toNat from Nat.mod_eq_of_lt hc, show (unit d).val = d.toNat from Nat.mod_eq_of_lt hd] at hval
  exact Char.toNat_inj.mp hval

/-- A plain text is written as it stands. -/
theorem quoteChars_plain {text : List Char} (h : ∀ c ∈ text, isPlain c = true) : quoteChars (utf16 text) = utf16 text := by
  induction text with
  | nil => rfl
  | cons c rest ih =>
    obtain ⟨hc, hrest⟩ := List.forall_mem_cons.mp h
    have hplain := isPlain_iff.mp hc
    have hval : (unit c).val = c.toNat := Nat.mod_eq_of_lt (by omega)
    have hquote : unit c ≠ unit '"' := fun heq => hplain.2.1 (unit_inj (by omega) (by decide) heq)
    have hslash : unit c ≠ unit '\\' := fun heq => hplain.2.2 (unit_inj (by omega) (by decide) heq)
    have hcontrol : ∀ k : CodeUnit, k.val < 32 → unit c ≠ k := by
      rintro k hk rfl
      omega
    have hshort : shortQuote (unit c) = none := by
      unfold shortQuote
      rw [if_neg (not_or.mpr ⟨hquote, hslash⟩), if_neg (hcontrol 8 (by decide)), if_neg (hcontrol 9 (by decide)),
        if_neg (hcontrol 10 (by decide)), if_neg (hcontrol 12 (by decide)), if_neg (hcontrol 13 (by decide))]
    have hlead : isLead (unit c) = false := by simp [isLead, hval]; omega
    have htrail : isTrail (unit c) = false := by simp [isTrail, hval]; omega
    rw [utf16_cons, encode_plain hc, List.singleton_append, quoteChars.eq_def]
    simp only [hshort, hlead, htrail, if_neg (show ¬ (unit c).val < 32 by omega), Bool.false_eq_true, if_false,
      ih hrest]

end JsonText
