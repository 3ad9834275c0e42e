import PaymentNode.Data.StrictJson

/-!
# StrictBlanks — what the strict parser accepts beyond JSON

`skipWhitespace` steps over every `\s`, JSON only over space, tab, line feed and carriage return.  `respace` puts a
space where another `\s` stands outside the string literals; nothing else of the two grammars differs.
-/

namespace PaymentNode.StrictJson

open JsonText JsonGrammar

/-! ## Blanks only the parser knows -/

inductive Scan
  | outside
  | inside
  | escaped
deriving DecidableEq

/-- Whether the next code unit stands inside a string literal. -/
def Scan.next : Scan → CodeUnit → Scan
  | .outside, c => if c = unit '"' then .inside else .outside
  | .inside, c => if c = unit '"' then .outside else if c = unit '\\' then .escaped else .inside
  | .escaped, _ => .inside

def isForeign (c : CodeUnit) : Bool := isSpace c && !jsonBlanks.has c

def kept (c : CodeUnit) : CodeUnit := if isForeign c then 32 else c

def respace : Scan → Text → Text
  | _, [] => []
  | .outside, c :: rest => kept c :: respace (Scan.outside.next c) rest
  | q, c :: rest => c :: respace (q.next c) rest

/-- The text with a space for each blank outside its literals that is not a JSON blank. -/
def plainBlanks (t : Text) : Text := respace .outside t

section Kept

variable {c k : CodeUnit}

theorem isForeign_token (h : isToken c = true) : isForeign c = false := by
  have hspace : isSpace c = false := by
    by_contra hc
    rw [scriptBlanks.apart c (Bool.of_not_eq_false hc)] at h
    exact absurd h (by decide)
  rw [isForeign, hspace, Bool.false_and]

theorem kept_of_not_foreign (h : isForeign c = false) : kept c = c := by rw [kept, h]; rfl

theorem kept_token (h : isToken c = true) : kept c = c := kept_of_not_foreign (isForeign_token h)

theorem kept_cases (c : CodeUnit) : kept c = c ∨ isForeign c = true ∧ kept c = 32 := by
  cases h : isForeign c with
  | true => exact .inr ⟨rfl, by rw [kept, h]; rfl⟩
  | false => exact .inl (kept_of_not_foreign h)

-- No class of code units a token needs is left or entered.
theorem kept_class {p : CodeUnit → Bool} (hspace : p 32 = false) (h : ∀ c, p c = true → isForeign c = false)
    (c : CodeUnit) : p (kept c) = p c := by
  rcases kept_cases c with heq | ⟨hforeign, heq⟩
  · rw [heq]
  · rw [heq, hspace]
    by_contra hc
    rw [h c (by simpa using Ne.symm hc)] at hforeign
    exact absurd hforeign (by decide)

theorem kept_eq_iff (hk : isForeign k = false) (h32 : k ≠ 32) : kept c = k ↔ c = k := by
  have h := kept_class (p := (· == k)) (by simpa using Ne.symm h32) (fun c hc => by rwa [beq_iff_eq.mp hc]) c
  simpa using Bool.eq_iff_iff.mp h

theorem isDigit_kept (c : CodeUnit) : isDigit (kept c) = isDigit c :=
  kept_class (by decide) (fun c hc => isForeign_token (by rw [isToken, hc, Bool.true_or])) c

theorem isSign_kept (c : CodeUnit) : isSign (kept c) = isSign c :=
  kept_class (by decide) (fun c hc => by
    simp only [isSign, Bool.or_eq_true, beq_iff_eq] at hc
    rcases hc with rfl | rfl <;> decide) c

theorem isExponentMark_kept (c : CodeUnit) : isExponentMark (kept c) = isExponentMark c :=
  kept_class (by decide) (fun c hc => by
    simp only [isExponentMark, Bool.or_eq_true, beq_iff_eq] at hc
    rcases hc with rfl | rfl <;> decide) c

theorem jsonBlank_kept (c : CodeUnit) : jsonBlanks.has (kept c) = isSpace c := by
  have hsub : jsonBlanks.has c = true → isSpace c = true := by
    intro h
    simp only [jsonBlanks, Bool.or_eq_true, beq_iff_eq] at h
    rcases h with ((rfl | rfl) | rfl) | rfl <;> decide
  unfold kept isForeign
  cases hspace : isSpace c <;> cases hjson : jsonBlanks.has c
  · simpa using hjson
  · exact absurd (hsub hjson) (by rw [hspace]; decide)
  · rfl
  · simpa using hjson

end Kept

section Respace

variable {c : CodeUnit} {t r : Text}

theorem plainBlanks_cons (hquote : c ≠ unit '"') : plainBlanks (c :: r) = kept c :: plainBlanks r := by
  rw [plainBlanks, respace, Scan.next, if_neg hquote]
  rfl

theorem plainBlanks_quote : plainBlanks (unit '"' :: r) = unit '"' :: respace .inside r := by
  rw [plainBlanks, respace, Scan.next, if_pos rfl, kept_token (by decide)]

theorem inside_plain (hquote : c ≠ unit '"') (hslash : c ≠ unit '\\') :
    respace .inside (c :: r) = c :: respace .inside r := by
  rw [respace, Scan.next, if_neg hquote, if_neg hslash]
  simp

theorem inside_quote : respace .inside (unit '"' :: r) = unit '"' :: plainBlanks r := rfl

theorem inside_slash {e : CodeUnit} : respace .inside (unit '\\' :: e :: r) = unit '\\' :: e :: respace .inside r := rfl

theorem isDigit_ne_quote (h : isDigit c = true) : c ≠ unit '"' := by
  rintro rfl
  exact absurd h (by decide)

theorem plainBlanks_digit (h : isDigit c = true) : plainBlanks (c :: r) = c :: plainBlanks r := by
  rw [plainBlanks_cons (isDigit_ne_quote h), kept_token (by rw [isToken, h, Bool.true_or])]

-- A text after its blanks are put right starts as it did, apart from a blank.
theorem plainBlanks_head (t : Text) : (plainBlanks t).head? = t.head?.map kept := by
  cases t with
  | nil => rfl
  | cons c r =>
    by_cases hquote : c = unit '"'
    · rw [hquote, plainBlanks_quote]
      rfl
    · rw [plainBlanks_cons hquote]
      rfl

theorem plainBlanks_shape (c : CodeUnit) (r : Text) : ∃ r', plainBlanks (c :: r) = kept c :: r' := by
  have hhead := plainBlanks_head (c :: r)
  cases hplain : plainBlanks (c :: r) with
  | nil => simp [hplain] at hhead
  | cons d r' =>
    rw [hplain] at hhead
    exact ⟨r', by rw [Option.some.inj hhead]⟩

/-! ## Tokens of the respaced text -/

theorem digitRun_plainBlanks (t : Text) :
    digitRun (plainBlanks t) = ((digitRun t).1, plainBlanks (digitRun t).2) := by
  induction t with
  | nil => rfl
  | cons c r ih =>
    unfold digitRun at ih ⊢
    rw [Prod.mk.injEq] at ih
    cases hdigit : isDigit c with
    | true =>
      rw [plainBlanks_digit hdigit, List.takeWhile_cons_of_pos hdigit, List.dropWhile_cons_of_pos hdigit,
        List.takeWhile_cons_of_pos hdigit, List.dropWhile_cons_of_pos hdigit, ih.1, ih.2]
    | false =>
      obtain ⟨r', hr'⟩ := plainBlanks_shape c r
      have hkept : isDigit (kept c) = false := by rw [isDigit_kept, hdigit]
      rw [hr', List.takeWhile_cons_of_neg (by rw [hkept]; decide), List.dropWhile_cons_of_neg (by rw [hkept]; decide),
        List.takeWhile_cons_of_neg (by rw [hdigit]; decide), List.dropWhile_cons_of_neg (by rw [hdigit]; decide), hr']

theorem takeMinus_plainBlanks (t : Text) :
    takeMinus (plainBlanks t) = ((takeMinus t).1, plainBlanks (takeMinus t).2) := by
  cases t with
  | nil => rfl
  | cons c r =>
    by_cases hminus : c = unit '-'
    · rw [hminus, plainBlanks_cons (by decide), kept_token (by decide), takeMinus, takeMinus, if_pos rfl, if_pos rfl]
    · obtain ⟨r', hr'⟩ := plainBlanks_shape c r
      have hkept : kept c ≠ unit '-' := fun h => hminus ((kept_eq_iff (by decide) (by decide)).mp h)
      rw [hr', takeMinus, takeMinus, if_neg hkept, if_neg hminus, ← hr']

theorem takeInteger_plainBlanks (t : Text) :
    takeInteger (plainBlanks t) = (takeInteger t).map fun (s, rest) => (s, plainBlanks rest) := by
  cases t with
  | nil => rfl
  | cons c r =>
    cases hdigit : isDigit c with
    | true =>
      rw [plainBlanks_digit hdigit, takeInteger, takeInteger, if_pos hdigit, if_pos hdigit, digitRun_plainBlanks]
      split_ifs <;> rfl
    | false =>
      obtain ⟨r', hr'⟩ := plainBlanks_shape c r
      have hzero : c ≠ unit '0' := by
        rintro rfl
        exact absurd hdigit (by decide)
      have hkept : kept c ≠ unit '0' := fun h => hzero ((kept_eq_iff (by decide) (by decide)).mp h)
      rw [hr', takeInteger, takeInteger, if_neg hkept, if_neg hzero, isDigit_kept, hdigit]
      rfl

theorem takeFraction_plainBlanks (t : Text) :
    takeFraction (plainBlanks t) = ((takeFraction t).1, plainBlanks (takeFraction t).2) := by
  rcases t with _ | ⟨c, _ | ⟨d, r⟩⟩
  · rfl
  · obtain ⟨r', hr'⟩ := plainBlanks_shape c []
    have hlength : r' = [] := by
      have h : (plainBlanks [c]).length = 1 := by
        by_cases hquote : c = unit '"'
        · rw [hquote]; rfl
        · rw [plainBlanks_cons hquote]; rfl
      rw [hr'] at h
      simpa using h
    rw [hr', hlength]
    show ([], [kept c]) = (([] : Text), plainBlanks [c])
    rw [hr', hlength]
  · by_cases hpoint : c = unit '.'
    · cases hdigit : isDigit d with
      | true =>
        rw [hpoint, plainBlanks_cons (by decide), kept_token (by decide), plainBlanks_digit hdigit, takeFraction,
          takeFraction, if_pos ⟨rfl, hdigit⟩, if_pos ⟨rfl, hdigit⟩, digitRun_plainBlanks]
      | false =>
        obtain ⟨r', hr'⟩ := plainBlanks_shape d r
        have hkept : ¬ (unit '.' = unit '.' ∧ isDigit (kept d) = true) := by simp [isDigit_kept, hdigit]
        have hpair : plainBlanks (unit '.' :: d :: r) = unit '.' :: kept d :: r' := by
          rw [plainBlanks_cons (by decide), kept_token (c := unit '.') (by decide), hr']
        rw [hpoint, hpair, takeFraction, takeFraction, if_neg hkept, if_neg (by simp [hdigit]), hpair]
    · obtain ⟨r', hr'⟩ := plainBlanks_shape c (d :: r)
      have hkept : kept c ≠ unit '.' := fun h => hpoint ((kept_eq_iff (by decide) (by decide)).mp h)
      rw [hr', takeFraction, if_neg (fun h => hpoint h.1), hr']
      cases r' with
      | nil => rfl
      | cons e r' => rw [takeFraction, if_neg (fun h => hkept h.1)]

theorem takeSign_plainBlanks (t : Text) :
    takeSign (plainBlanks t) = ((takeSign t).1, plainBlanks (takeSign t).2) := by
  cases t with
  | nil => rfl
  | cons c r =>
    cases hsign : isSign c with
    | true =>
      have hplain : c ≠ unit '"' ∧ kept c = c := by
        simp only [isSign, Bool.or_eq_true, beq_iff_eq] at hsign
        rcases hsign with rfl | rfl <;> exact ⟨by decide, by decide⟩
      rw [plainBlanks_cons hplain.1, hplain.2, takeSign, takeSign, if_pos hsign, if_pos hsign]
    | false =>
      obtain ⟨r', hr'⟩ := plainBlanks_shape c r
      rw [hr', takeSign, takeSign, isSign_kept, hsign, if_neg (by decide), if_neg (by decide), ← hr']

theorem takeExponent_plainBlanks (t : Text) :
    takeExponent (plainBlanks t) = ((takeExponent t).1, plainBlanks (takeExponent t).2) := by
  cases t with
  | nil => rfl
  | cons c r =>
    cases hmark : isExponentMark c with
    | false =>
      obtain ⟨r', hr'⟩ := plainBlanks_shape c r
      rw [hr', takeExponent, takeExponent, isExponentMark_kept, hmark, if_neg (by decide), if_neg (by decide), ← hr']
    | true =>
      have hplain : plainBlanks (c :: r) = c :: plainBlanks r := by
        simp only [isExponentMark, Bool.or_eq_true, beq_iff_eq] at hmark
        rcases hmark with rfl | rfl <;> exact plainBlanks_cons (by decide)
      rw [hplain, takeExponent, takeExponent, if_pos hmark, if_pos hmark, takeSign_plainBlanks]
      cases hafter : (takeSign r).2 with
      | nil =>
        show ([], c :: plainBlanks r) = (([] : Text), plainBlanks (c :: r))
        rw [hplain]
      | cons d after =>
        cases hdigit : isDigit d with
        | true =>
          rw [plainBlanks_digit hdigit]
          simp only [if_pos hdigit, digitRun_plainBlanks]
        | false =>
          obtain ⟨r', hr'⟩ := plainBlanks_shape d after
          have hkept : isDigit (kept d) = false := by rw [isDigit_kept, hdigit]
          rw [hr']
          simp only [hkept, hdigit, Bool.false_eq_true, if_false, hplain]

theorem takeNumber_plainBlanks (t : Text) :
    takeNumber (plainBlanks t) = (takeNumber t).map fun (s, rest) => (s, plainBlanks rest) := by
  unfold takeNumber
  rw [takeMinus_plainBlanks]
  simp only [takeInteger_plainBlanks]
  cases takeInteger (takeMinus t).2 with
  | none => rfl
  | some p =>
    simp only [Option.map_some, Option.bind_eq_bind, Option.bind_some, takeFraction_plainBlanks,
      takeExponent_plainBlanks]

theorem inside_inv {u : Text} {e : CodeUnit} (h : respace .inside t = e :: u) :
    ∃ r, t = e :: r ∧ respace (Scan.inside.next e) r = u := by
  cases t with
  | nil => exact absurd h (by simp [respace])
  | cons d r =>
    rw [respace, List.cons.injEq] at h
    · obtain ⟨rfl, rfl⟩ := h
      exact ⟨r, rfl, rfl⟩
    · simp

theorem escaped_inv {u : Text} {e : CodeUnit} (h : respace .escaped t = e :: u) :
    ∃ r, t = e :: r ∧ respace .inside r = u := by
  cases t with
  | nil => exact absurd h (by simp [respace])
  | cons d r =>
    rw [respace, List.cons.injEq] at h
    · obtain ⟨rfl, rfl⟩ := h
      exact ⟨r, rfl, rfl⟩
    · simp

theorem hexValue_plain {n : ℕ} (h : hexValue c = some n) : Scan.inside.next c = .inside := by
  have hquote : c ≠ unit '"' := by
    rintro rfl
    rw [show hexValue (unit '"') = none by decide] at h
    simp at h
  have hslash : c ≠ unit '\\' := by
    rintro rfl
    rw [show hexValue (unit '\\') = none by decide] at h
    simp at h
  rw [Scan.next, if_neg hquote, if_neg hslash]

theorem inside_next (hnext : Scan.inside.next c = .inside) : respace .inside (c :: r) = c :: respace .inside r := by
  rw [respace, hnext]
  simp

-- A literal is left as it is.
theorem inside_chars {s x : Text} (h : Chars s x) (r : Text) :
    respace .inside (s ++ unit '"' :: r) = s ++ unit '"' :: plainBlanks r := by
  induction h with
  | done => exact inside_quote
  | plain hquote hslash _ _ ih => rw [List.cons_append, inside_plain hquote hslash, ih, List.cons_append]
  | short _ _ ih => rw [List.cons_append, List.cons_append, inside_slash, ih]; rfl
  | code hfour _ ih =>
    simp only [fourHex, Option.bind_eq_bind, Option.bind_eq_some_iff] at hfour
    obtain ⟨_, ha, _, hb, _, hc, _, hd, _⟩ := hfour
    simp only [List.cons_append]
    rw [inside_slash, inside_next (hexValue_plain ha), inside_next (hexValue_plain hb),
      inside_next (hexValue_plain hc), inside_next (hexValue_plain hd), ih]

theorem chars_inside {s x : Text} (h : Chars s x) :
    ∀ {t u : Text}, respace .inside t = s ++ unit '"' :: u → ∃ r, t = s ++ unit '"' :: r ∧ plainBlanks r = u := by
  induction h with
  | done =>
    intro t u hu
    obtain ⟨r, rfl, hr⟩ := inside_inv hu
    exact ⟨r, rfl, hr⟩
  | plain hquote hslash _ _ ih =>
    intro t u hu
    obtain ⟨r, rfl, hr⟩ := inside_inv hu
    rw [Scan.next, if_neg hquote, if_neg hslash] at hr
    obtain ⟨r', rfl, hr'⟩ := ih hr
    exact ⟨r', rfl, hr'⟩
  | short _ _ ih =>
    intro t u hu
    obtain ⟨r₁, rfl, hr₁⟩ := inside_inv hu
    obtain ⟨r₂, rfl, hr₂⟩ := escaped_inv hr₁
    obtain ⟨r, rfl, hr⟩ := ih hr₂
    exact ⟨r, rfl, hr⟩
  | code hfour _ ih =>
    intro t u hu
    simp only [fourHex, Option.bind_eq_bind, Option.bind_eq_some_iff] at hfour
    obtain ⟨_, ha, _, hb, _, hc, _, hd, _⟩ := hfour
    obtain ⟨r₁, rfl, hr₁⟩ := inside_inv hu
    obtain ⟨r₂, rfl, hr₂⟩ := escaped_inv hr₁
    obtain ⟨r₃, rfl, hr₃⟩ := inside_inv hr₂
    rw [hexValue_plain ha] at hr₃
    obtain ⟨r₄, rfl, hr₄⟩ := inside_inv hr₃
    rw [hexValue_plain hb] at hr₄
    obtain ⟨r₅, rfl, hr₅⟩ := inside_inv hr₄
    rw [hexValue_plain hc] at hr₅
    obtain ⟨r₆, rfl, hr₆⟩ := inside_inv hr₅
    rw [hexValue_plain hd] at hr₆
    obtain ⟨r, rfl, hr⟩ := ih hr₆
    exact ⟨r, rfl, hr⟩

theorem readChars_inside (t : Text) :
    readChars (respace .inside t) = (readChars t).map fun (x, rest) => (x, plainBlanks rest) := by
  cases h : readChars t with
  | some p =>
    obtain ⟨x, rest⟩ := p
    obtain ⟨s, rfl, hs⟩ := chars_of_readChars h
    rw [inside_chars hs, readChars_of_chars hs]
    rfl
  | none =>
    cases h' : readChars (respace .inside t) with
    | none => rfl
    | some p =>
      obtain ⟨x, u⟩ := p
      obtain ⟨s, hu, hs⟩ := chars_of_readChars h'
      obtain ⟨r, rfl, _⟩ := chars_inside hs hu
      rw [readChars_of_chars hs] at h
      exact absurd h (by simp)

theorem skip_plainBlanks (t : Text) : skip jsonBlanks (plainBlanks t) = plainBlanks (skip scriptBlanks t) := by
  induction t with
  | nil => rfl
  | cons c r ih =>
    unfold skip at ih ⊢
    cases hspace : isSpace c with
    | true =>
      have hquote : c ≠ unit '"' := by
        rintro rfl
        exact absurd hspace (by decide)
      rw [plainBlanks_cons hquote, List.dropWhile_cons_of_pos (by rw [jsonBlank_kept, hspace]), ih,
        List.dropWhile_cons_of_pos (show scriptBlanks.has c = true from hspace)]
    | false =>
      obtain ⟨r', hr'⟩ := plainBlanks_shape c r
      rw [hr', List.dropWhile_cons_of_neg (by rw [jsonBlank_kept, hspace]; decide),
        List.dropWhile_cons_of_neg (show ¬ scriptBlanks.has c = true by rw [show scriptBlanks.has c = false from hspace]; decide), hr']

theorem after_plainBlanks {k : CodeUnit} (hk : isToken k = true) (hquote : k ≠ unit '"') (t : Text) :
    after k (plainBlanks t) = (after k t).map plainBlanks := by
  cases t with
  | nil => rfl
  | cons c r =>
    have hk32 : k ≠ 32 := by
      rintro rfl
      exact absurd hk (by decide)
    by_cases hc : c = k
    · rw [hc, plainBlanks_cons hquote, kept_token hk, after, after, if_pos rfl, if_pos rfl]
      rfl
    · obtain ⟨r', hr'⟩ := plainBlanks_shape c r
      have hkept : kept c ≠ k := fun h => hc ((kept_eq_iff (isForeign_token hk) hk32).mp h)
      rw [hr', after, after, if_neg hkept, if_neg hc]
      rfl

theorem after_quote_plainBlanks (t : Text) :
    after (unit '"') (plainBlanks t) = (after (unit '"') t).map (respace .inside) := by
  cases t with
  | nil => rfl
  | cons c r =>
    by_cases hc : c = unit '"'
    · rw [hc, plainBlanks_quote, after, after, if_pos rfl, if_pos rfl]
      rfl
    · have hkept : kept c ≠ unit '"' := fun h => hc ((kept_eq_iff (by decide) (by decide)).mp h)
      rw [plainBlanks_cons hc, after, after, if_neg hkept, if_neg hc]
      rfl

/-- Code units a literal name is made of. -/
def isWord (w : Text) : Bool := w.all fun k => !isForeign k && k != unit '"' && k != 32

theorem word_append {w : Text} (hw : isWord w = true) (r : Text) : plainBlanks (w ++ r) = w ++ plainBlanks r := by
  induction w with
  | nil => rfl
  | cons k w ih =>
    simp only [isWord, List.all_cons, Bool.and_eq_true, Bool.not_eq_true', bne_iff_ne] at hw
    rw [List.cons_append, plainBlanks_cons hw.1.1.2, kept_of_not_foreign hw.1.1.1, ih hw.2, List.cons_append]

theorem word_prefix {w : Text} (hw : isWord w = true) (t : Text) : w <+: plainBlanks t ↔ w <+: t := by
  induction w generalizing t with
  | nil => exact iff_of_true List.nil_prefix List.nil_prefix
  | cons k w ih =>
    simp only [isWord, List.all_cons, Bool.and_eq_true, Bool.not_eq_true', bne_iff_ne] at hw
    cases t with
    | nil => exact Iff.rfl
    | cons c r =>
      by_cases hc : c = k
      · rw [hc, plainBlanks_cons hw.1.1.2, kept_of_not_foreign hw.1.1.1, List.cons_prefix_cons, List.cons_prefix_cons,
          ih hw.2]
      · obtain ⟨r', hr'⟩ := plainBlanks_shape c r
        have hkept : kept c ≠ k := fun h => hc ((kept_eq_iff hw.1.1.1 hw.1.2).mp h)
        rw [hr', List.cons_prefix_cons, List.cons_prefix_cons]
        exact iff_of_false (fun h => hkept h.1.symm) (fun h => hc h.1.symm)

theorem word_drop {w : Text} (hw : isWord w = true) {t : Text} (h : w <+: t) :
    (plainBlanks t).drop w.length = plainBlanks (t.drop w.length) := by
  obtain ⟨r, rfl⟩ := h
  rw [word_append hw, List.drop_left, List.drop_left]

theorem skip_head {blanks : Blanks} (h : skip blanks t = c :: r) : blanks.has c = false := by
  have hhead := List.head?_dropWhile_not blanks.has t
  rw [show t.dropWhile blanks.has = c :: r from h] at hhead
  simpa using hhead

end Respace

/-! ## The JSON reader on the respaced text -/

section Readers

variable {N : Type} {num : Text → N}

/-- A result with what is left of the text respaced. -/
def left {α : Type} (p : α × Text) : α × Text := (p.1, plainBlanks p.2)

theorem value_respaced {fuel : ℕ}
    (hitems : ∀ t, readItems jsonBlanks num fuel (plainBlanks t) = (readItems scriptBlanks num fuel t).map left)
    (hmembers : ∀ t, readMembers jsonBlanks num fuel (plainBlanks t) = (readMembers scriptBlanks num fuel t).map left)
    (t : Text) :
    readValue jsonBlanks num (fuel + 1) (plainBlanks t) = (readValue scriptBlanks num (fuel + 1) t).map left := by
  rw [readValue, readValue, skip_plainBlanks]
  cases hskip : skip scriptBlanks t with
  | nil => rfl
  | cons c r =>
    have hspace : isSpace c = false := skip_head hskip
    have hforeign : isForeign c = false := by rw [isForeign, hspace, Bool.false_and]
    by_cases hquote : c = unit '"'
    · rw [hquote, plainBlanks_quote]
      simp only [if_neg (show unit '"' ≠ unit '{' by decide), if_neg (show unit '"' ≠ unit '[' by decide), if_true,
        readChars_inside, Option.map_map]
      rfl
    · have hcons : plainBlanks (c :: r) = c :: plainBlanks r := by
        rw [plainBlanks_cons hquote, kept_of_not_foreign hforeign]
      have hword : ∀ {w : Text}, isWord w = true → (w <+: c :: plainBlanks r ↔ w <+: c :: r) := fun hw => by
        rw [← hcons]
        exact word_prefix hw _
      rw [hcons]
      simp only [if_neg hquote, hword (show isWord (units "true") = true by decide),
        hword (show isWord (units "false") = true by decide), hword (show isWord (units "null") = true by decide)]
      split_ifs with hbrace hbracket htrue hfalse hnull
      · rw [skip_plainBlanks, after_plainBlanks (by decide) (by decide), hmembers]
        cases after (unit '}') (skip scriptBlanks r) with
        | some r' => rfl
        | none => simp only [Option.map_none, Option.map_map]; rfl
      · rw [skip_plainBlanks, after_plainBlanks (by decide) (by decide), hitems]
        cases after (unit ']') (skip scriptBlanks r) with
        | some r' => rfl
        | none => simp only [Option.map_none, Option.map_map]; rfl
      · rw [← hcons]
        exact congrArg (fun u => some (Json.bool true, u)) (word_drop (by decide) htrue)
      · rw [← hcons]
        exact congrArg (fun u => some (Json.bool false, u)) (word_drop (by decide) hfalse)
      · rw [← hcons]
        exact congrArg (fun u => some (Json.null, u)) (word_drop (by decide) hnull)
      · rw [← hcons, takeNumber_plainBlanks, Option.map_map, Option.map_map]
        rfl

theorem items_respaced {fuel : ℕ}
    (hvalue : ∀ t, readValue jsonBlanks num fuel (plainBlanks t) = (readValue scriptBlanks num fuel t).map left)
    (hitems : ∀ t, readItems jsonBlanks num fuel (plainBlanks t) = (readItems scriptBlanks num fuel t).map left)
    (t : Text) :
    readItems jsonBlanks num (fuel + 1) (plainBlanks t) = (readItems scriptBlanks num (fuel + 1) t).map left := by
  rw [readItems, readItems, hvalue]
  cases readValue scriptBlanks num fuel t with
  | none => rfl
  | some p =>
    simp only [Option.map_some, left, Option.bind_eq_bind, Option.bind_some, skip_plainBlanks]
    cases hskip : skip scriptBlanks p.2 with
    | nil => rfl
    | cons c r =>
      by_cases hclose : c = unit ']'
      · simp only [hclose, plainBlanks_cons (show unit ']' ≠ unit '"' by decide),
          kept_token (show isToken (unit ']') = true by decide), if_true]
        rfl
      · by_cases hcomma : c = unit ','
        · simp only [hcomma, plainBlanks_cons (show unit ',' ≠ unit '"' by decide),
            kept_token (show isToken (unit ',') = true by decide), if_neg (show unit ',' ≠ unit ']' by decide), if_true,
            hitems, Option.map_map]
          rfl
        · obtain ⟨r', hr'⟩ := plainBlanks_shape c r
          have hclose' : kept c ≠ unit ']' := fun h => hclose ((kept_eq_iff (by decide) (by decide)).mp h)
          have hcomma' : kept c ≠ unit ',' := fun h => hcomma ((kept_eq_iff (by decide) (by decide)).mp h)
          simp only [hr', if_neg hclose, if_neg hcomma, if_neg hclose', if_neg hcomma']
          rfl

theorem members_respaced {fuel : ℕ}
    (hvalue : ∀ t, readValue jsonBlanks num fuel (plainBlanks t) = (readValue scriptBlanks num fuel t).map left)
    (hmembers : ∀ t, readMembers jsonBlanks num fuel (plainBlanks t) = (readMembers scriptBlanks num fuel t).map left)
    (t : Text) :
    readMembers jsonBlanks num (fuel + 1) (plainBlanks t) = (readMembers scriptBlanks num (fuel + 1) t).map left := by
  rw [readMembers, readMembers, skip_plainBlanks, after_quote_plainBlanks]
  cases after (unit '"') (skip scriptBlanks t) with
  | none => rfl
  | some opened =>
    simp only [Option.map_some, Option.bind_eq_bind, Option.bind_some, readChars_inside]
    cases readChars opened with
    | none => rfl
    | some name =>
      simp only [Option.map_some, Option.bind_some, skip_plainBlanks,
        after_plainBlanks (show isToken (unit ':') = true by decide) (show unit ':' ≠ unit '"' by decide)]
      cases after (unit ':') (skip scriptBlanks name.2) with
      | none => rfl
      | some r₂ =>
        simp only [Option.map_some, Option.bind_some, hvalue]
        cases readValue scriptBlanks num fuel r₂ with
        | none => rfl
        | some p =>
          simp only [Option.map_some, left, Option.bind_some, skip_plainBlanks]
          cases hskip : skip scriptBlanks p.2 with
          | nil => rfl
          | cons c r =>
            by_cases hclose : c = unit '}'
            · simp only [hclose, plainBlanks_cons (show unit '}' ≠ unit '"' by decide),
                kept_token (show isToken (unit '}') = true by decide), if_true]
              rfl
            · by_cases hcomma : c = unit ','
              · simp only [hcomma, plainBlanks_cons (show unit ',' ≠ unit '"' by decide),
                  kept_token (show isToken (unit ',') = true by decide), if_neg (show unit ',' ≠ unit '}' by decide),
                  if_true, hmembers, Option.map_map]
                rfl
              · obtain ⟨r', hr'⟩ := plainBlanks_shape c r
                have hclose' : kept c ≠ unit '}' := fun h => hclose ((kept_eq_iff (by decide) (by decide)).mp h)
                have hcomma' : kept c ≠ unit ',' := fun h => hcomma ((kept_eq_iff (by decide) (by decide)).mp h)
                simp only [hr', if_neg hclose, if_neg hcomma, if_neg hclose', if_neg hcomma']
                rfl

theorem respaced (fuel : ℕ) :
    (∀ t, readValue jsonBlanks num fuel (plainBlanks t) = (readValue scriptBlanks num fuel t).map left) ∧
      (∀ t, readItems jsonBlanks num fuel (plainBlanks t) = (readItems scriptBlanks num fuel t).map left) ∧
      (∀ t, readMembers jsonBlanks num fuel (plainBlanks t) = (readMembers scriptBlanks num fuel t).map left) := by
  induction fuel with
  | zero => exact ⟨fun _ => rfl, fun _ => rfl, fun _ => rfl⟩
  | succ fuel ih =>
    obtain ⟨hvalue, hitems, hmembers⟩ := ih
    exact ⟨value_respaced hitems hmembers, items_respaced hvalue hitems, members_respaced hvalue hmembers⟩

theorem length_respace (q : Scan) (t : Text) : (respace q t).length = t.length := by
  induction t generalizing q with
  | nil => rw [respace]
  | cons c r ih => cases q <;> rw [respace, List.length_cons, List.length_cons, ih] <;> simp

theorem plainBlanks_eq_nil {t : Text} : plainBlanks t = [] ↔ t = [] := by
  rw [← List.length_eq_zero_iff, plainBlanks, length_respace, List.length_eq_zero_iff]

-- The parser's texts are the JSON texts, a space read for each foreign blank.
theorem isText_plainBlanks {t : Text} {x : Json N} :
    IsText jsonBlanks num (plainBlanks t) x ↔ IsText scriptBlanks num t x := by
  rw [← read_eq_some_iff, ← read_eq_some_iff]
  unfold JsonGrammar.read
  rw [plainBlanks, length_respace, ← plainBlanks, (respaced _).1]
  cases readValue scriptBlanks num (2 * t.length) t with
  | none => exact Iff.rfl
  | some p =>
    simp only [Option.map_some, left, skip_plainBlanks, plainBlanks_eq_nil]

/-- A stretch of text the respacing leaves alone, from outside the literals to outside them. -/
def Fixed (s : Text) : Prop := ∀ r, plainBlanks (s ++ r) = s ++ plainBlanks r

theorem Fixed.nil : Fixed [] := fun _ => rfl

theorem Fixed.append {s u : Text} (hs : Fixed s) (hu : Fixed u) : Fixed (s ++ u) := fun r => by
  rw [List.append_assoc, hs, hu, List.append_assoc]

theorem Fixed.word {s : Text} (hs : isWord s = true) : Fixed s := word_append hs

theorem Fixed.cons {c : CodeUnit} {s : Text} (hc : isWord [c] = true) (hs : Fixed s) : Fixed (c :: s) :=
  (Fixed.word hc).append hs

theorem Fixed.blank {w : Text} (hw : Blank jsonBlanks w) : Fixed w := by
  induction w with
  | nil => exact .nil
  | cons c w ih =>
    obtain ⟨hc, hw⟩ := List.forall_mem_cons.mp hw
    have hplain : c ≠ unit '"' ∧ kept c = c := by
      refine ⟨?_, kept_of_not_foreign (by rw [isForeign, hc, Bool.not_true, Bool.and_false])⟩
      rintro rfl
      exact absurd hc (by decide)
    intro r
    rw [List.cons_append, plainBlanks_cons hplain.1, hplain.2, ih hw, List.cons_append]

theorem Fixed.literal {s x u : Text} (hs : Chars s x) (hu : Fixed u) :
    Fixed (unit '"' :: (s ++ unit '"' :: u)) := fun r => by
  have hassoc : unit '"' :: (s ++ unit '"' :: u) ++ r = unit '"' :: (s ++ unit '"' :: (u ++ r)) := by simp
  rw [hassoc, plainBlanks_quote, inside_chars hs, hu]
  simp

theorem Fixed.digits {s : Text} (hs : AllDigits s) : Fixed s := by
  refine .word (List.all_eq_true.mpr fun k hk => ?_)
  have hdigit := hs k hk
  have hblank : k ≠ 32 := by
    rintro rfl
    exact absurd hdigit (by decide)
  simp [isForeign_token (show isToken k = true by rw [isToken, hdigit, Bool.true_or]), isDigit_ne_quote hdigit, hblank]

theorem Fixed.number {s : Text} (hs : IsNumber s) : Fixed s := by
  obtain ⟨sign, i, f, e, rfl, hsign, hi, hf, he⟩ := hs
  have hsign : Fixed sign := by
    rcases hsign with rfl | rfl
    · exact .nil
    · exact .word (by decide)
  have hi : Fixed i := by
    rcases hi with rfl | ⟨d, r, rfl, _, hall⟩
    · exact .word (by decide)
    · exact .digits hall
  have hf : Fixed f := by
    rcases hf with rfl | ⟨d, r, rfl, hall⟩
    · exact .nil
    · exact .cons (by decide) (.digits hall)
  have he : Fixed e := by
    rcases he with rfl | ⟨m, esign, d, r, rfl, hmark, hesign, hall⟩
    · exact .nil
    · have hm : isWord [m] = true := by
        simp only [isExponentMark, Bool.or_eq_true, beq_iff_eq] at hmark
        rcases hmark with rfl | rfl <;> decide
      have hes : Fixed esign := by
        rcases hesign with rfl | ⟨c, rfl, hc⟩
        · exact .nil
        · simp only [isSign, Bool.or_eq_true, beq_iff_eq] at hc
          rcases hc with rfl | rfl <;> exact .word (by decide)
      exact .cons hm (hes.append (.digits hall))
  exact hsign.append (hi.append (hf.append he))

mutual

theorem fixed_value : ∀ {v : Text} {x : Json N}, IsValue jsonBlanks num v x → Fixed v
  | _, _, .null => .word (by decide)
  | _, _, .true => .word (by decide)
  | _, _, .false => .word (by decide)
  | _, _, .number h => .number h
  | _, _, .string h => .literal h .nil
  | _, _, .emptyArray h => .cons (by decide) ((Fixed.blank h).append (.word (by decide)))
  | _, _, .array h => .cons (by decide) ((fixed_items h).append (.word (by decide)))
  | _, _, .emptyObject h => .cons (by decide) ((Fixed.blank h).append (.word (by decide)))
  | _, _, .object h => .cons (by decide) ((fixed_members h).append (.word (by decide)))

theorem fixed_text : ∀ {s : Text} {x : Json N}, IsText jsonBlanks num s x → Fixed s
  | _, _, .padded hw h hw' => (Fixed.blank hw).append ((fixed_value h).append (.blank hw'))

theorem fixed_items : ∀ {s : Text} {xs : List (Json N)}, IsItems jsonBlanks num s xs → Fixed s
  | _, _, .one h => fixed_text h
  | _, _, .more h hs => (fixed_text h).append (.cons (by decide) (fixed_items hs))

theorem fixed_members : ∀ {s : Text} {ms : List (Text × Json N)}, IsMembers jsonBlanks num s ms → Fixed s
  | _, _, .one hw hname hw' h =>
    (Fixed.blank hw).append (.literal hname ((Fixed.blank hw').append (.cons (by decide) (fixed_text h))))
  | _, _, .more hw hname hw' h hs =>
    (Fixed.blank hw).append (.literal hname ((Fixed.blank hw').append
      (.cons (by decide) ((fixed_text h).append (.cons (by decide) (fixed_members hs))))))

end

theorem plainBlanks_of_isText {t : Text} {x : Json N} (h : IsText jsonBlanks num t x) : plainBlanks t = t := by
  have hfixed := fixed_text h []
  rwa [List.append_nil, show plainBlanks [] = [] from rfl, List.append_nil] at hfixed

end Readers

/-! ## Acceptance -/

section Acceptance

variable {N : Type} (num : Text → N) (safe : N → Bool)

/-- `t` is a JSON text of `x`, without a repeated member name or an inadmissible number. -/
def IsStrictJson (t : Text) (x : Json N) : Prop := IsText jsonBlanks num t x ∧ Strict safe x

/-- The parser returns a value on strict JSON only, on all of it, and the one `JSON.parse` returns. -/
def AcceptsStrictJson (t : Text) : Prop :=
  ((∃ y, parseJsonWithDuplicateRejection num safe t = .ok y) ↔ ∃ x, IsStrictJson num safe t x) ∧
    ∀ y, parseJsonWithDuplicateRejection num safe t = .ok y → jsonParse num t = some y

/-- The parser is exact on a text unless a blank JSON does not know is all that keeps the text from being strict JSON. -/
theorem strict_parser_exact_iff (t : Text) :
    AcceptsStrictJson num safe t ↔ plainBlanks t = t ∨ ¬ ∃ x, IsStrictJson num safe (plainBlanks t) x := by
  have hparse : ∀ y, parseJsonWithDuplicateRejection num safe t = .ok y ↔ IsStrictJson num safe (plainBlanks t) y := by
    intro y
    rw [parse_ok, IsStrictJson, isText_plainBlanks]
  constructor
  · intro h
    by_cases hstrict : ∃ x, IsStrictJson num safe (plainBlanks t) x
    · obtain ⟨x, hx⟩ := hstrict
      obtain ⟨y, hy, _⟩ := h.1.mp ⟨x, (hparse x).mpr hx⟩
      exact .inl (plainBlanks_of_isText hy)
    · exact .inr hstrict
  · rintro (hplain | hnone)
    · rw [hplain] at hparse
      refine ⟨⟨fun ⟨y, hy⟩ => ⟨y, (hparse y).mp hy⟩, fun ⟨x, hx⟩ => ⟨x, (hparse x).mpr hx⟩⟩, fun y hy => ?_⟩
      obtain ⟨htext, hstrict⟩ := (hparse y).mp hy
      rw [jsonParse, read_eq_some_iff.mpr htext, Option.map_some, evaluate_strict hstrict]
    · have hno : ∀ y, parseJsonWithDuplicateRejection num safe t ≠ .ok y := fun y hy => hnone ⟨y, (hparse y).mp hy⟩
      refine ⟨⟨fun ⟨y, hy⟩ => absurd hy (hno y), fun ⟨x, hx⟩ => ?_⟩, fun y hy => absurd hy (hno y)⟩
      have hplain := plainBlanks_of_isText hx.1
      exact absurd ⟨x, by rwa [hplain]⟩ hnone

end Acceptance

/-- A no-break space before a literal name. -/
def noBreakNull : Text := 0xA0 :: units "null"

/-- The parser accepts `null` after a no-break space, which no JSON text starts with. -/
theorem no_break_space_accepted :
    ¬ AcceptsStrictJson (fun _ => ()) (fun _ => true) noBreakNull := by
  rintro ⟨hiff, _⟩
  have hparse : parseJsonWithDuplicateRejection (fun _ => ()) (fun _ => true) noBreakNull = .ok .null := rfl
  obtain ⟨x, htext, _⟩ := hiff.mp ⟨.null, hparse⟩
  exact absurd (plainBlanks_of_isText htext) (by decide)

end PaymentNode.StrictJson
