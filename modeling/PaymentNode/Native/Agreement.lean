import PaymentNode.Native.Prepared

/-!
# Agreement — the native agent and the core

The two write the same times for the seconds of the years 0 to 9999, and for a prepared transfer the same document as
long as its gas cost and its two factors are words of 64 bits.  The agent accepts a prepared transfer when its profile,
recipient, nonce, fees and window are also within the agent's own bounds.
-/

namespace PaymentNode.Core

open DecimalText JsonText JsonGrammar CivilDate

/-! ## Times -/

theorem civilFromDays_dateOf (days : ℤ) : Native.civilFromDays days = dateOf days := Native.civilFromDays_eq days

theorem tdiv_hours (t : ℤ) : (t % 86400).tdiv 3600 = t / 3600 % 24 := by
  rw [Native.tdiv_of_nonneg (by omega)]
  omega

theorem tmod_minutes (t : ℤ) : ((t % 86400).tmod 3600).tdiv 60 = t / 60 % 60 := by
  rw [Int.tmod_eq_emod_of_nonneg (by omega), Native.tdiv_of_nonneg (by omega)]
  omega

theorem tmod_seconds (t : ℤ) : (t % 86400).tmod 60 = t % 60 := by
  rw [Int.tmod_eq_emod_of_nonneg (by omega)]
  omega

variable {text : Text}

-- The agent writes a second whose year has four digits.
theorem format_iff {t : ℤ} : Native.formatRfc3339Utc t = .ok text ↔
    (Native.firstSecond ≤ t ∧ t ≤ Native.lastSecond) ∧ text = (Native.partsOf t).text := by
  constructor
  · intro h
    obtain ⟨hvalid, hdays⟩ := Native.daysFromCivil_civilFromDays (t / 86400)
    have hyear := Native.year_iff hvalid
    rw [hdays] at hyear
    have hbounds : Native.firstSecond ≤ t ∧ t ≤ Native.lastSecond := by
      unfold Native.formatRfc3339Utc at h
      by_cases hrange : 0 ≤ (Native.civilFromDays (t / 86400)).1 ∧ (Native.civilFromDays (t / 86400)).1 ≤ 9999
      · have hday := hyear.mp hrange
        unfold Native.firstSecond Native.lastSecond
        omega
      · rw [if_pos hrange] at h
        exact absurd h (by simp)
    rw [Native.format_ok hbounds.1 hbounds.2] at h
    exact ⟨hbounds, (Except.ok.inj h).symm⟩
  · rintro ⟨hbounds, rfl⟩
    exact Native.format_ok hbounds.1 hbounds.2

-- The core's text of a second of the years 0 to 9999.
theorem toISOString_second {t : ℤ} (h : toISOString (t * 1000) = .ok text)
    (hbounds : Native.firstSecond ≤ t ∧ t ≤ Native.lastSecond) : text = (Native.partsOf t).text := by
  obtain ⟨hvalid, hdays⟩ := Native.daysFromCivil_civilFromDays (t / 86400)
  have hyear := (Native.year_iff hvalid).mpr (by
    rw [hdays]
    unfold Native.firstSecond Native.lastSecond at hbounds
    omega)
  rw [(toISOString_ok.mp h).2, show t * 1000 / 86400000 = t / 86400 by omega,
    show t * 1000 / 3600000 % 24 = t / 3600 % 24 by omega, show t * 1000 / 60000 % 60 = t / 60 % 60 by omega,
    show t * 1000 / 1000 % 60 = t % 60 by omega, show t * 1000 % 1000 = 0 by omega, ← civilFromDays_dateOf,
    Native.partsOf, tdiv_hours, tmod_minutes, tmod_seconds, yearText, if_pos hyear]
  rfl

-- Every other second is written in more than twenty-four characters.
theorem length_toISOString {t : ℤ} (h : toISOString (t * 1000) = .ok text)
    (hbounds : ¬ (Native.firstSecond ≤ t ∧ t ≤ Native.lastSecond)) : 24 < text.length := by
  obtain ⟨hvalid, hdays⟩ := Native.daysFromCivil_civilFromDays (t / 86400)
  have hyear : ¬ (0 ≤ (dateOf (t / 86400)).1 ∧ (dateOf (t / 86400)).1 ≤ 9999) := by
    rw [← civilFromDays_dateOf, Native.year_iff hvalid, hdays]
    unfold Native.firstSecond Native.lastSecond at hbounds
    omega
  have hwidth : ∀ (width : ℕ) (n : ℤ), width ≤ (numberText width n).length := by
    intro width n
    rw [numberText, padStart, List.length_append, List.length_replicate]
    omega
  have htext := congrArg List.length (toISOString_ok.mp h).2
  rw [show t * 1000 / 86400000 = t / 86400 by omega, yearText, if_neg hyear] at htext
  simp only [List.length_append, List.length_cons, List.length_nil] at htext
  have h6 := hwidth 6 |(dateOf (t / 86400)).1|
  have hmonth := hwidth 2 (dateOf (t / 86400)).2.1
  have hday := hwidth 2 (dateOf (t / 86400)).2.2
  have hhour := hwidth 2 (t * 1000 / 3600000 % 24)
  have hminute := hwidth 2 (t * 1000 / 60000 % 60)
  have hsecond := hwidth 2 (t * 1000 / 1000 % 60)
  have hms := hwidth 3 (t * 1000 % 1000)
  omega

theorem length_le_byteLen (text : Text) : text.length ≤ ByteText.byteLen text := by
  induction text with
  | nil => exact le_rfl
  | cons c rest ih =>
    have hsize := c.utf8Size_pos
    rw [List.length_cons, ByteText.byteLen, List.map_cons, List.sum_cons, ← ByteText.byteLen]
    omega

-- The agent reads what the core writes for a second exactly when its year has four digits.
theorem parse_toISOString {t x : ℤ} (h : toISOString (t * 1000) = .ok text) :
    Native.parseRfc3339Utc text = .ok x ↔ (Native.firstSecond ≤ t ∧ t ≤ Native.lastSecond) ∧ x = t := by
  by_cases hbounds : Native.firstSecond ≤ t ∧ t ≤ Native.lastSecond
  · rw [toISOString_second h hbounds, Native.parse_partsOf hbounds.1 hbounds.2, Except.ok.injEq, eq_comm,
      and_iff_right hbounds]
  · refine iff_of_false (fun hparse => ?_) fun hx => hbounds hx.1
    have hlength := length_toISOString h hbounds
    have hbytes := length_le_byteLen text
    simp only [Native.parseRfc3339Utc, Native.run_ok] at hparse
    obtain ⟨shape, hshape, _, htrue, -⟩ := hparse
    rw [Native.ensure_ok] at htrue
    rw [htrue, Native.framed_true] at hshape
    omega

/-! ## Fingerprints -/

section Prepared

variable {hashing : Native.Hashing} {nowMs : ℤ} {nonce gas fee priority amount : ℕ} {o : Operation}

theorem exists_word {n : ℕ} (h : n < 2 ^ 256) : ∃ v : Native.Uint256, v.toNat = n :=
  ⟨⟨BigEndian.fixed 32 n, BigEndian.length_fixed 32 n⟩, BigEndian.value_fixed (by norm_num at h ⊢; exact h)⟩

-- A word the agent reads in a printed number, where the number is a word of 64 bits.
theorem parse_print_u64 {n m : ℕ} : (∃ v, Native.parseDecimal (print n) = .ok v ∧ Native.fitsU64 v = some m) ↔
    n < 2 ^ 64 ∧ m = n := by
  constructor
  · rintro ⟨v, hv, hm⟩
    rw [Native.parseDecimal_ok, read_print] at hv
    rw [Native.fitsU64_some, ← hv.2] at hm
    exact hm
  · rintro ⟨hn, rfl⟩
    obtain ⟨v, hv⟩ := exists_word (n := m) (by omega)
    refine ⟨v, ?_, ?_⟩
    · rw [Native.parseDecimal_ok, read_print, hv]
      exact ⟨isCanonical_print m, rfl⟩
    · rw [Native.fitsU64_some, hv]
      exact ⟨hn, rfl⟩

/-- The transfer's economics and window are ones the agent's arithmetic holds. -/
def Representable (gas fee : ℕ) (nowMs : ℤ) : Prop :=
  (gas < 2 ^ 64 ∧ fee < 2 ^ 64 ∧ gas * fee < 2 ^ 64) ∧
    Native.firstSecond ≤ nowMs / 1000 ∧ nowMs / 1000 + 600 ≤ Native.lastSecond

instance (gas fee : ℕ) (nowMs : ℤ) : Decidable (Representable gas fee nowMs) := inferInstanceAs (Decidable (_ ∧ _))

-- What the agent hashes for a prepared transfer is what the core hashed, and is there for a representable one only.
theorem fingerprintBytes_prepared (h : IsPrepared hashing.sha256 nowMs nonce gas fee priority amount o)
    {bytes : BigEndian.Bytes} : Native.fingerprintBytes hashing (custodyPayload o) = .ok bytes ↔
      Representable gas fee nowMs ∧ bytes = Native.encodedDocument hashing (documentOf o.toTerms) := by
  have hprepared : toISOString (nowMs / 1000 * 1000) = .ok o.preparedAt := h.preparedAt
  have hexpires : toISOString ((nowMs / 1000 + 600) * 1000) = .ok o.expiresAt := by
    rw [← h.expiresAt, approvalWindowMs]
    congr 1
    ring
  have hgas : (custodyPayload o).transaction.gasLimitAtomic = print gas := by
    show o.economics.gasLimitAtomic = _
    rw [h.economics]
  have hfee : (custodyPayload o).transaction.maxFeePerGasAtomic = print fee := by
    show o.economics.maxFeePerGasAtomic = _
    rw [h.economics]
  have hcost : o.economics.maximumGasCostAtomic = print (gas * fee) := by rw [h.economics]
  have hdocument : ∀ text, text = o.preparedAt →
      Native.canonicalDocument (custodyPayload o) (print (gas * fee)) text = documentOf o.toTerms := by
    rintro _ rfl
    rw [← hcost]
    rfl
  rw [Native.fingerprintBytes, hgas, hfee]
  simp only [Native.run_ok, Native.okOr_ok, Except.ok.injEq]
  constructor
  · rintro ⟨gasWord, hgasWord, g, hg, feeWord, hfeeWord, f, hf, cost, hmul, expires, hparse, seconds, hsub, text, hformat,
      rfl⟩
    obtain ⟨hgasLt, rfl⟩ := parse_print_u64.mp ⟨gasWord, hgasWord, hg⟩
    obtain ⟨hfeeLt, rfl⟩ := parse_print_u64.mp ⟨feeWord, hfeeWord, hf⟩
    obtain ⟨hlt, rfl⟩ := Native.checkedMul_some.mp hmul
    obtain ⟨hwindow, rfl⟩ := (parse_toISOString hexpires).mp hparse
    obtain ⟨-, rfl⟩ := Native.checkedSub_some.mp hsub
    have hseconds : nowMs / 1000 + 600 - Native.maxApprovalWindowSeconds = nowMs / 1000 := by
      rw [Native.maxApprovalWindowSeconds]
      ring
    rw [hseconds, format_iff] at hformat
    rw [hdocument text (by rw [hformat.2, toISOString_second hprepared hformat.1])]
    exact ⟨⟨⟨hgasLt, hfeeLt, hlt⟩, hformat.1.1, hwindow.2⟩, rfl⟩
  · rintro ⟨⟨⟨hgasLt, hfeeLt, hlt⟩, hfirst, hlast⟩, rfl⟩
    obtain ⟨gasWord, hgasWord, hg⟩ := parse_print_u64.mpr ⟨hgasLt, rfl⟩
    obtain ⟨feeWord, hfeeWord, hf⟩ := parse_print_u64.mpr ⟨hfeeLt, rfl⟩
    have hbounds : Native.firstSecond ≤ nowMs / 1000 ∧ nowMs / 1000 ≤ Native.lastSecond := ⟨hfirst, by omega⟩
    refine ⟨gasWord, hgasWord, gas, hg, feeWord, hfeeWord, fee, hf, _, Native.checkedMul_some.mpr ⟨hlt, rfl⟩, _,
      (parse_toISOString hexpires).mpr ⟨⟨by omega, hlast⟩, rfl⟩, nowMs / 1000, ?_, o.preparedAt, ?_, ?_⟩
    · rw [Native.checkedSub_some, Native.maxApprovalWindowSeconds]
      unfold Native.firstSecond at hfirst
      unfold Native.lastSecond at hlast
      omega
    · rw [format_iff]
      exact ⟨hbounds, toISOString_second hprepared hbounds⟩
    · rw [hdocument _ rfl]

theorem fingerprint_eq (h : IsPrepared hashing.sha256 nowMs nonce gas fee priority amount o) :
    o.fingerprint = Native.hexEncode (hashing.sha256 (Native.encodedDocument hashing (documentOf o.toTerms))).val := by
  have hhash := h.fingerprint
  rw [hashObject_terms h.plain] at hhash
  exact (Except.ok.inj hhash).symm

-- The agent's fingerprint of a prepared transfer is the core's, and is computed for a representable one only.
theorem canonicalFingerprint_prepared (h : IsPrepared hashing.sha256 nowMs nonce gas fee priority amount o)
    {fingerprint : Text} : Native.canonicalFingerprint hashing (custodyPayload o) = .ok fingerprint ↔
      Representable gas fee nowMs ∧ fingerprint = o.fingerprint := by
  simp only [Native.canonicalFingerprint, Native.run_ok, Except.ok.injEq, fingerprintBytes_prepared h]
  rw [fingerprint_eq h]
  constructor
  · rintro ⟨_, ⟨hfits, rfl⟩, rfl⟩
    exact ⟨hfits, rfl⟩
  · rintro ⟨hfits, rfl⟩
    exact ⟨_, ⟨hfits, rfl⟩, rfl⟩

/-! ## Acceptance -/

/-- A prepared transfer the agent accepts at the second `nowUnix`. -/
structure Acceptable (o : Operation) (nowMs nowUnix : ℤ) : Prop where
  /-- At most 32 characters, the first a lower-case letter, and no point. -/
  profile : o.profile.length ≤ 32 ∧ o.profile.head?.any Char.isLower = true ∧ '.' ∉ o.profile
  /-- The recipient is not the zero address. -/
  recipient : HexText.read (o.recipient.drop 2) ≠ 0
  nonce : read o.economics.nonceAtomic < 2 ^ 256
  gasLimit : 21000 ≤ read o.economics.gasLimitAtomic ∧ read o.economics.gasLimitAtomic ≤ 200000
  maxFeePerGas : read o.economics.maxFeePerGasAtomic ≤ 1000000000000
  years : Native.firstSecond ≤ nowMs / 1000 ∧ nowMs / 1000 + 600 ≤ Native.lastSecond
  window : nowMs / 1000 ≤ nowUnix ∧ nowUnix < nowMs / 1000 + 600

theorem validateProfile_ok {profile : Text} (h : isProfile profile = true) :
    Native.validateProfile profile = .ok () ↔
      profile.length ≤ 32 ∧ profile.head?.any Char.isLower = true ∧ '.' ∉ profile := by
  have hascii : ∀ c ∈ profile, c.toNat < 128 := fun c hc => by
    have hrange := (isPlain_iff.mp (plain_profile h c hc)).1
    omega
  cases profile with
  | nil => exact absurd h (by decide)
  | cons c rest =>
    simp only [isProfile, Bool.and_eq_true, List.all_eq_true, Bool.or_eq_true, beq_iff_eq] at h
    have hbytes : (c :: rest).all Native.isProfileByte = true ↔ '.' ∉ c :: rest := by
      rw [List.all_eq_true]
      constructor
      · intro hall hpoint
        exact absurd (hall '.' hpoint) (by decide)
      · intro hpoint d hd
        have hchar : isProfileChar d = true ∨ d = '_' ∨ d = '-' := by
          rcases List.mem_cons.mp hd with rfl | hrest
          · exact Or.inl h.1.1
          · rcases h.2 d hrest with ((hchar | rfl) | hchar) | hchar
            · exact Or.inl hchar
            · exact absurd hd hpoint
            · exact Or.inr (Or.inl hchar)
            · exact Or.inr (Or.inr hchar)
        rcases hchar with hchar | rfl | rfl
        · rw [Native.isProfileByte, ← isProfileChar, hchar]
          rfl
        · decide
        · decide
    rw [Native.validateProfile, Native.ensure_ok, ByteText.byteLen_ascii hascii, hbytes, List.length_cons, and_assoc,
      and_iff_right (by omega)]

theorem validateOperationId_ok {value : Text} (h : value.length = 64 ∧ ∀ c ∈ value, HexText.isLowerDigit c = true) :
    Native.validateOperationId value = .ok () := by
  have hascii : ∀ c ∈ value, c.toNat < 128 := fun c hc => by
    have hrange := HexText.isLowerDigit_iff.mp (h.2 c hc)
    omega
  rw [Native.validateOperationId, Native.ensure_ok, ByteText.byteLen_ascii hascii, h.1, List.all_eq_true]
  refine ⟨⟨by decide, by decide⟩, fun c hc => ?_⟩
  have hrange := HexText.isLowerDigit_iff.mp (h.2 c hc)
  have hall : ∀ n < 103, ((48 ≤ n ∧ n ≤ 57) ∨ (97 ≤ n ∧ n ≤ 102)) →
      Native.isOperationByte (Char.ofNat n) = true := by decide
  have hbyte := hall c.toNat (by omega) hrange
  rwa [Char.ofNat_toNat] at hbyte

-- The agent reads the address a text spells.
theorem parseAddress_text {text : Text} (h : isAddressText text = true) : ∃ v, Native.parseAddress text = .ok v ∧
    BigEndian.value v.val = HexText.read (text.drop 2) := by
  obtain ⟨digits, rfl, hlength, hdigits⟩ := address_digits h
  obtain ⟨bytes, hbytes, hcount, hvalue⟩ := Native.decodePrefixedHex_digits (n := 20) hdigits hlength
  refine ⟨⟨bytes, hcount⟩, ?_, hvalue⟩
  simp only [Native.parseAddress, Native.run_ok, Native.toOctets_ok]
  exact ⟨bytes, hbytes, rfl⟩

-- The call the core encodes is the agent's.
theorem decode_transferDigits {recipient : Text} {r : Native.Octets 20} {a : Native.Uint256}
    (h : isAddressText recipient = true) (hr : BigEndian.value r.val = HexText.read (recipient.drop 2)) :
    Native.decodePrefixedHex ('0' :: 'x' :: transferDigits recipient a.toNat) 68 = .ok (Native.transferCalldata r a) := by
  have hfits : a.toNat < 16 ^ 64 := by
    have hlt := a.toNat_lt
    norm_num at hlt ⊢
    exact hlt
  obtain ⟨digits, rfl, hlength, hdigits⟩ := address_digits h
  have hwidth : (transferDigits ('0' :: 'x' :: digits) a.toNat).length = 68 * 2 := by
    simp only [transferDigits, List.length_append, List.length_replicate, List.length_map, List.drop_succ_cons,
      List.drop_zero, hlength, HexText.length_padded (show 0 < 64 by decide) hfits]
    rfl
  obtain ⟨bytes, hbytes, hcount, hvalue⟩ := Native.decodePrefixedHex_digits (isDigit_transferDigits h) hwidth
  have hcalldata : (Native.transferCalldata r a).length = 68 := by
    simp only [Native.transferCalldata, List.length_append, List.length_replicate, r.property, a.property]
    rfl
  have hselector : HexText.read (selectorDigits ++ List.replicate 24 '0') =
      BigEndian.value (Native.transferSelector ++ List.replicate 12 0) := by decide +kernel
  have hcall : BigEndian.value (Native.transferCalldata r a) =
      (BigEndian.value (Native.transferSelector ++ List.replicate 12 0) * 256 ^ 20 + BigEndian.value r.val) * 256 ^ 32 +
        a.toNat := by
    rw [Native.transferCalldata, BigEndian.value_append (_ ++ r.val) a.val, BigEndian.value_append _ r.val, r.property,
      a.property, Native.Uint256.toNat]
  have htext : HexText.read (transferDigits ('0' :: 'x' :: digits) a.toNat) =
      (HexText.read (selectorDigits ++ List.replicate 24 '0') * 16 ^ 40 + HexText.read digits) * 16 ^ 64 + a.toNat := by
    rw [transferDigits, HexText.read_append, HexText.read_append _ (List.map _ _), HexText.read_padded,
      HexText.length_padded (by decide) hfits, List.length_map, List.drop_succ_cons, List.drop_succ_cons, List.drop_zero,
      hlength, HexText.read_map_toLower hdigits]
  rw [hbytes]
  refine congrArg Except.ok (BigEndian.value_inj (by rw [hcount, hcalldata]) ?_)
  rw [hvalue, htext, hcall, hselector, hr, List.drop_succ_cons, List.drop_succ_cons, List.drop_zero]
  norm_num

theorem isZero_false {n : ℕ} {v : Native.Octets n} : Native.isZero v = false ↔ BigEndian.value v.val ≠ 0 := by
  rw [← Bool.not_eq_true, Native.isZero, List.all_eq_true, ne_eq, Native.value_eq_zero]
  simp only [beq_iff_eq]

theorem getLast_of_isDecimal {text : Text} (h : Money.isDecimal text = true) : text.getLast? ≠ some '.' := by
  obtain ⟨hwhole, hfraction, hwritten⟩ := Money.isDecimal_iff.mp h
  have hdigits : Digits (Money.fraction text) := Money.digits_fraction h
  intro hlast
  by_cases hnil : Money.fraction text = []
  · rw [Money.written, if_pos hnil] at hwritten
    rw [hwritten] at hlast
    exact Money.point_not_digit (digits_of_canonical hwhole) (List.mem_of_getLast? hlast)
  · rw [Money.written, if_neg hnil] at hwritten
    rw [hwritten, List.getLast?_append_of_ne_nil _ (List.cons_ne_nil _ _), List.getLast?_cons_of_ne_nil hnil] at hlast
    exact Money.point_not_digit hdigits (List.mem_of_getLast? hlast)

-- The amount the core shows is the one the agent reads.
theorem amountDecimal_accepted (h : IsPrepared hashing.sha256 nowMs nonce gas fee priority amount o)
    {a : Native.Uint256} (ha : a.toNat = amount) : Native.validateAmountDecimal o.amountDecimal a = .ok () := by
  obtain ⟨text, parsed, hformat, hparse, hatomic⟩ := Money.parse_format 6 (isCanonical_print amount)
  have hidentity := h.identity.1
  rw [h.amountAtomic, hformat, Except.ok.injEq] at hidentity
  obtain ⟨hdecimal, -, -, hparsed⟩ := Money.parseDecimal_ok.mp hparse
  rw [← hidentity, Native.validateAmountDecimal_ok (getLast_of_isDecimal hdecimal), hparse, ha, ← hatomic, hparsed]

-- A prepared fingerprint has the form the agent asks for.
theorem isHash64_prepared (h : IsPrepared hashing.sha256 nowMs nonce gas fee priority amount o) :
    Native.isHash64 o.fingerprint = true := by
  have hlower := Native.isLowerDigit_hexEncode (hashing.sha256 (Native.encodedDocument hashing (documentOf o.toTerms))).val
  rw [← fingerprint_eq h] at hlower
  rw [Native.isHash64, Native.byteLen_hex fun c hc => HexText.isDigit_of_lower (hlower c hc), Bool.and_eq_true,
    beq_iff_eq, List.all_eq_true]
  refine ⟨?_, hlower⟩
  rw [fingerprint_eq h, Native.length_hexEncode, (hashing.sha256 _).property]

theorem saturatingSub_le {a b : ℤ} : Native.maxApprovalWindowSeconds < Native.saturatingSub a b ↔ b + 600 < a := by
  rw [Native.saturatingSub, Native.maxApprovalWindowSeconds]
  omega

-- The agent accepts a prepared transfer exactly when it is acceptable.
theorem validate_prepared (h : IsPrepared hashing.sha256 nowMs nonce gas fee priority amount o) {nowUnix : ℤ} :
    (∃ v, Native.validate hashing (custodyPayload o) nowUnix = .ok v) ↔ Acceptable o nowMs nowUnix := by
  obtain ⟨r, hr, hrValue⟩ := parseAddress_text h.identity.2.2
  obtain ⟨a, ha⟩ := exists_word h.amountRange.2
  have hnonce : (custodyPayload o).transaction.nonceAtomic = print nonce := congrArg Economics.nonceAtomic h.economics
  have hgas : (custodyPayload o).transaction.gasLimitAtomic = print gas := congrArg Economics.gasLimitAtomic h.economics
  have hfee : (custodyPayload o).transaction.maxFeePerGasAtomic = print fee :=
    congrArg Economics.maxFeePerGasAtomic h.economics
  have hpriority : (custodyPayload o).transaction.maxPriorityFeePerGasAtomic = print priority :=
    congrArg Economics.maxPriorityFeePerGasAtomic h.economics
  have hreads : read o.economics.nonceAtomic = nonce ∧ read o.economics.gasLimitAtomic = gas ∧
      read o.economics.maxFeePerGasAtomic = fee := by
    rw [h.economics]
    exact ⟨read_print nonce, read_print gas, read_print fee⟩
  have hexpires : toISOString ((nowMs / 1000 + 600) * 1000) = .ok o.expiresAt := by
    rw [← h.expiresAt, approvalWindowMs]
    congr 1
    ring
  rw [Native.validate_accepts]
  constructor
  · -- Each check that passed is one part of the condition.
    intro hv
    obtain ⟨recipient, -, ⟨hrecipient, hsome⟩, -, -⟩ := hv.transfer
    obtain ⟨word, hword⟩ := hv.nonce
    obtain ⟨g, f, p, ⟨hg, -, hf, -⟩, hgasWord, hfeeWord, -⟩ := hv.fees
    obtain ⟨expires, hparse, hwindow⟩ := hv.window
    have hfingerprint := (canonicalFingerprint_prepared h).mp hv.fingerprint.2
    rw [hnonce, Native.parseDecimal_ok, read_print] at hword
    rw [hgas, parse_print_u64] at hgasWord
    rw [hfee, parse_print_u64] at hfeeWord
    obtain ⟨-, rfl⟩ := (parse_toISOString hexpires).mp hparse
    rw [saturatingSub_le] at hwindow
    have hsame : recipient = r := Except.ok.inj (hrecipient.symm.trans hr)
    rw [hsame, isZero_false, hrValue] at hsome
    exact
      { profile := (validateProfile_ok h.profile).mp hv.profile
        recipient := hsome
        nonce := by rw [hreads.1, hword.2]; exact word.toNat_lt
        gasLimit := by rw [hreads.2.1, ← hgasWord.2]; exact hg
        maxFeePerGas := by rw [hreads.2.2, ← hfeeWord.2]; exact hf
        years := hfingerprint.1.2
        window := by omega }
  · -- Each check passes, the word sizes by the bounds on gas and fee.
    intro hv
    have hg := hv.gasLimit
    have hf := hv.maxFeePerGas
    have hword := hv.nonce
    rw [hreads.2.1] at hg
    rw [hreads.2.2] at hf
    rw [hreads.1] at hword
    obtain ⟨word, hnonceWord⟩ := exists_word hword
    obtain ⟨wallet, hwallet, -⟩ := parseAddress_text h.identity.2.1
    obtain ⟨-, hfeePos, hle⟩ := h.feeRange
    have hproduct : gas * fee ≤ 200000 * 1000000000000 := Nat.mul_le_mul hg.2 hf
    exact
      { profile := (validateProfile_ok h.profile).mpr hv.profile
        operationId := validateOperationId_ok h.operationId
        plainCall := ⟨rfl, rfl, rfl, rfl⟩
        token := Native.parseAddress_baseUsdc
        wallet := ⟨wallet, hwallet⟩
        transfer := by
          refine ⟨r, a, ⟨hr, isZero_false.mpr (by rw [hrValue]; exact hv.recipient)⟩,
            ⟨?_, isZero_false.mpr (by show a.toNat ≠ 0; rw [ha]; exact h.amountRange.1), amountDecimal_accepted h ha⟩, ?_⟩
          · show Native.parseDecimal o.amountAtomic = _
            rw [h.amountAtomic, Native.parseDecimal_ok, read_print, ha]
            exact ⟨isCanonical_print amount, rfl⟩
          · show Native.decodePrefixedHex o.transactionData 68 = _
            rw [h.transactionData, ← ha]
            exact decode_transferDigits h.identity.2.2 hrValue
        nonce := by
          refine ⟨word, ?_⟩
          rw [hnonce, Native.parseDecimal_ok, read_print, hnonceWord]
          exact ⟨isCanonical_print nonce, rfl⟩
        fees := by
          refine ⟨gas, fee, priority, ⟨hg, hfeePos, hf, hle⟩, ?_, ?_, ?_⟩
          · rw [hgas]
            exact parse_print_u64.mpr ⟨by omega, rfl⟩
          · rw [hfee]
            exact parse_print_u64.mpr ⟨by omega, rfl⟩
          · rw [hpriority]
            exact parse_print_u64.mpr ⟨by omega, rfl⟩
        window := by
          have hyears := hv.years
          have hwindow := hv.window
          refine ⟨nowMs / 1000 + 600, (parse_toISOString hexpires).mpr ⟨⟨by omega, hyears.2⟩, rfl⟩, ?_⟩
          rw [saturatingSub_le]
          omega
        fingerprint := ⟨isHash64_prepared h,
          (canonicalFingerprint_prepared h).mpr ⟨⟨⟨by omega, by omega, by omega⟩, hv.years⟩, rfl⟩⟩ }

-- The one amount text the agent takes for an amount, but for a text that ends in its point.
theorem amountDecimal_unique {text expected : Text} {v : Native.Uint256} {n : ℕ}
    (hdecimal : Native.validateAmountDecimal text v = .ok ()) (hend : text.getLast? ≠ some '.') (hn : v.toNat = n)
    (hexpected : Money.formatAtomic (print n) 6 = .ok expected) : text = expected := by
  have hparsed := (Money.parseDecimal_ok).mp ((Native.validateAmountDecimal_ok hend).mp hdecimal)
  obtain ⟨htext, hlength, -, hamount⟩ := hparsed
  have hatomic : print v.toNat = print (Money.amountOf text 6) := (Money.Parsed.mk.inj hamount).1
  rw [← hn, hatomic, Money.formatAtomic_amountOf htext hlength, Except.ok.injEq] at hexpected
  exact hexpected

-- A request the agent accepts under the fingerprint of a prepared transfer is that transfer's request, unless two
-- byte strings have one digest.
theorem validated_request (h : IsPrepared hashing.sha256 nowMs nonce gas fee priority amount o)
    {q : Native.ApproveAndSignPayload} {nowUnix : ℤ} {v : Native.ValidTransfer}
    (hvalid : Native.validate hashing q nowUnix = .ok v) (hfingerprint : q.fingerprint = o.fingerprint)
    (hend : q.approval.amountDecimal.getLast? ≠ some '.') :
    ∃ bytes, Native.fingerprintBytes hashing q = .ok bytes ∧
      hashing.sha256 bytes = hashing.sha256 (Native.encodedDocument hashing (documentOf o.toTerms)) ∧
      (bytes = Native.encodedDocument hashing (documentOf o.toTerms) → q = custodyPayload o) := by
  have haccepted := Native.validate_accepts.mp ⟨v, hvalid⟩
  obtain ⟨hchain, htype, haccess, hvalue⟩ := haccepted.plainCall
  obtain ⟨-, word, -, ⟨hword, -, hdecimal⟩, -⟩ := haccepted.transfer
  have hcanonical := haccepted.fingerprint.2
  simp only [Native.canonicalFingerprint, Native.run_ok, Except.ok.injEq] at hcanonical
  obtain ⟨bytes, hbytes, hhex⟩ := hcanonical
  refine ⟨bytes, hbytes, ?_, ?_⟩
  · rw [hfingerprint, fingerprint_eq h] at hhex
    exact Subtype.ext (Native.hexEncode_inj hhex)
  · rintro rfl
    simp only [Native.fingerprintBytes, Native.run_ok, Except.ok.injEq] at hbytes
    obtain ⟨_, -, _, -, _, -, _, -, cost, -, _, -, _, -, text, -, hencoded⟩ := hbytes
    obtain ⟨⟨hamount, hexpires, hrecipient⟩, hoperation, hprofile, hwallet, hgas, hfee, hpriority, hnonce, hto, hdata⟩ :=
      Native.fields_of_bytes hencoded
    obtain ⟨profile, operationId, fingerprint, walletAddress, chainId, transaction, approval⟩ := q
    obtain ⟨transactionType, toAddress, valueAtomic, data, nonceAtomic, gasLimit, maxFee, maxPriority, accessList⟩ :=
      transaction
    obtain ⟨recipient, amountAtomic, amountDecimal, expiresAt⟩ := approval
    have hamountText : amountAtomic = print amount := by rw [← h.amountAtomic]; exact hamount
    have htext : amountDecimal = o.amountDecimal := by
      have hread := (Native.parseDecimal_ok.mp hword).2
      simp only [hamountText, read_print] at hread
      have hidentity := h.identity.1
      rw [h.amountAtomic] at hidentity
      exact amountDecimal_unique hdecimal hend hread.symm hidentity
    simp only at hchain htype haccess hvalue hfingerprint
    subst hchain htype haccess hvalue hfingerprint htext
    cases hamount
    cases hexpires
    cases hrecipient
    cases hoperation
    cases hprofile
    cases hwallet
    cases hgas
    cases hfee
    cases hpriority
    cases hnonce
    cases hto
    cases hdata
    rfl

end Prepared

/-! ## The writer of `serde_json` -/

def serdeEscape (c : Char) : List Char :=
  if c = '"' then ['\\', '"']
  else if c = '\\' then ['\\', '\\']
  else if c = Char.ofNat 8 then ['\\', 'b']
  else if c = Char.ofNat 9 then ['\\', 't']
  else if c = Char.ofNat 10 then ['\\', 'n']
  else if c = Char.ofNat 12 then ['\\', 'f']
  else if c = Char.ofNat 13 then ['\\', 'r']
  else if c.toNat < 32 then ['\\', 'u', '0', '0', Nat.digitChar (c.toNat / 16), Nat.digitChar (c.toNat % 16)]
  else [c]

theorem serdeEscape_plain {c : Char} (h : isPlain c = true) : serdeEscape c = [c] := by
  rw [isPlain_iff] at h
  have hcontrol : ∀ n < 32, c ≠ Char.ofNat n := by
    rintro n hn rfl
    have hsmall : ∀ k < 32, (Char.ofNat k).toNat = k := by decide
    rw [hsmall n hn] at h
    omega
  unfold serdeEscape
  rw [if_neg h.2.1, if_neg h.2.2, if_neg (hcontrol 8 (by decide)), if_neg (hcontrol 9 (by decide)),
    if_neg (hcontrol 10 (by decide)), if_neg (hcontrol 12 (by decide)), if_neg (hcontrol 13 (by decide)),
    if_neg (by omega)]

theorem chars_encode {c : Char} {s x : JsonText.Text} (hquote : c ≠ '"') (hslash : c ≠ '\\') (hcontrol : 32 ≤ c.toNat)
    (h : Chars s x) : Chars (encodeUtf16 c ++ s) (encodeUtf16 c ++ x) := by
  unfold encodeUtf16
  split
  · rename_i hsmall
    have hval : (unit c).val = c.toNat := Nat.mod_eq_of_lt hsmall
    exact .plain (fun heq => hquote (unit_inj hsmall (by decide) heq))
      (fun heq => hslash (unit_inj hsmall (by decide) heq)) (by omega) h
  · have hranges := char_ranges c
    obtain ⟨hq, hs, hc⟩ := plain_of_ge (c := Fin.ofNat 65536 (0xD800 + (c.toNat - 65536) / 1024)) (by
      rw [show (Fin.ofNat 65536 (0xD800 + (c.toNat - 65536) / 1024)).val = 0xD800 + (c.toNat - 65536) / 1024 from
        Nat.mod_eq_of_lt (by omega)]
      omega)
    obtain ⟨hq', hs', hc'⟩ := plain_of_ge (c := Fin.ofNat 65536 (0xDC00 + (c.toNat - 65536) % 1024)) (by
      rw [show (Fin.ofNat 65536 (0xDC00 + (c.toNat - 65536) % 1024)).val = 0xDC00 + (c.toNat - 65536) % 1024 from
        Nat.mod_eq_of_lt (by omega)]
      omega)
    exact .plain hq hs hc (.plain hq' hs' hc' h)

theorem chars_serdeEscape {c : Char} {s x : JsonText.Text} (h : Chars s x) :
    Chars (utf16 (serdeEscape c) ++ s) (encodeUtf16 c ++ x) := by
  have hcode : ∀ n < 32, fourHex (unit '0') (unit '0') (unit (Nat.digitChar (n / 16))) (unit (Nat.digitChar (n % 16))) =
      some (Fin.ofNat 65536 n) := by decide
  unfold serdeEscape
  split_ifs with hq hs h8 h9 h10 h12 h13 hcontrol
  · rw [hq]
    exact .short (by decide) h
  · rw [hs]
    exact .short (by decide) h
  · rw [h8]
    exact .short (by decide) h
  · rw [h9]
    exact .short (by decide) h
  · rw [h10]
    exact .short (by decide) h
  · rw [h12]
    exact .short (by decide) h
  · rw [h13]
    exact .short (by decide) h
  · have hdigit : ∀ d < 16, encodeUtf16 (Nat.digitChar d) = [unit (Nat.digitChar d)] := by decide
    have hunit : encodeUtf16 c = [Fin.ofNat 65536 c.toNat] := if_pos (by omega)
    rw [hunit]
    simp only [utf16_cons, utf16_nil, hdigit _ (show c.toNat / 16 < 16 by omega), hdigit _ (show c.toNat % 16 < 16 by omega)]
    exact .code (hcode _ hcontrol) h
  · rw [utf16_cons, utf16_nil, List.append_nil]
    exact chars_encode hq hs (by omega) h

/-- Quotes, backslashes and control characters are escaped, and nothing else. -/
def serdeWriter : StringWriter where
  escape text := text.flatMap serdeEscape
  escape_plain text h := by
    induction text with
    | nil => rfl
    | cons c rest ih =>
      obtain ⟨hc, hrest⟩ := List.forall_mem_cons.mp h
      rw [List.flatMap_cons, serdeEscape_plain hc, ih hrest, List.singleton_append]
  chars_escape text := by
    induction text with
    | nil => exact .done
    | cons c rest ih =>
      rw [List.flatMap_cons, utf16_append, utf16_cons]
      exact chars_serdeEscape ih

/-! ## The agreement -/

theorem parseDecimal_decimalString {v : Native.Uint256} :
    Native.parseDecimal text = .ok v ↔ text = Native.decimalString v := by
  rw [Native.parseDecimal_ok, Native.decimalString_eq]
  constructor
  · rintro ⟨hcanonical, hread⟩
    rw [← hread, print_read hcanonical]
  · rintro rfl
    exact ⟨isCanonical_print _, read_print _⟩

-- The texts are the canonical decimal numbers below `2 ^ 256`.
theorem parseDecimal_accepts :
    (∃ v, Native.parseDecimal text = .ok v) ↔ ∃ n < 2 ^ 256, text = print n := by
  constructor
  · rintro ⟨v, hv⟩
    rw [parseDecimal_decimalString, Native.decimalString_eq] at hv
    exact ⟨v.toNat, v.toNat_lt, hv⟩
  · rintro ⟨n, hn, rfl⟩
    obtain ⟨v, hv⟩ := exists_word hn
    exact ⟨v, by rw [parseDecimal_decimalString, Native.decimalString_eq, hv]⟩

theorem native_core_agreement (viem : Viem) (hashing : Native.Hashing) :
    (∀ (text : Text) (a : Native.Uint256), text.getLast? ≠ some '.' →
      (Native.validateAmountDecimal text a = .ok () ↔
        ∃ parsed, Money.parseDecimal text 6 false = .ok parsed ∧ parsed.atomic = print a.toNat)) ∧
    (∀ text, (∃ a, Native.parseDecimal text = .ok a) ↔ ∃ n < 2 ^ 256, text = print n) ∧
    (∀ text a, Native.parseDecimal text = .ok a ↔ text = Native.decimalString a) ∧
    (∀ t, Native.firstSecond ≤ t → t ≤ Native.lastSecond →
      ∃ text, Native.formatRfc3339Utc t = .ok text ∧ Native.parseRfc3339Utc text = .ok t) ∧
    (∀ text t, Native.parseRfc3339Utc text = .ok t → (∃ front, text = front ++ ['.', '0', '0', '0', 'Z']) →
      (Native.firstSecond ≤ t ∧ t ≤ Native.lastSecond) ∧ Native.formatRfc3339Utc t = .ok text) ∧
    ∀ request readings o, prepare viem hashing.sha256 request readings = .ok o →
      (∀ fingerprint, Native.canonicalFingerprint hashing (custodyPayload o) = .ok fingerprint ↔
        Representable (read o.economics.gasLimitAtomic) (read o.economics.maxFeePerGasAtomic) readings.nowMs ∧
          fingerprint = o.fingerprint) ∧
      (∀ nowUnix, (∃ v, Native.validate hashing (custodyPayload o) nowUnix = .ok v) ↔
        Acceptable o readings.nowMs nowUnix) ∧
      o.fingerprint = Native.hexEncode (hashing.sha256 (Native.encodedDocument hashing (documentOf o.toTerms))).val ∧
      ∀ q nowUnix v, Native.validate hashing q nowUnix = .ok v → q.fingerprint = o.fingerprint →
        q.approval.amountDecimal.getLast? ≠ some '.' → ∃ bytes, Native.fingerprintBytes hashing q = .ok bytes ∧
          hashing.sha256 bytes = hashing.sha256 (Native.encodedDocument hashing (documentOf o.toTerms)) ∧
          (bytes = Native.encodedDocument hashing (documentOf o.toTerms) → q = custodyPayload o) := by
  refine ⟨fun text a hend => ?_, fun text => parseDecimal_accepts, fun text a => parseDecimal_decimalString,
    fun t hfirst hlast => ?_, fun text t => Native.format_of_parse, fun request readings o h => ?_⟩
  · rw [Native.validateAmountDecimal_ok hend]
    constructor
    · exact fun h => ⟨_, h, rfl⟩
    · rintro ⟨parsed, h, hatomic⟩
      have hparsed := (Money.parseDecimal_ok.mp h).2.2.2
      rw [h, hparsed]
      rw [hparsed] at hatomic
      rw [← hatomic]
  · exact ⟨_, Native.format_ok hfirst hlast, Native.parse_partsOf hfirst hlast⟩
  · obtain ⟨nonce, gas, fee, priority, amount, hprepared⟩ := prepare_ok h
    have hgas : read o.economics.gasLimitAtomic = gas := by rw [hprepared.economics, read_print]
    have hfee : read o.economics.maxFeePerGasAtomic = fee := by rw [hprepared.economics, read_print]
    rw [hgas, hfee]
    exact ⟨fun fingerprint => canonicalFingerprint_prepared hprepared, fun nowUnix => validate_prepared hprepared,
      fingerprint_eq hprepared, fun q nowUnix v hvalid hfingerprint hend => validated_request hprepared hvalid hfingerprint hend⟩

/-! A transfer of one and a half dollars, and one whose gas cost is `2 ^ 66`. -/

def oneViem : Viem where
  getAddress text := if isAddressText text = true then some text else none
  encodeTransfer recipient amount :=
    if isAddressText recipient = true ∧ amount < 2 ^ 256 then some ('0' :: 'x' :: transferDigits recipient amount)
    else none
  encodeTransfer_data recipient amount data h := by
    split_ifs at h with hencoded
    exact ⟨hencoded.1, hencoded.2, (Option.some.inj h).symm⟩

def oneRequest : PrepareRequest where
  profile := "default".toList
  idempotencyKey := "agreement-1".toList
  recipient := "0x7E5F4552091A69125d5DfCb7b8C2659029395Bdf".toList
  amount := "1.5".toList

def readingsOf (gas fee : String) : Readings where
  walletAddress := "0x2B5AD5c4795c026514f8317c7a215E218DcCD6cF".toList
  balances :=
    { address := "0x2B5AD5c4795c026514f8317c7a215E218DcCD6cF".toList
      ethAtomic := "100000000000000000000".toList
      usdcAtomic := "2000000".toList }
  nonceAtomic := "7".toList
  fees := ⟨gas.toList, fee.toList, "1000000".toList⟩
  nowMs := 1709210096789

def operationDigest : Native.Octets 32 :=
  ⟨[0x09, 0x92, 0x55, 0x28, 0x4a, 0xbb, 0xc6, 0xe3, 0x76, 0xae, 0xc9, 0x6c, 0x60, 0xc5, 0x78, 0xe7, 0x8b, 0x7d, 0x32,
    0x50, 0x83, 0x34, 0x63, 0x21, 0xec, 0x6b, 0x8d, 0x5f, 0x3b, 0xa8, 0xe6, 0x39], rfl⟩

def documentDigest : Native.Octets 32 :=
  ⟨[0xdc, 0x56, 0x3d, 0x43, 0xba, 0x6a, 0x51, 0x73, 0xe4, 0xfc, 0x27, 0x6a, 0xac, 0xf4, 0x1e, 0xc1, 0x68, 0x3d, 0xc4,
    0x7d, 0x52, 0xa6, 0x53, 0xb5, 0x2c, 0x9e, 0xc7, 0x1e, 0xe8, 0x59, 0x0f, 0x26], rfl⟩

/-- SHA-256 on the bytes of the first transfer. -/
def oneHashing : Native.Hashing where
  writer := serdeWriter
  sha256 bytes := if bytes.length < 32 then operationDigest else documentDigest

theorem native_core_agreement_one : ∃ o,
    prepare oneViem oneHashing.sha256 oneRequest (readingsOf "65000" "30000000") = .ok o ∧
    o.fingerprint = "dc563d43ba6a5173e4fc276aacf41ec1683dc47d52a653b52c9ec71ee8590f26".toList ∧
    Native.canonicalFingerprint oneHashing (custodyPayload o) = .ok o.fingerprint ∧
    ∃ v, Native.validate oneHashing (custodyPayload o) 1709210100 = .ok v := by
  have hvalue : (prepare oneViem oneHashing.sha256 oneRequest (readingsOf "65000" "30000000")).map
      (fun o => (o.fingerprint, o.profile, o.recipient, o.economics)) =
      .ok ("dc563d43ba6a5173e4fc276aacf41ec1683dc47d52a653b52c9ec71ee8590f26".toList, oneRequest.profile,
        oneRequest.recipient, ⟨"7".toList, "65000".toList, "30000000".toList, "1000000".toList, "1950000000000".toList⟩) := by
    decide +kernel
  obtain ⟨o, ho, hfields⟩ := CanonicalJson.map_ok.mp hvalue
  simp only [Prod.mk.injEq] at hfields
  obtain ⟨hfingerprint, hprofile, hrecipient, heconomics⟩ := hfields
  have hagree := (native_core_agreement oneViem oneHashing).2.2.2.2.2 oneRequest _ o ho
  refine ⟨o, ho, hfingerprint, ?_, ?_⟩
  · rw [hagree.1, heconomics]
    exact ⟨by decide +kernel, rfl⟩
  · rw [hagree.2.1]
    exact
      { profile := by rw [hprofile]; exact ⟨by decide, by decide, by decide⟩
        recipient := by rw [hrecipient]; decide +kernel
        nonce := by rw [heconomics]; decide +kernel
        gasLimit := by rw [heconomics]; exact ⟨by decide +kernel, by decide +kernel⟩
        maxFeePerGas := by rw [heconomics]; decide +kernel
        years := ⟨by decide, by decide⟩
        window := ⟨by decide, by decide⟩ }

theorem prepared_with {gas fee : String} {cost : Text}
    (hvalue : (prepare oneViem oneHashing.sha256 oneRequest (readingsOf gas fee)).map (fun o => o.economics) =
      .ok ⟨"7".toList, gas.toList, fee.toList, "1000000".toList, cost⟩) :
    ∃ o nonce g f priority amount, prepare oneViem oneHashing.sha256 oneRequest (readingsOf gas fee) = .ok o ∧
      IsPrepared oneHashing.sha256 1709210096789 nonce g f priority amount o ∧
      (print g = gas.toList ∧ print f = fee.toList) ∧ o.economics.gasLimitAtomic = gas.toList := by
  obtain ⟨o, ho, hfields⟩ := CanonicalJson.map_ok.mp hvalue
  obtain ⟨nonce, g, f, priority, amount, hprepared⟩ := prepare_ok ho
  have htexts := hprepared.economics.symm.trans hfields
  rw [Economics.mk.injEq] at htexts
  exact ⟨o, nonce, g, f, priority, amount, ho, hprepared, ⟨htexts.2.1, htexts.2.2.1⟩, by rw [hfields]⟩

/-- The core prepares a transfer whose gas cost is no word of 64 bits, and one of a gas limit over the agent's bound;
the agent refuses both, the second under the same fingerprint, and takes `1.` alone. -/
theorem large_gas_cost_refused :
    (∃ o, prepare oneViem oneHashing.sha256 oneRequest (readingsOf "8589934592" "8589934592") = .ok o ∧
      ∀ fingerprint, Native.canonicalFingerprint oneHashing (custodyPayload o) ≠ .ok fingerprint) ∧
    (∃ o, prepare oneViem oneHashing.sha256 oneRequest (readingsOf "200001" "30000000") = .ok o ∧
      Native.canonicalFingerprint oneHashing (custodyPayload o) = .ok o.fingerprint ∧
      ∀ nowUnix v, Native.validate oneHashing (custodyPayload o) nowUnix ≠ .ok v) ∧
    ∃ a, Native.validateAmountDecimal "1.".toList a = .ok () ∧
      ∀ parsed, Money.parseDecimal "1.".toList 6 false ≠ .ok parsed := by
  refine ⟨?_, ?_, ?_⟩
  · obtain ⟨o, nonce, g, f, priority, amount, ho, hprepared, ⟨hgas, hfee⟩, -⟩ :=
      @prepared_with "8589934592" "8589934592" "73786976294838206464".toList (by decide +kernel)
    refine ⟨o, ho, fun fingerprint h => ?_⟩
    obtain ⟨⟨⟨-, -, hlt⟩, -⟩, -⟩ := (canonicalFingerprint_prepared hprepared).mp h
    rw [← read_print g, ← read_print f, hgas, hfee] at hlt
    exact absurd hlt (by decide +kernel)
  · obtain ⟨o, nonce, g, f, priority, amount, ho, hprepared, ⟨hgas, hfee⟩, hlimit⟩ :=
      @prepared_with "200001" "30000000" "6000030000000".toList (by decide +kernel)
    refine ⟨o, ho, (canonicalFingerprint_prepared hprepared).mpr ⟨?_, rfl⟩, fun nowUnix v h => ?_⟩
    · rw [← read_print g, ← read_print f, hgas, hfee]
      decide +kernel
    · have hbound := ((validate_prepared hprepared).mp ⟨v, h⟩).gasLimit.2
      rw [hlimit] at hbound
      exact absurd hbound (by decide +kernel)
  · obtain ⟨a, ha⟩ := exists_word (n := 1000000) (by norm_num)
    exact ⟨a, Native.trailing_point_accepted a ha⟩

end PaymentNode.Core
