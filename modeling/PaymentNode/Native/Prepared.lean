import PaymentNode.Data.CanonicalJson
import PaymentNode.Native.Fingerprint

/-!
# Prepared — the transfers the core prepares

What `TransferService.prepare` freezes and fingerprints, and the request `directCustodyPayload` makes of it.  Texts
here are characters; `utf16` are the strings they are in the core.
-/

namespace PaymentNode.Core

open CanonicalJson DecimalText JsonText JsonGrammar CivilDate

abbrev Text := List Char

/-- `^0x[0-9a-fA-F]{40}$` -/
def isAddressText : Text → Bool
  | '0' :: 'x' :: digits => digits.length == 40 && digits.all HexText.isDigit
  | _ => false

def selectorDigits : Text := "a9059cbb".toList

/-- The selector of `transfer`, and its two arguments in sixty-four digits each. -/
def transferDigits (recipient : Text) (amount : ℕ) : Text :=
  selectorDigits ++ List.replicate 24 '0' ++ (recipient.drop 2).map Char.toLower ++ HexText.padded 64 amount

/-- The two functions of viem a transfer uses.  It encodes a call for an address and a word of 256 bits only. -/
structure Viem where
  getAddress : Text → Option Text
  encodeTransfer : Text → ℕ → Option Text
  encodeTransfer_data : ∀ recipient amount data, encodeTransfer recipient amount = some data →
    isAddressText recipient = true ∧ amount < 2 ^ 256 ∧ data = '0' :: 'x' :: transferDigits recipient amount

def chainId : ℕ := 8453

def baseUsdc : Text := "0x833589fCD6eDb6E08f4c7C32D4f71b54bdA02913".toList

/-! ## Times -/

/-- The day counted from 1970-01-01, as year, month and day of the month. -/
def dateOf (days : ℤ) : ℤ × ℤ × ℤ :=
  let ofEra := (days + 719468) % 146097
  let year := yearOf ofEra
  let month := monthOf (ofEra - yearStart year)
  (year + (days + 719468) / 146097 * 400 + (if unshiftMonth month ≤ 2 then 1 else 0), unshiftMonth month,
    ofEra - yearStart year - monthStart month + 1)

def numberText (width : ℕ) (n : ℤ) : Text := padStart width (print n.toNat)

/-- Four digits, or a sign and six. -/
def yearText (year : ℤ) : Text :=
  if 0 ≤ year ∧ year ≤ 9999 then numberText 4 year
  else (if year < 0 then '-' else '+') :: numberText 6 |year|

def maximumTimeMs : ℤ := 8640000000000000

/-- `new Date(ms).toISOString()` -/
def toISOString (ms : ℤ) : Result Text :=
  let date := dateOf (ms / 86400000)
  if maximumTimeMs < |ms| then .error ⟨.other, "Invalid time value"⟩
  else .ok (yearText date.1 ++ '-' :: (numberText 2 date.2.1 ++ '-' :: (numberText 2 date.2.2 ++ 'T' ::
    (numberText 2 (ms / 3600000 % 24) ++ ':' :: (numberText 2 (ms / 60000 % 60) ++ ':' ::
      (numberText 2 (ms / 1000 % 60) ++ '.' :: (numberText 3 (ms % 1000) ++ ['Z'])))))))

def approvalWindowMs : ℤ := 600000

/-! ## What is prepared -/

structure FeeEstimate where
  gasLimitAtomic : Text
  maxFeePerGasAtomic : Text
  maxPriorityFeePerGasAtomic : Text

structure Economics where
  nonceAtomic : Text
  gasLimitAtomic : Text
  maxFeePerGasAtomic : Text
  maxPriorityFeePerGasAtomic : Text
  maximumGasCostAtomic : Text
deriving DecidableEq

/-- The part of a balance reading that preparing uses. -/
structure BalanceSnapshot where
  address : Text
  ethAtomic : Text
  usdcAtomic : Text

structure PrepareRequest where
  profile : Text
  idempotencyKey : Text
  recipient : Text
  amount : Text

/-- What preparing reads besides the request: the stored wallet, the balances, the pending nonce, the fees, the time. -/
structure Readings where
  walletAddress : Text
  balances : BalanceSnapshot
  nonceAtomic : Text
  fees : FeeEstimate
  nowMs : ℤ

structure Terms where
  operationId : Text
  profile : Text
  walletAddress : Text
  recipient : Text
  amountAtomic : Text
  amountDecimal : Text
  transactionData : Text
  economics : Economics
  preparedAt : Text
  expiresAt : Text
deriving DecidableEq

structure Operation extends Terms where
  fingerprint : Text
deriving DecidableEq

def isProfileChar (c : Char) : Bool := c.isLower || c.isDigit

/-- `PROFILE`: `^[a-z0-9][a-z0-9._-]{0,63}$` -/
def isProfile : Text → Bool
  | [] => false
  | c :: rest => isProfileChar c && rest.length ≤ 63 &&
      rest.all fun d => isProfileChar d || d == '.' || d == '_' || d == '-'

def canonicalProfile (value : Text) : Result Text :=
  if ¬ isProfile value = true then invalid "Profile must match [a-z0-9][a-z0-9._-]{0,63}." else .ok value

def canonicalAddress (viem : Viem) (value : Text) : Result Text :=
  match viem.getAddress value with
  | some address => .ok address
  | none => invalid "Recipient must be a valid canonical Ethereum address."

def transferData (viem : Viem) (recipient : Text) (atomic : Text) : Result Text := do
  let amount ← Money.parseAtomic atomic false
  match viem.encodeTransfer recipient amount with
  | some data => .ok data
  | none => .error ⟨.other, "The call cannot be encoded."⟩

def multiplyAtomic (a b : Text) : Result Text := do
  let x ← Money.parseAtomic a false
  let y ← Money.parseAtomic b false
  .ok (print (x * y))

def validateEconomics (nonceAtomic : Text) (fees : FeeEstimate) : Result Economics := do
  let nonce ← Money.parseAtomic nonceAtomic false
  let gas ← Money.parseAtomic fees.gasLimitAtomic true
  let maxFee ← Money.parseAtomic fees.maxFeePerGasAtomic true
  let priority ← Money.parseAtomic fees.maxPriorityFeePerGasAtomic false
  let cost ← multiplyAtomic (print gas) (print maxFee)
  if maxFee < priority then .error ⟨.other, "Priority fee exceeds maximum fee."⟩
  else .ok ⟨print nonce, print gas, print maxFee, print priority, cost⟩

def validateBalance (snapshot : BalanceSnapshot) (address : Text) : Result (ℕ × ℕ) := do
  let eth ← Money.parseAtomic snapshot.ethAtomic false
  let usdc ← Money.parseAtomic snapshot.usdcAtomic false
  if snapshot.address.map Char.toLower ≠ address.map Char.toLower then
    .error ⟨.other, "RPC balance response is for a different address."⟩
  else .ok (eth, usdc)

def requireFunding (eth usdc : ℕ) (amountAtomic gasAtomic : Text) : Result Unit := do
  let amount ← Money.parseAtomic amountAtomic false
  let gas ← Money.parseAtomic gasAtomic false
  if usdc < amount then .error ⟨.insufficientAsset, "USDC balance is insufficient for the exact transfer amount."⟩
  else if eth < gas then
    .error ⟨.insufficientGas, "ETH balance is insufficient for the frozen worst-case gas cost."⟩
  else .ok ()

/-- The object `prepare` fingerprints, its members in the order it is written in. -/
def fingerprintRecord (t : Terms) : Datum integers.Num :=
  .record
    [(units "method", .string (units "pay.transfer")),
      (units "operationId", .string (utf16 t.operationId)),
      (units "profile", .string (utf16 t.profile)),
      (units "chainId", .number (false, chainId)),
      (units "token", .string (utf16 baseUsdc)),
      (units "walletAddress", .string (utf16 t.walletAddress)),
      (units "recipient", .string (utf16 t.recipient)),
      (units "amountAtomic", .string (utf16 t.amountAtomic)),
      (units "transactionData", .string (utf16 t.transactionData)),
      (units "economics", .record
        [(units "nonceAtomic", .string (utf16 t.economics.nonceAtomic)),
          (units "gasLimitAtomic", .string (utf16 t.economics.gasLimitAtomic)),
          (units "maxFeePerGasAtomic", .string (utf16 t.economics.maxFeePerGasAtomic)),
          (units "maxPriorityFeePerGasAtomic", .string (utf16 t.economics.maxPriorityFeePerGasAtomic)),
          (units "maximumGasCostAtomic", .string (utf16 t.economics.maximumGasCostAtomic))]),
      (units "preparedAt", .string (utf16 t.preparedAt)),
      (units "expiresAt", .string (utf16 t.expiresAt))]

/-- `sha256(canonicalJson(value))`: the hash is of the UTF-8 of the text. -/
def hashObject (sha256 : BigEndian.Bytes → Native.Octets 32) (value : Datum integers.Num) : Result Text := do
  let text ← canonicalJson value
  .ok (Native.hexEncode (sha256 (Native.utf8 (ofUtf16 text))).val)

/-- `state.operationId` -/
def operationIdOf (sha256 : BigEndian.Bytes → Native.Octets 32) (profile idempotencyKey : Text) : Text :=
  Native.hexEncode (sha256 (Native.utf8
    ("operation".toList ++ Char.ofNat 0 :: (profile ++ Char.ofNat 0 :: idempotencyKey)))).val

/-- The part of `validateOperation` that looks at the frozen terms. -/
def frozenIdentity (t : Terms) : Prop :=
  Money.formatAtomic t.amountAtomic 6 = .ok t.amountDecimal ∧ isAddressText t.walletAddress = true ∧
    isAddressText t.recipient = true

instance (t : Terms) : Decidable (frozenIdentity t) := inferInstanceAs (Decidable (_ ∧ _))

/-- Locks, admission and the owner's policy decide whether anything is prepared, not what is.  The record is read back
through `validateOperation` before it is used. -/
def prepare (viem : Viem) (sha256 : BigEndian.Bytes → Native.Octets 32) (request : PrepareRequest)
    (readings : Readings) : Result Operation := do
  let profile ← canonicalProfile request.profile
  let recipient ← canonicalAddress viem request.recipient
  let amount ← Money.parseDecimal request.amount 6 true
  let data ← transferData viem recipient amount.atomic
  let (eth, usdc) ← validateBalance readings.balances readings.walletAddress
  let economics ← validateEconomics readings.nonceAtomic readings.fees
  requireFunding eth usdc amount.atomic economics.maximumGasCostAtomic
  let preparedAt ← toISOString (readings.nowMs / 1000 * 1000)
  let expiresAt ← toISOString (readings.nowMs / 1000 * 1000 + approvalWindowMs)
  let terms : Terms :=
    { operationId := operationIdOf sha256 profile request.idempotencyKey
      profile, walletAddress := readings.walletAddress, recipient, amountAtomic := amount.atomic
      amountDecimal := amount.decimal, transactionData := data, economics, preparedAt, expiresAt }
  let fingerprint ← hashObject sha256 (fingerprintRecord terms)
  if frozenIdentity terms then .ok { terms with fingerprint }
  else corrupt "Operation frozen transfer identity is invalid."

/-- `directCustodyPayload` -/
def custodyPayload (o : Operation) : Native.ApproveAndSignPayload where
  profile := o.profile
  operationId := o.operationId
  fingerprint := o.fingerprint
  walletAddress := o.walletAddress
  chainId := chainId
  transaction :=
    { transactionType := "eip1559".toList
      toAddress := baseUsdc
      valueAtomic := "0".toList
      data := o.transactionData
      nonceAtomic := o.economics.nonceAtomic
      gasLimitAtomic := o.economics.gasLimitAtomic
      maxFeePerGasAtomic := o.economics.maxFeePerGasAtomic
      maxPriorityFeePerGasAtomic := o.economics.maxPriorityFeePerGasAtomic
      accessList := [] }
  approval :=
    { recipient := o.recipient
      amountAtomic := o.amountAtomic
      amountDecimal := o.amountDecimal
      expiresAt := o.expiresAt }

/-! ## The two documents -/

/-- The document the agent writes for the terms. -/
def documentOf (t : Terms) : Document :=
  Native.canonicalDocument (custodyPayload { t with fingerprint := [] }) t.economics.maximumGasCostAtomic t.preparedAt

theorem toCanonical_terms (t : Terms) : toCanonical (fingerprintRecord t) = .ok (toJson (documentOf t)) := rfl

-- A hash of plain terms is the agent's hash of their document.
theorem hashObject_terms {hashing : Native.Hashing} {t : Terms} (h : IsPlain (documentOf t)) :
    hashObject hashing.sha256 (fingerprintRecord t) =
      .ok (Native.hexEncode (hashing.sha256 (Native.encodedDocument hashing (documentOf t))).val) := by
  have htext : canonicalJson (fingerprintRecord t) = .ok (utf16 (JsonGrammar.write hashing.writer (documentOf t))) := by
    rw [canonicalJson, toCanonical_terms]
    exact congrArg Except.ok (stringify_toJson hashing.writer _ h)
  rw [hashObject, htext, Native.encodedDocument]
  show Except.ok (Native.hexEncode (hashing.sha256 (Native.utf8 (ofUtf16 (utf16 _)))).val) = _
  rw [ofUtf16_utf16]

/-! ## What a prepared transfer holds -/

structure IsPrepared (sha256 : BigEndian.Bytes → Native.Octets 32) (nowMs : ℤ) (nonce gas fee priority amount : ℕ)
    (o : Operation) : Prop where
  profile : isProfile o.profile = true
  operationId : o.operationId.length = 64 ∧ ∀ c ∈ o.operationId, HexText.isLowerDigit c = true
  transactionData : o.transactionData = '0' :: 'x' :: transferDigits o.recipient amount
  amountAtomic : o.amountAtomic = print amount
  amountRange : amount ≠ 0 ∧ amount < 2 ^ 256
  feeRange : gas ≠ 0 ∧ fee ≠ 0 ∧ priority ≤ fee
  economics : o.economics = ⟨print nonce, print gas, print fee, print priority, print (gas * fee)⟩
  preparedAt : toISOString (nowMs / 1000 * 1000) = .ok o.preparedAt
  expiresAt : toISOString (nowMs / 1000 * 1000 + approvalWindowMs) = .ok o.expiresAt
  fingerprint : hashObject sha256 (fingerprintRecord o.toTerms) = .ok o.fingerprint
  identity : frozenIdentity o.toTerms

theorem parseAtomic_positive {value : Text} {n : ℕ} (h : Money.parseAtomic value true = .ok n) : n ≠ 0 := by
  simp only [Money.parseAtomic, invalid_guard, Except.ok.injEq, true_and] at h
  rw [← h.2.2]
  exact h.2.1

theorem validateEconomics_ok {nonceAtomic : Text} {fees : FeeEstimate} {e : Economics}
    (h : validateEconomics nonceAtomic fees = .ok e) : ∃ nonce gas fee priority,
      e = ⟨print nonce, print gas, print fee, print priority, print (gas * fee)⟩ ∧ gas ≠ 0 ∧ fee ≠ 0 ∧ priority ≤ fee := by
  simp only [validateEconomics, multiplyAtomic, Money.parseAtomic_print, bind_ok, Except.ok.injEq] at h
  obtain ⟨nonce, -, gas, hgas, fee, hfee, priority, -, cost, ⟨_, rfl, _, rfl, rfl⟩, h⟩ := h
  split_ifs at h with hpriority
  exact ⟨nonce, gas, fee, priority, (Except.ok.inj h).symm, parseAtomic_positive hgas, parseAtomic_positive hfee,
    not_lt.mp hpriority⟩

theorem transferData_ok {viem : Viem} {recipient data : Text} {amount : ℕ}
    (h : transferData viem recipient (print amount) = .ok data) :
    amount < 2 ^ 256 ∧ data = '0' :: 'x' :: transferDigits recipient amount := by
  rw [transferData, Money.parseAtomic_print] at h
  simp only [bind_ok, Except.ok.injEq] at h
  obtain ⟨_, rfl, h⟩ := h
  split at h
  · rename_i d hd
    rw [← Except.ok.inj h]
    exact (viem.encodeTransfer_data _ _ _ hd).2
  · exact absurd h (by simp)

theorem prepare_ok {viem : Viem} {sha256 : BigEndian.Bytes → Native.Octets 32} {request : PrepareRequest}
    {readings : Readings} {o : Operation} (h : prepare viem sha256 request readings = .ok o) :
    ∃ nonce gas fee priority amount, IsPrepared sha256 readings.nowMs nonce gas fee priority amount o := by
  simp only [prepare, bind_ok] at h
  obtain ⟨profile, hprofile, recipient, -, parsed, hparsed, data, hdata, funds, -, economics, heconomics, _, -, preparedAt,
    hpreparedAt, expiresAt, hexpiresAt, fingerprint, hfingerprint, h⟩ := h
  simp only [canonicalProfile, invalid_guard, not_not, Except.ok.injEq] at hprofile
  obtain ⟨nonce, gas, fee, priority, rfl, hfees⟩ := validateEconomics_ok heconomics
  obtain ⟨-, -, hpositive, hamount⟩ := (Money.parseDecimal_ok).mp hparsed
  rw [hamount] at hdata
  obtain ⟨hword, hencoded⟩ := transferData_ok hdata
  split_ifs at h with hidentity
  · obtain rfl := Except.ok.inj h
    refine ⟨nonce, gas, fee, priority, Money.amountOf request.amount 6, ?_⟩
    exact
      { profile := by rw [← hprofile.2]; exact hprofile.1
        operationId := ⟨by rw [operationIdOf, Native.length_hexEncode, (sha256 _).property], Native.isLowerDigit_hexEncode _⟩
        transactionData := hencoded
        amountAtomic := by rw [hamount]
        amountRange := ⟨hpositive rfl, hword⟩
        feeRange := hfees
        economics := rfl
        preparedAt := hpreparedAt
        expiresAt := hexpiresAt
        fingerprint := hfingerprint
        identity := hidentity }
  · exact absurd h (by simp)

theorem address_digits {text : Text} (h : isAddressText text = true) : ∃ digits, text = '0' :: 'x' :: digits ∧
    digits.length = 40 ∧ ∀ c ∈ digits, HexText.isDigit c = true := by
  unfold isAddressText at h
  split at h
  · rename_i digits
    rw [Bool.and_eq_true, beq_iff_eq, List.all_eq_true] at h
    exact ⟨digits, rfl, h⟩
  · exact absurd h (by simp)

theorem isDigit_transferDigits {recipient : Text} {amount : ℕ} (h : isAddressText recipient = true) :
    ∀ c ∈ transferDigits recipient amount, HexText.isDigit c = true := by
  obtain ⟨digits, rfl, -, hdigits⟩ := address_digits h
  have hselector : ∀ c ∈ selectorDigits, HexText.isDigit c = true := List.all_eq_true.mp (by decide)
  intro c hc
  simp only [transferDigits, List.mem_append] at hc
  rcases hc with ((hc | hc) | hc) | hc
  · exact hselector c hc
  · rw [List.eq_of_mem_replicate hc]
    rfl
  · obtain ⟨d, hd, rfl⟩ := List.mem_map.mp hc
    exact HexText.isDigit_of_lower (HexText.isLowerDigit_toLower (hdigits d hd))
  · exact HexText.isDigit_of_lower (HexText.isLowerDigit_of_mem_padded c hc)

/-! ## Its texts are plain -/

def Plain (text : Text) : Prop := ∀ c ∈ text, isPlain c = true

theorem plain_of_code {c : Char} (h : 32 ≤ c.toNat ∧ c.toNat < 127) (hquote : c.toNat ≠ 34) (hslash : c.toNat ≠ 92) :
    isPlain c = true := by
  rw [isPlain_iff]
  refine ⟨h, ?_, ?_⟩
  · rintro rfl
    exact hquote rfl
  · rintro rfl
    exact hslash rfl

theorem isPlain_of_hex {c : Char} (h : HexText.isDigit c = true) : isPlain c = true := by
  rw [HexText.isDigit_iff, HexText.isLowerDigit_iff] at h
  exact plain_of_code (by omega) (by omega) (by omega)

theorem isPlain_of_digit {c : Char} (h : c.isDigit = true) : isPlain c = true := by
  rw [isDigit_iff] at h
  exact plain_of_code (by omega) (by omega) (by omega)

theorem isPlain_of_profile {c : Char} (h : isProfileChar c = true) : isPlain c = true := by
  unfold isProfileChar at h
  rcases Bool.or_eq_true_iff.mp h with hlower | hdigit
  · simp only [Char.isLower, Bool.and_eq_true, decide_eq_true_eq] at hlower
    have hrange : 97 ≤ c.toNat ∧ c.toNat ≤ 122 := hlower
    exact plain_of_code (by omega) (by omega) (by omega)
  · exact isPlain_of_digit hdigit

variable {text : Text}

theorem plain_cons {c : Char} (hc : isPlain c = true) (h : Plain text) : Plain (c :: text) :=
  List.forall_mem_cons.mpr ⟨hc, h⟩

theorem plain_append {a b : Text} (ha : Plain a) (hb : Plain b) : Plain (a ++ b) := by
  intro c hc
  rcases List.mem_append.mp hc with h | h
  · exact ha c h
  · exact hb c h

theorem plain_digits (h : Digits text) : Plain text := fun c hc => isPlain_of_digit (h c hc)

theorem plain_print (n : ℕ) : Plain (print n) := plain_digits (digits_print n)

theorem plain_numberText (width : ℕ) (n : ℤ) : Plain (numberText width n) :=
  plain_digits (digits_padStart _ (digits_print _))

theorem plain_hexText (h : ∃ digits, text = '0' :: 'x' :: digits ∧ ∀ c ∈ digits, HexText.isDigit c = true) :
    Plain text := by
  obtain ⟨digits, rfl, hdigits⟩ := h
  exact plain_cons (by decide) (plain_cons (by decide) fun c hc => isPlain_of_hex (hdigits c hc))

theorem plain_address (h : isAddressText text = true) : Plain text := by
  obtain ⟨digits, htext, -, hdigits⟩ := address_digits h
  exact plain_hexText ⟨digits, htext, hdigits⟩

theorem plain_profile (h : isProfile text = true) : Plain text := by
  cases text with
  | nil => exact fun _ hc => absurd hc List.not_mem_nil
  | cons c rest =>
    simp only [isProfile, Bool.and_eq_true, List.all_eq_true] at h
    refine plain_cons (isPlain_of_profile h.1.1) fun d hd => ?_
    have hrest := h.2 d hd
    simp only [Bool.or_eq_true, beq_iff_eq] at hrest
    rcases hrest with ((hrest | rfl) | rfl) | rfl
    · exact isPlain_of_profile hrest
    · decide
    · decide
    · decide

theorem plain_yearText (year : ℤ) : Plain (yearText year) := by
  unfold yearText
  split
  · exact plain_numberText 4 year
  · refine plain_cons ?_ (plain_numberText 6 |year|)
    split
    · decide
    · decide

theorem toISOString_ok {ms : ℤ} : toISOString ms = .ok text ↔ |ms| ≤ maximumTimeMs ∧
    text = yearText (dateOf (ms / 86400000)).1 ++ '-' :: (numberText 2 (dateOf (ms / 86400000)).2.1 ++ '-' ::
      (numberText 2 (dateOf (ms / 86400000)).2.2 ++ 'T' :: (numberText 2 (ms / 3600000 % 24) ++ ':' ::
        (numberText 2 (ms / 60000 % 60) ++ ':' :: (numberText 2 (ms / 1000 % 60) ++ '.' ::
          (numberText 3 (ms % 1000) ++ ['Z'])))))) := by
  unfold toISOString
  by_cases h : maximumTimeMs < |ms|
  · rw [if_pos h]
    exact iff_of_false (by simp) fun htext => absurd h (not_lt.mpr htext.1)
  · rw [if_neg h, Except.ok.injEq, eq_comm, and_iff_right (not_lt.mp h)]

theorem plain_toISOString {ms : ℤ} (h : toISOString ms = .ok text) : Plain text := by
  rw [(toISOString_ok.mp h).2]
  refine plain_append (plain_yearText _) (plain_cons (by decide) ?_)
  refine plain_append (plain_numberText _ _) (plain_cons (by decide) ?_)
  refine plain_append (plain_numberText _ _) (plain_cons (by decide) ?_)
  refine plain_append (plain_numberText _ _) (plain_cons (by decide) ?_)
  refine plain_append (plain_numberText _ _) (plain_cons (by decide) ?_)
  refine plain_append (plain_numberText _ _) (plain_cons (by decide) ?_)
  exact plain_append (plain_numberText _ _) (plain_cons (by decide) fun _ hc => absurd hc List.not_mem_nil)

theorem plain_units (h : text.all isPlain = true) : Plain text := List.all_eq_true.mp h

section Prepared

variable {sha256 : BigEndian.Bytes → Native.Octets 32} {nowMs : ℤ} {nonce gas fee priority amount : ℕ} {o : Operation}

theorem IsPrepared.plain (h : IsPrepared sha256 nowMs nonce gas fee priority amount o) : IsPlain (documentOf o.toTerms) := by
  have hname : ∀ name : Text, (name.all isPlain && !isIndex (utf16 name)) = true →
      Plain name ∧ isIndex (utf16 name) = false := by
    intro name hname
    rw [Bool.and_eq_true, Bool.not_eq_true'] at hname
    exact ⟨List.all_eq_true.mp hname.1, hname.2⟩
  have hchainId : IsPlain (.count chainId) := trivial
  have hmethod : Plain "pay.transfer".toList := plain_units (by decide)
  have htoken : Plain baseUsdc := plain_units (by decide +kernel)
  have hamount : Plain o.amountAtomic := by rw [h.amountAtomic]; exact plain_print amount
  have heconomics : Plain o.economics.gasLimitAtomic ∧ Plain o.economics.maxFeePerGasAtomic ∧
      Plain o.economics.maxPriorityFeePerGasAtomic ∧ Plain o.economics.maximumGasCostAtomic ∧
      Plain o.economics.nonceAtomic := by
    rw [h.economics]
    exact ⟨plain_print _, plain_print _, plain_print _, plain_print _, plain_print _⟩
  obtain ⟨hgas, hfee, hpriority, hcost, hnonce⟩ := heconomics
  have hoperation : Plain o.operationId := fun c hc =>
    isPlain_of_hex (HexText.isDigit_of_lower (h.operationId.2 c hc))
  show IsPlainMembers _
  refine ⟨hname _ (by decide +kernel), hamount, hname _ (by decide +kernel), hchainId, hname _ (by decide +kernel),
    ⟨hname _ (by decide +kernel), hgas, hname _ (by decide +kernel), hfee, hname _ (by decide +kernel), hpriority,
      hname _ (by decide +kernel), hcost, hname _ (by decide +kernel), hnonce, trivial⟩, hname _ (by decide +kernel),
    plain_toISOString h.expiresAt, hname _ (by decide +kernel), hmethod, hname _ (by decide +kernel), hoperation,
    hname _ (by decide +kernel), plain_toISOString h.preparedAt, hname _ (by decide +kernel), plain_profile h.profile,
    hname _ (by decide +kernel), plain_address h.identity.2.2, hname _ (by decide +kernel), htoken,
    hname _ (by decide +kernel), plain_hexText ⟨_, h.transactionData, isDigit_transferDigits h.identity.2.2⟩, hname _ (by decide +kernel),
    plain_address h.identity.2.1, trivial⟩

end Prepared

end PaymentNode.Core
