import PaymentNode.Lib.HexText
import PaymentNode.Lib.JsonDocument
import PaymentNode.Native.Amounts

/-!
# Fingerprint — what the native agent checks of a transfer request

`PreparedTransfer::validate` and `canonical_fingerprint`.  `serde_json` writes the members of a map in the order of
their names, the order they are listed in here; its strings are a `StringWriter`, and SHA-256 is a function of its
bytes.
-/

namespace PaymentNode.Native

open BigEndian DecimalText ByteText JsonGrammar

structure Hashing where
  writer : StringWriter
  sha256 : Bytes → Octets 32

/-! ## Requests -/

structure TransactionPayload where
  transactionType : List Char
  /-- `to` -/
  toAddress : List Char
  valueAtomic : List Char
  data : List Char
  nonceAtomic : List Char
  gasLimitAtomic : List Char
  maxFeePerGasAtomic : List Char
  maxPriorityFeePerGasAtomic : List Char
  /-- Its items are not looked at. -/
  accessList : List (List Char)
deriving DecidableEq

structure ApprovalPayload where
  recipient : List Char
  amountAtomic : List Char
  amountDecimal : List Char
  expiresAt : List Char
deriving DecidableEq

structure ApproveAndSignPayload where
  profile : List Char
  operationId : List Char
  fingerprint : List Char
  walletAddress : List Char
  chainId : ℕ
  transaction : TransactionPayload
  approval : ApprovalPayload
deriving DecidableEq

/-- `PreparedTransfer`, its texts included. -/
structure ValidTransfer extends PreparedTransfer where
  profile : List Char
  operationId : List Char
  fingerprint : List Char
  amountAtomic : List Char
  amountDecimal : List Char
  expiresAt : List Char
  expiresAtUnix : ℤ

/-! ## The fingerprint -/

def fitsU64 (v : Uint256) : Option ℕ :=
  if (v.val.take 24).any (· != 0) = true then none else some (value (v.val.drop 24))

def checkedMul (a b : ℕ) : Option ℕ := if a * b < 2 ^ 64 then some (a * b) else none

/-- `checked_sub` of `i64`. -/
def checkedSub (a b : ℤ) : Option ℤ := if -(2 ^ 63) ≤ a - b ∧ a - b < 2 ^ 63 then some (a - b) else none

def saturatingSub (a b : ℤ) : ℤ := max (-(2 ^ 63)) (min (2 ^ 63 - 1) (a - b))

def maxApprovalWindowSeconds : ℤ := 600

/-- `DIGITS[byte >> 4]` and `DIGITS[byte & 0x0f]`. -/
def hexByte (byte : UInt8) : List Char := [Nat.digitChar (byte.toNat / 16), Nat.digitChar (byte.toNat % 16)]

def hexEncode (bytes : Bytes) : List Char := bytes.flatMap hexByte

def isHash64 (value : List Char) : Bool :=
  byteLen value == 64 && value.all fun c => c.isDigit || ('a' ≤ c && c ≤ 'f')

def canonicalDocument (payload : ApproveAndSignPayload) (maximumGasCost preparedAt : List Char) : Document :=
  .object
    [("amountAtomic".toList, .text payload.approval.amountAtomic),
      ("chainId".toList, .count payload.chainId),
      ("economics".toList, .object
        [("gasLimitAtomic".toList, .text payload.transaction.gasLimitAtomic),
          ("maxFeePerGasAtomic".toList, .text payload.transaction.maxFeePerGasAtomic),
          ("maxPriorityFeePerGasAtomic".toList, .text payload.transaction.maxPriorityFeePerGasAtomic),
          ("maximumGasCostAtomic".toList, .text maximumGasCost),
          ("nonceAtomic".toList, .text payload.transaction.nonceAtomic)]),
      ("expiresAt".toList, .text payload.approval.expiresAt),
      ("method".toList, .text "pay.transfer".toList),
      ("operationId".toList, .text payload.operationId),
      ("preparedAt".toList, .text preparedAt),
      ("profile".toList, .text payload.profile),
      ("recipient".toList, .text payload.approval.recipient),
      ("token".toList, .text payload.transaction.toAddress),
      ("transactionData".toList, .text payload.transaction.data),
      ("walletAddress".toList, .text payload.walletAddress)]

/-- `serde_json::to_vec(&canonical)` -/
def encodedDocument (hashing : Hashing) (document : Document) : Bytes := utf8 (JsonGrammar.write hashing.writer document)

/-- The bytes `canonical_fingerprint` hashes. -/
def fingerprintBytes (hashing : Hashing) (payload : ApproveAndSignPayload) : Rust Bytes := do
  let gasWord ← parseDecimal payload.transaction.gasLimitAtomic
  let gasLimit ← okOr (fitsU64 gasWord) .invalidTransaction
  let feeWord ← parseDecimal payload.transaction.maxFeePerGasAtomic
  let maxFee ← okOr (fitsU64 feeWord) .invalidTransaction
  let maximumGasCost ← okOr (checkedMul gasLimit maxFee) .invalidTransaction
  let expiresAt ← parseRfc3339Utc payload.approval.expiresAt
  let preparedUnix ← okOr (checkedSub expiresAt maxApprovalWindowSeconds) .invalidFingerprint
  let preparedAt ← formatRfc3339Utc preparedUnix
  .ok (encodedDocument hashing (canonicalDocument payload (print maximumGasCost) preparedAt))

def canonicalFingerprint (hashing : Hashing) (payload : ApproveAndSignPayload) : Rust (List Char) := do
  let encoded ← fingerprintBytes hashing payload
  .ok (hexEncode (hashing.sha256 encoded).val)

/-! ## The request -/

def isProfileByte (c : Char) : Bool := c.isLower || c.isDigit || c == '_' || c == '-'

def validateProfile (profile : List Char) : Rust Unit :=
  ensure ((1 ≤ byteLen profile ∧ byteLen profile ≤ 32) ∧ profile.head?.any Char.isLower = true ∧
    profile.all isProfileByte = true) .invalidProfile

def isOperationByte (c : Char) : Bool := c.isAlphanum || c == '-' || c == '_' || c == '.' || c == ':'

def validateOperationId (value : List Char) : Rust Unit :=
  ensure ((1 ≤ byteLen value ∧ byteLen value ≤ 96) ∧ value.all isOperationByte = true) .invalidOperationId

def isZero {n : ℕ} (v : Octets n) : Bool := v.val.all (· == 0)

/-- The gas limit, the fee and the priority fee within the agent's bounds. -/
def withinBounds (gas fee priority : ℕ) : Prop :=
  (21000 ≤ gas ∧ gas ≤ 200000) ∧ fee ≠ 0 ∧ fee ≤ 1000000000000 ∧ priority ≤ fee

instance (gas fee priority : ℕ) : Decidable (withinBounds gas fee priority) := inferInstanceAs (Decidable (_ ∧ _))

/-- The transaction is an EIP-1559 call on the agent's chain, without value or access list. -/
def isPlainCall (payload : ApproveAndSignPayload) : Prop :=
  payload.chainId = chainId ∧ payload.transaction.transactionType = "eip1559".toList ∧
    payload.transaction.accessList = [] ∧ payload.transaction.valueAtomic = "0".toList

instance (payload : ApproveAndSignPayload) : Decidable (isPlainCall payload) := inferInstanceAs (Decidable (_ ∧ _))

def validate (hashing : Hashing) (payload : ApproveAndSignPayload) (nowUnix : ℤ) : Rust ValidTransfer := do
  validateProfile payload.profile
  validateOperationId payload.operationId
  ensure (isPlainCall payload) .invalidTransaction
  let token ← parseAddress payload.transaction.toAddress
  let expectedToken ← parseAddress baseUsdc
  ensure (token = expectedToken) .invalidTransaction
  let walletAddress ← parseAddress payload.walletAddress
  let recipient ← parseAddress payload.approval.recipient
  ensure (isZero recipient = false) .invalidTransaction
  let amount ← parseDecimal payload.approval.amountAtomic
  ensure (isZero amount = false) .invalidTransaction
  validateAmountDecimal payload.approval.amountDecimal amount
  let nonce ← parseDecimal payload.transaction.nonceAtomic
  let gasLimit ← parseDecimal payload.transaction.gasLimitAtomic
  let maxFeePerGas ← parseDecimal payload.transaction.maxFeePerGasAtomic
  let maxPriorityFeePerGas ← parseDecimal payload.transaction.maxPriorityFeePerGasAtomic
  let gas ← okOr (fitsU64 gasLimit) .invalidTransaction
  let fee ← okOr (fitsU64 maxFeePerGas) .invalidTransaction
  let priority ← okOr (fitsU64 maxPriorityFeePerGas) .invalidTransaction
  ensure (withinBounds gas fee priority) .invalidTransaction
  let data ← decodePrefixedHex payload.transaction.data 68
  ensure (data = transferCalldata recipient amount) .invalidTransaction
  let expiresAtUnix ← parseRfc3339Utc payload.approval.expiresAt
  ensure (¬ (expiresAtUnix ≤ nowUnix ∨ maxApprovalWindowSeconds < saturatingSub expiresAtUnix nowUnix)) .expired
  let expected ← canonicalFingerprint hashing payload
  ensure (isHash64 payload.fingerprint = true ∧ payload.fingerprint = expected) .invalidFingerprint
  .ok
    { recipient, amount, nonce, gasLimit, maxFeePerGas, maxPriorityFeePerGas, walletAddress
      calldata := transferCalldata recipient amount
      isTransfer := rfl
      profile := payload.profile
      operationId := payload.operationId
      fingerprint := payload.fingerprint
      amountAtomic := payload.approval.amountAtomic
      amountDecimal := payload.approval.amountDecimal
      expiresAt := payload.approval.expiresAt
      expiresAtUnix }

/-! ## Words of 64 bits -/

theorem okOr_ok {α : Type} {x : Option α} {code : ErrorCode} {a : α} : okOr x code = .ok a ↔ x = some a := by
  cases x with
  | none => simp [okOr]
  | some b => simp [okOr]

theorem value_eq_zero {bytes : Bytes} : value bytes = 0 ↔ ∀ b ∈ bytes, b = 0 := by
  induction bytes with
  | nil => exact iff_of_true rfl fun _ h => absurd h List.not_mem_nil
  | cons b rest ih =>
    have hpow : 256 ^ rest.length ≠ 0 := pow_ne_zero _ (by decide)
    rw [value_cons, Nat.add_eq_zero_iff, mul_eq_zero, ih, List.forall_mem_cons, or_iff_left hpow]
    exact and_congr_left' ⟨fun h => UInt8.toNat_inj.mp h, fun h => by rw [h]; rfl⟩

theorem value_of_any {bytes : Bytes} : bytes.any (· != 0) = true ↔ value bytes ≠ 0 := by
  rw [List.any_eq_true, ne_eq, value_eq_zero]
  constructor
  · rintro ⟨b, hb, hne⟩ hzero
    rw [hzero b hb] at hne
    exact absurd hne (by decide)
  · intro h
    by_contra hnone
    exact h fun b hb => by
      by_contra hne
      exact hnone ⟨b, hb, bne_iff_ne.mpr hne⟩

-- A word fits when its number does.
theorem fitsU64_some {v : Uint256} {n : ℕ} : fitsU64 v = some n ↔ v.toNat < 2 ^ 64 ∧ n = v.toNat := by
  have hsplit : v.toNat = value (v.val.take 24) * 256 ^ 8 + value (v.val.drop 24) := by
    have hlength : (v.val.drop 24).length = 8 := by rw [List.length_drop, v.property]
    rw [Uint256.toNat, ← hlength, ← value_append, List.take_append_drop]
  have hlow : value (v.val.drop 24) < 256 ^ 8 := by
    have hlt := value_lt (v.val.drop 24)
    rwa [List.length_drop, v.property] at hlt
  unfold fitsU64
  by_cases h : (v.val.take 24).any (· != 0) = true
  · rw [if_pos h]
    rw [value_of_any] at h
    refine iff_of_false (by simp) fun hn => ?_
    omega
  · rw [if_neg h, Option.some.injEq]
    rw [value_of_any, not_not] at h
    rw [h] at hsplit
    omega

theorem checkedMul_some {a b n : ℕ} : checkedMul a b = some n ↔ a * b < 2 ^ 64 ∧ n = a * b := by
  unfold checkedMul
  split
  · rename_i h
    rw [Option.some.injEq, eq_comm]
    exact ⟨fun hn => ⟨h, hn⟩, fun hn => hn.2⟩
  · rename_i h
    exact iff_of_false (by simp) fun hn => h hn.1

theorem checkedSub_some {a b n : ℤ} : checkedSub a b = some n ↔ (-(2 ^ 63) ≤ a - b ∧ a - b < 2 ^ 63) ∧ n = a - b := by
  unfold checkedSub
  split
  · rename_i h
    rw [Option.some.injEq, eq_comm]
    exact ⟨fun hn => ⟨h, hn⟩, fun hn => hn.2⟩
  · rename_i h
    exact iff_of_false (by simp) fun hn => h hn.1

/-! ## Hexadecimal texts -/

theorem hexByte_facts (byte : UInt8) : ∀ c ∈ hexByte byte, HexText.isLowerDigit c = true := by
  have hdigit : ∀ d < 16, HexText.isLowerDigit (Nat.digitChar d) = true := by decide
  have hbyte := byte.toNat_lt
  intro c hc
  simp only [hexByte, List.mem_cons, List.not_mem_nil, or_false] at hc
  rcases hc with rfl | rfl
  · exact hdigit _ (by omega)
  · exact hdigit _ (by omega)

theorem isLowerDigit_hexEncode (bytes : Bytes) : ∀ c ∈ hexEncode bytes, HexText.isLowerDigit c = true := by
  intro c hc
  obtain ⟨byte, _, hc⟩ := List.mem_flatMap.mp hc
  exact hexByte_facts byte c hc

theorem hexByte_inj {a b : UInt8} (h : hexByte a = hexByte b) : a = b := by
  have hdigit : ∀ d < 16, HexText.value (Nat.digitChar d) = d := by decide
  have ha := a.toNat_lt
  have hb := b.toNat_lt
  simp only [hexByte, List.cons.injEq, and_true] at h
  have hhigh := congrArg HexText.value h.1
  have hlow := congrArg HexText.value h.2
  rw [hdigit _ (by omega), hdigit _ (by omega)] at hhigh hlow
  exact UInt8.toNat_inj.mp (by omega)

theorem hexEncode_inj {a b : Bytes} (h : hexEncode a = hexEncode b) : a = b := by
  induction a generalizing b with
  | nil =>
    cases b with
    | nil => rfl
    | cons _ _ => exact absurd (congrArg List.length h) (by simp [hexEncode, hexByte])
  | cons x xs ih =>
    cases b with
    | nil => exact absurd (congrArg List.length h) (by simp [hexEncode, hexByte])
    | cons y ys =>
      rw [hexEncode, hexEncode, List.flatMap_cons, List.flatMap_cons] at h
      obtain ⟨hhead, htail⟩ := List.append_inj h rfl
      rw [hexByte_inj hhead, ih htail]

theorem length_hexEncode (bytes : Bytes) : (hexEncode bytes).length = 2 * bytes.length := by
  induction bytes with
  | nil => rfl
  | cons b rest ih =>
    rw [hexEncode, List.flatMap_cons, ← hexEncode, List.length_append, ih, List.length_cons]
    show 2 + 2 * rest.length = _
    ring

theorem utf8_cons (c : Char) (text : List Char) : utf8 (c :: text) = String.utf8EncodeChar c ++ utf8 text :=
  List.flatMap_cons

theorem length_utf8 (text : List Char) : (utf8 text).length = byteLen text := by
  induction text with
  | nil => rfl
  | cons c rest ih => rw [utf8_cons, List.length_append, String.length_utf8EncodeChar, ih, ByteText.byteLen_cons]

-- A digit is one byte, and the agent reads its value.
theorem hexNibble_digit {c : Char} (h : HexText.isDigit c = true) : ∃ byte, String.utf8EncodeChar c = [byte] ∧
    hexNibble byte = .ok (UInt8.ofNat (HexText.value c)) ∧ HexText.value c < 16 := by
  have hall : ∀ n < 103, HexText.isDigit (Char.ofNat n) = true →
      String.utf8EncodeChar (Char.ofNat n) = [UInt8.ofNat n] ∧
        hexNibble (UInt8.ofNat n) = .ok (UInt8.ofNat (HexText.value (Char.ofNat n))) ∧
          HexText.value (Char.ofNat n) < 16 := by decide +kernel
  have hrange := h
  rw [HexText.isDigit_iff, HexText.isLowerDigit_iff] at hrange
  have hc := hall c.toNat (by omega)
  rw [Char.ofNat_toNat] at hc
  exact ⟨_, hc h⟩

theorem nibbles {x y : ℕ} (hx : x < 16) (hy : y < 16) : (UInt8.ofNat x <<< 4 ||| UInt8.ofNat y).toNat = x * 16 + y := by
  have hall : ∀ x < 16, ∀ y < 16, (UInt8.ofNat x <<< 4 ||| UInt8.ofNat y).toNat = x * 16 + y := by decide +kernel
  exact hall x hx y hy

theorem byteLen_hex {digits : List Char} (h : ∀ c ∈ digits, HexText.isDigit c = true) : byteLen digits = digits.length :=
  ByteText.byteLen_ascii fun c hc => by
    have hrange := h c hc
    rw [HexText.isDigit_iff, HexText.isLowerDigit_iff] at hrange
    omega

-- Digits are read as the bytes of their number.
theorem hexPairs_digits {n : ℕ} {digits : List Char} (h : ∀ c ∈ digits, HexText.isDigit c = true)
    (hlength : digits.length = n * 2) : ∃ bytes, hexPairs (utf8 digits) = .ok bytes ∧ bytes.length = n ∧
      value bytes = HexText.read digits := by
  induction n generalizing digits with
  | zero =>
    obtain rfl := List.eq_nil_of_length_eq_zero hlength
    exact ⟨[], rfl, rfl, rfl⟩
  | succ n ih =>
    rcases digits with _ | ⟨c, _ | ⟨d, rest⟩⟩
    · rw [List.length_nil] at hlength
      omega
    · rw [List.length_singleton] at hlength
      omega
    · simp only [List.forall_mem_cons] at h
      obtain ⟨hc, hd, hrest⟩ := h
      rw [List.length_cons, List.length_cons] at hlength
      have hpairs : rest.length = n * 2 := by omega
      obtain ⟨bytes, hbytes, hcount, hvalue⟩ := ih hrest hpairs
      obtain ⟨high, hhigh, hfirst, hx⟩ := hexNibble_digit hc
      obtain ⟨low, hlow, hsecond, hy⟩ := hexNibble_digit hd
      refine ⟨(UInt8.ofNat (HexText.value c) <<< 4 ||| UInt8.ofNat (HexText.value d)) :: bytes, ?_,
        by rw [List.length_cons, hcount], ?_⟩
      · rw [utf8_cons, utf8_cons, hhigh, hlow, List.singleton_append, List.singleton_append, hexPairs, hfirst, ok_run,
          hsecond, ok_run, hbytes, ok_run]
      · rw [value_cons, nibbles hx hy, hvalue, hcount, HexText.read_cons, HexText.read_cons, List.length_cons, hpairs,
          pow_succ, Nat.mul_comm n 2, pow_mul]
        ring

-- What a marked text of digits is read as.
theorem decodePrefixedHex_digits {n : ℕ} {digits : List Char} (h : ∀ c ∈ digits, HexText.isDigit c = true)
    (hlength : digits.length = n * 2) : ∃ bytes, decodePrefixedHex ('0' :: 'x' :: digits) n = .ok bytes ∧
      bytes.length = n ∧ value bytes = HexText.read digits := by
  obtain ⟨bytes, hbytes, hcount, hvalue⟩ := hexPairs_digits h hlength
  have hmark : utf8 ('0' :: 'x' :: digits) = 48 :: 120 :: utf8 digits := rfl
  refine ⟨bytes, ?_, hcount, hvalue⟩
  rw [decodePrefixedHex, ensure_run, if_pos]
  · exact hbytes
  · refine ⟨?_, rfl⟩
    rw [hmark, List.length_cons, List.length_cons, length_utf8, byteLen_hex h, hlength]
    omega

-- UTF-8 tells texts apart.
theorem utf8_inj {a b : List Char} (h : utf8 a = utf8 b) : a = b := by
  have hencode : ∀ text : List Char, text.utf8Encode = (utf8 text).toByteArray := fun _ => rfl
  have hdecode := List.utf8Decode?_utf8Encode (l := a)
  rw [hencode, h, ← hencode, List.utf8Decode?_utf8Encode] at hdecode
  simpa using hdecode.symm

/-! ## What a validated request says -/

variable {hashing : Hashing}

/-- What the agent asks of a request at the second `nowUnix`. -/
structure Accepted (hashing : Hashing) (payload : ApproveAndSignPayload) (nowUnix : ℤ) : Prop where
  profile : validateProfile payload.profile = .ok ()
  operationId : validateOperationId payload.operationId = .ok ()
  plainCall : isPlainCall payload
  token : parseAddress payload.transaction.toAddress = .ok baseUsdcAddress
  wallet : ∃ wallet, parseAddress payload.walletAddress = .ok wallet
  transfer : ∃ recipient amount, (parseAddress payload.approval.recipient = .ok recipient ∧ isZero recipient = false) ∧
    (parseDecimal payload.approval.amountAtomic = .ok amount ∧ isZero amount = false ∧
      validateAmountDecimal payload.approval.amountDecimal amount = .ok ()) ∧
    decodePrefixedHex payload.transaction.data 68 = .ok (transferCalldata recipient amount)
  nonce : ∃ nonce, parseDecimal payload.transaction.nonceAtomic = .ok nonce
  fees : ∃ gas fee priority, withinBounds gas fee priority ∧
    (∃ word, parseDecimal payload.transaction.gasLimitAtomic = .ok word ∧ fitsU64 word = some gas) ∧
    (∃ word, parseDecimal payload.transaction.maxFeePerGasAtomic = .ok word ∧ fitsU64 word = some fee) ∧
    ∃ word, parseDecimal payload.transaction.maxPriorityFeePerGasAtomic = .ok word ∧ fitsU64 word = some priority
  window : ∃ expires, parseRfc3339Utc payload.approval.expiresAt = .ok expires ∧
    ¬ (expires ≤ nowUnix ∨ maxApprovalWindowSeconds < saturatingSub expires nowUnix)
  fingerprint : isHash64 payload.fingerprint = true ∧ canonicalFingerprint hashing payload = .ok payload.fingerprint

theorem validate_accepts {payload : ApproveAndSignPayload} {nowUnix : ℤ} :
    (∃ v, validate hashing payload nowUnix = .ok v) ↔ Accepted hashing payload nowUnix := by
  simp only [validate, run_ok, ensure_ok, exists_const, okOr_ok]
  constructor
  · rintro ⟨v, _, hprofile, _, hoperation, hcall, token, htoken, _, hexpected, rfl, wallet, hwallet, recipient, hrecipient,
      hsome, amount, hamount, hpositive, _, hdecimal, nonce, hnonce, gasWord, hgasWord, feeWord, hfeeWord, priorityWord,
      hpriorityWord, gas, hgas, fee, hfee, priority, hpriority, hbounds, _, hdata, rfl, expires, hexpires, hwindow, _,
      hcanonical, ⟨hhash, rfl⟩, -⟩
    rw [parseAddress_baseUsdc, Except.ok.injEq] at hexpected
    exact ⟨hprofile, hoperation, hcall, hexpected ▸ htoken, ⟨wallet, hwallet⟩,
      ⟨recipient, amount, ⟨hrecipient, hsome⟩, ⟨hamount, hpositive, hdecimal⟩, hdata⟩, ⟨nonce, hnonce⟩,
      ⟨gas, fee, priority, hbounds, ⟨gasWord, hgasWord, hgas⟩, ⟨feeWord, hfeeWord, hfee⟩,
        ⟨priorityWord, hpriorityWord, hpriority⟩⟩, ⟨expires, hexpires, hwindow⟩, hhash, hcanonical⟩
  · rintro ⟨hprofile, hoperation, hcall, htoken, ⟨wallet, hwallet⟩,
      ⟨recipient, amount, ⟨hrecipient, hsome⟩, ⟨hamount, hpositive, hdecimal⟩, hdata⟩, ⟨nonce, hnonce⟩,
      ⟨gas, fee, priority, hbounds, ⟨gasWord, hgasWord, hgas⟩, ⟨feeWord, hfeeWord, hfee⟩,
        ⟨priorityWord, hpriorityWord, hpriority⟩⟩, ⟨expires, hexpires, hwindow⟩, hhash, hcanonical⟩
    exact ⟨_, (), hprofile, (), hoperation, hcall, _, htoken, _, parseAddress_baseUsdc, rfl, wallet, hwallet, recipient,
      hrecipient, hsome, amount, hamount, hpositive, (), hdecimal, nonce, hnonce, gasWord, hgasWord, feeWord, hfeeWord,
      priorityWord, hpriorityWord, gas, hgas, fee, hfee, priority, hpriority, hbounds, _, hdata, rfl, expires, hexpires,
      hwindow, _, hcanonical, ⟨hhash, rfl⟩, rfl⟩

-- The bytes determine the fields they are made of.
theorem fields_of_bytes {p q : ApproveAndSignPayload} {cost cost' text text' : List Char}
    (h : encodedDocument hashing (canonicalDocument p cost text) = encodedDocument hashing (canonicalDocument q cost' text')) :
    (p.approval.amountAtomic = q.approval.amountAtomic ∧ p.approval.expiresAt = q.approval.expiresAt ∧
      p.approval.recipient = q.approval.recipient) ∧ p.operationId = q.operationId ∧ p.profile = q.profile ∧
      p.walletAddress = q.walletAddress ∧ p.transaction.gasLimitAtomic = q.transaction.gasLimitAtomic ∧
      p.transaction.maxFeePerGasAtomic = q.transaction.maxFeePerGasAtomic ∧
      p.transaction.maxPriorityFeePerGasAtomic = q.transaction.maxPriorityFeePerGasAtomic ∧
      p.transaction.nonceAtomic = q.transaction.nonceAtomic ∧ p.transaction.toAddress = q.transaction.toAddress ∧
      p.transaction.data = q.transaction.data := by
  have hjson := toJson_of_write hashing.writer (utf8_inj h)
  simp only [canonicalDocument, toJson, toJsonMembers, Json.object.injEq, List.cons.injEq, Prod.mk.injEq,
    Json.string.injEq, true_and, and_true] at hjson
  obtain ⟨hamount, -, ⟨hgas, hfee, hpriority, -, hnonce⟩, hexpires, hoperation, -, hprofile, hrecipient, hto, hdata,
    hwallet⟩ := hjson
  exact ⟨⟨JsonText.utf16_inj hamount, JsonText.utf16_inj hexpires, JsonText.utf16_inj hrecipient⟩,
    JsonText.utf16_inj hoperation, JsonText.utf16_inj hprofile, JsonText.utf16_inj hwallet, JsonText.utf16_inj hgas,
    JsonText.utf16_inj hfee, JsonText.utf16_inj hpriority, JsonText.utf16_inj hnonce, JsonText.utf16_inj hto,
    JsonText.utf16_inj hdata⟩

end PaymentNode.Native
