import PaymentNode.Native.Codec

/-!
# Transaction — signing a transfer and inspecting its bytes

The EIP-1559 envelope is twelve fields, named here by `Payloads`.  Keccak and the elliptic curve are parameters; the
inspector recovers the signer from the nine unsigned fields as they stand in the bytes it was given.
-/

namespace PaymentNode.Native

open BigEndian

/-- `[u8; n]` -/
abbrev Octets (n : ℕ) := { bytes : Bytes // bytes.length = n }

abbrev Uint256 := Octets 32

def padded (width : ℕ) (bytes : Bytes) (h : bytes.length ≤ width) : Octets width := ⟨pad width bytes, length_pad h⟩

def significantBytes (value : Uint256) : Bytes := strip value.val

def Uint256.fromU64 (value : ℕ) : Uint256 := padded 32 (fixed 8 value) (by rw [length_fixed]; decide)

def rlpBytes (bytes : Bytes) : Bytes := Rlp.encodeString bytes

def rlpList (items : List Bytes) : Bytes := Rlp.encodeList items.flatten

def rlpUint (value : Uint256) : Bytes := rlpBytes (significantBytes value)

def rlpU64 (value : ℕ) : Bytes := rlpUint (Uint256.fromU64 value)

/-- The shifted word has a clear low byte, so the source's `|` adds. -/
def decodeSmallUint (bytes : Bytes) : Rust ℕ :=
  if 8 < bytes.length ∨ (1 < bytes.length ∧ bytes.head? = some 0) then refuse .invalidTransaction
  else .ok (bytes.foldl (fun output byte => output * 256 % usizeBound + byte.toNat) 0)

def uintFromRlp (bytes : Bytes) : Rust Uint256 :=
  if h : bytes.length ≤ 32 ∧ ¬ (1 < bytes.length ∧ bytes.head? = some 0) then .ok (padded 32 bytes h.1)
  else refuse .invalidTransaction

/-! ## Addresses -/

def hexNibble (byte : UInt8) : Rust UInt8 :=
  if 48 ≤ byte ∧ byte ≤ 57 then .ok (byte - 48)
  else if 97 ≤ byte ∧ byte ≤ 102 then .ok (byte - 97 + 10)
  else if 65 ≤ byte ∧ byte ≤ 70 then .ok (byte - 65 + 10)
  else refuse .invalidTransaction

def hexPairs : Bytes → Rust Bytes
  | high :: low :: rest => do
    let first ← hexNibble high
    let second ← hexNibble low
    let bytes ← hexPairs rest
    .ok ((first <<< 4 ||| second) :: bytes)
  | _ => .ok []

def utf8 (value : List Char) : Bytes := value.flatMap String.utf8EncodeChar

def decodePrefixedHex (value : List Char) (exactBytes : ℕ) : Rust Bytes := do
  ensure ((utf8 value).length = 2 + exactBytes * 2 ∧ ['0', 'x'].isPrefixOf value = true) .invalidTransaction
  hexPairs ((utf8 value).drop 2)

def toOctets (n : ℕ) (bytes : Bytes) (code : ErrorCode) : Rust (Octets n) :=
  if h : bytes.length = n then .ok ⟨bytes, h⟩ else refuse code

def parseAddress (value : List Char) : Rust (Octets 20) := do
  let bytes ← decodePrefixedHex value 20
  toOctets 20 bytes .invalidTransaction

/-! ## Transfers -/

def chainId : ℕ := 8453

def baseUsdc : List Char := "0x833589fCD6eDb6E08f4c7C32D4f71b54bdA02913".toList

def transferSelector : Bytes := [0xa9, 0x05, 0x9c, 0xbb]

def halfCurveOrder : Bytes :=
  [0x7f, 0xff, 0xff, 0xff, 0xff, 0xff, 0xff, 0xff, 0xff, 0xff, 0xff, 0xff, 0xff, 0xff, 0xff, 0xff,
   0x5d, 0x57, 0x6e, 0x73, 0x57, 0xa4, 0x50, 0x1d, 0xdf, 0xe9, 0x2f, 0x46, 0x68, 0x1b, 0x20, 0xa0]

def transferCalldata (recipient : Octets 20) (amount : Uint256) : Bytes :=
  transferSelector ++ List.replicate 12 0 ++ recipient.val ++ amount.val

/-- What a transfer says, apart from who signs it. -/
structure TransferFields where
  recipient : Octets 20
  amount : Uint256
  nonce : Uint256
  gasLimit : Uint256
  maxFeePerGas : Uint256
  maxPriorityFeePerGas : Uint256
deriving DecidableEq

/-- The fields of `PreparedTransfer` that signing reads; `validate` sets the calldata to the transfer's own. -/
structure PreparedTransfer extends TransferFields where
  walletAddress : Octets 20
  calldata : Bytes
  isTransfer : calldata = transferCalldata recipient amount

structure Signature where
  parity : ℕ
  compact : Octets 64
deriving DecidableEq

/-- Keccak-256 and secp256k1: `recover` is `from_compact` followed by `recover_ecdsa`, uncompressed. -/
structure Crypto where
  keccak : Bytes → Octets 32
  validSecret : Octets 32 → Bool
  sign : Octets 32 → Octets 32 → Signature
  recover : Octets 32 → Signature → Option (Octets 65)

structure VerifiedMaterial extends TransferFields where
  raw : Bytes
  transactionHash : Octets 32
  rawTransactionHash : Octets 32
  sender : Octets 20
deriving DecidableEq

/-- `compact[32..] > HALF_CURVE_ORDER[..]` -/
def highS (compact : Octets 64) : Prop := halfCurveOrder < compact.val.drop 32

instance (compact : Octets 64) : Decidable (highS compact) := inferInstanceAs (Decidable (_ < _))

def compactOf (r s : Bytes) : Rust (Octets 64) :=
  if h : r.length ≤ 32 ∧ s.length ≤ 32 then
    .ok ⟨pad 32 r ++ pad 32 s, by rw [List.length_append, length_pad h.1, length_pad h.2]⟩
  else refuse .invalidTransaction

/-- Parity, `r` and `s` of the decoded fields. -/
def readSignature (payloads : List Bytes) : Rust Signature := do
  let parityBytes ← index payloads 9
  let parity ← decodeSmallUint parityBytes
  let r ← index payloads 10
  let s ← index payloads 11
  ensure (parity ≤ 1) .invalidTransaction
  let compact ← compactOf r s
  ensure (¬ highS compact) .invalidTransaction
  .ok ⟨parity, compact⟩

def okOr {α : Type} (x : Option α) (code : ErrorCode) : Rust α :=
  match x with
  | some a => .ok a
  | none => refuse code

/-- The address of an uncompressed public key. -/
def addressOf (crypto : Crypto) (publicKey : Octets 65) : Rust (Octets 20) :=
  toOctets 20 ((crypto.keccak (publicKey.val.drop 1)).val.drop 12) .internal

def recoverSender (crypto : Crypto) (digest : Octets 32) (signature : Signature) : Rust (Octets 20) := do
  let publicKey ← okOr (crypto.recover digest signature) .invalidTransaction
  addressOf crypto publicKey

def isTransferCalldata (calldata : Bytes) : Rust Bool :=
  if calldata.length ≠ 68 then .ok false
  else do
    let selector ← slice calldata 0 4
    let zeros ← slice calldata 4 16
    .ok (selector = transferSelector ∧ zeros.all (· == 0) = true)

/-- The checks on chain, token, value, access list and calldata. -/
def checkCall (payloads : List Bytes) : Rust Unit := do
  let chainBytes ← index payloads 0
  let chain ← decodeSmallUint chainBytes
  let token ← parseAddress baseUsdc
  let called ← index payloads 5
  let value ← index payloads 6
  let accessList ← index payloads 8
  let calldata ← index payloads 7
  let transfer ← isTransferCalldata calldata
  ensure (chain = chainId ∧ called = token.val ∧ value = [] ∧ accessList = [] ∧ transfer = true) .invalidTransaction

def readUint (payloads : List Bytes) (i : ℕ) : Rust Uint256 := do
  let bytes ← index payloads i
  uintFromRlp bytes

def inspectSignedDetails (crypto : Crypto) (raw : Bytes) : Rust VerifiedMaterial := do
  let decoded ← decodeSigned raw
  let unsigned ← slice decoded.fields 0 9
  let digest := crypto.keccak (0x02 :: rlpList unsigned)
  let signature ← readSignature decoded.payloads
  let sender ← recoverSender crypto digest signature
  checkCall decoded.payloads
  let calldata ← index decoded.payloads 7
  let recipientBytes ← slice calldata 16 36
  let recipient ← toOctets 20 recipientBytes .invalidTransaction
  let amountBytes ← slice calldata 36 68
  let amount ← toOctets 32 amountBytes .invalidTransaction
  let nonce ← readUint decoded.payloads 1
  let gasLimit ← readUint decoded.payloads 4
  let maxFeePerGas ← readUint decoded.payloads 3
  let maxPriorityFeePerGas ← readUint decoded.payloads 2
  .ok ⟨⟨recipient, amount, nonce, gasLimit, maxFeePerGas, maxPriorityFeePerGas⟩, raw, crypto.keccak raw,
    crypto.keccak raw, sender⟩

/-- `.expect(..)` -/
def expect {α : Type} : Rust α → Rust α
  | .ok a => .ok a
  | .error _ => abort

def unsignedList (token : Octets 20) (fields : TransferFields) (calldata : Bytes) : List Bytes :=
  [rlpU64 chainId, rlpUint fields.nonce, rlpUint fields.maxPriorityFeePerGas, rlpUint fields.maxFeePerGas,
    rlpUint fields.gasLimit, rlpBytes token.val, rlpBytes [], rlpBytes calldata, rlpList []]

def unsignedFields (intent : PreparedTransfer) : Rust (List Bytes) := do
  let token ← expect (parseAddress baseUsdc)
  .ok (unsignedList token intent.toTransferFields intent.calldata)

def signatureFields (signature : Signature) : List Bytes :=
  [rlpU64 signature.parity, rlpBytes (strip (signature.compact.val.take 32)),
    rlpBytes (strip (signature.compact.val.drop 32))]

def matchesIntent (verified : VerifiedMaterial) (intent : PreparedTransfer) : Prop :=
  verified.sender = intent.walletAddress ∧ verified.recipient = intent.recipient ∧ verified.amount = intent.amount ∧
    verified.nonce = intent.nonce ∧ verified.gasLimit = intent.gasLimit ∧
    verified.maxFeePerGas = intent.maxFeePerGas ∧ verified.maxPriorityFeePerGas = intent.maxPriorityFeePerGas

instance (verified : VerifiedMaterial) (intent : PreparedTransfer) : Decidable (matchesIntent verified intent) :=
  inferInstanceAs (Decidable (_ ∧ _))

def signTransfer (crypto : Crypto) (secret : Octets 32) (intent : PreparedTransfer) : Rust VerifiedMaterial := do
  ensure (crypto.validSecret secret = true) .walletCorrupt
  let unsigned ← unsignedFields intent
  let signature := crypto.sign (crypto.keccak (0x02 :: rlpList unsigned)) secret
  ensure (signature.parity ≤ 1 ∧ ¬ highS signature.compact) .internal
  let verified ← inspectSignedDetails crypto (0x02 :: rlpList (unsigned ++ signatureFields signature))
  ensure (matchesIntent verified intent) .walletMismatch
  .ok verified

/-! ## Scalars -/

theorem foldl_small (bytes : Bytes) (n : ℕ) (h : n * 256 ^ bytes.length + value bytes < usizeBound) :
    bytes.foldl (fun output byte => output * 256 % usizeBound + byte.toNat) n = n * 256 ^ bytes.length + value bytes := by
  induction bytes generalizing n with
  | nil => simp
  | cons b rest ih =>
    have hpow : 0 < 256 ^ rest.length := Nat.pow_pos (by decide)
    have hsplit : n * 256 ^ (b :: rest).length + value (b :: rest) =
        (n * 256 + b.toNat) * 256 ^ rest.length + value rest := by
      rw [value_cons, List.length_cons, pow_succ]
      ring
    rw [hsplit] at h ⊢
    have hmul : n * 256 < usizeBound := lt_of_le_of_lt
      (le_trans (Nat.le_add_right _ b.toNat) (le_trans (Nat.le_mul_of_pos_right _ hpow) (Nat.le_add_right _ _))) h
    rw [List.foldl_cons, Nat.mod_eq_of_lt hmul, ih _ h]

variable {bytes : Bytes}

theorem decodeSmallUint_ok {n : ℕ} : decodeSmallUint bytes = .ok n ↔
    bytes.length ≤ 8 ∧ ¬ (1 < bytes.length ∧ bytes.head? = some 0) ∧ n = value bytes := by
  unfold decodeSmallUint
  by_cases h : 8 < bytes.length ∨ (1 < bytes.length ∧ bytes.head? = some 0)
  · rw [if_pos h]
    simp only [refuse_ne_ok, false_iff]
    rintro ⟨hlength, hhead, -⟩
    rcases h with h | h
    · omega
    · exact hhead h
  · have hlt : value bytes < usizeBound := by
      have hvalue := value_lt bytes
      have hpow : 256 ^ bytes.length ≤ 256 ^ 8 := Nat.pow_le_pow_right (by decide) (by omega)
      rw [usizeBound_eq]
      omega
    have hfold := foldl_small bytes 0 (by omega)
    rw [Nat.zero_mul, Nat.zero_add] at hfold
    rw [if_neg h, hfold, Except.ok.injEq, eq_comm]
    constructor
    · intro hn
      exact ⟨by omega, fun hhead => h (Or.inr hhead), hn⟩
    · exact fun hn => hn.2.2

theorem decodeSmallUint_quiet (bytes : Bytes) : ¬ Panics (decodeSmallUint bytes) := by
  unfold decodeSmallUint
  split
  · exact panics_refuse
  · exact panics_ok

theorem uintFromRlp_ok {v : Uint256} : uintFromRlp bytes = .ok v ↔
    bytes.length ≤ 32 ∧ ¬ (1 < bytes.length ∧ bytes.head? = some 0) ∧ v.val = pad 32 bytes := by
  unfold uintFromRlp
  by_cases h : bytes.length ≤ 32 ∧ ¬ (1 < bytes.length ∧ bytes.head? = some 0)
  · rw [dif_pos h, Except.ok.injEq, eq_comm, Subtype.ext_iff]
    exact ⟨fun hv => ⟨h.1, h.2, hv⟩, fun hv => hv.2.2⟩
  · rw [dif_neg h]
    simp only [refuse_ne_ok, false_iff]
    exact fun hv => h ⟨hv.1, hv.2.1⟩

theorem uintFromRlp_quiet (bytes : Bytes) : ¬ Panics (uintFromRlp bytes) := by
  unfold uintFromRlp
  split
  · exact panics_ok
  · exact panics_refuse

-- The scalar checks let one redundant zero byte through: the string `[0]`.
theorem strip_scalar (h : ¬ (1 < bytes.length ∧ bytes.head? = some 0)) :
    strip bytes = bytes ↔ bytes ≠ [0] := by
  rw [strip_eq_self]
  constructor
  · rintro hhead rfl
    exact hhead rfl
  · intro hne hhead
    obtain ⟨rest, rfl⟩ := List.head?_eq_some_iff.mp hhead
    cases rest with
    | nil => exact hne rfl
    | cons b rest => exact h ⟨by rw [List.length_cons, List.length_cons]; omega, rfl⟩

theorem significantBytes_fromU64 (h : bytes.length ≤ 8) :
    significantBytes (Uint256.fromU64 (value bytes)) = strip bytes := by
  show strip (pad 32 (fixed 8 (value bytes))) = _
  rw [strip_pad, strip_fixed h]

/-! ## The twelve payloads -/

structure Payloads where
  chainId : Bytes
  nonce : Bytes
  maxPriorityFeePerGas : Bytes
  maxFeePerGas : Bytes
  gasLimit : Bytes
  token : Bytes
  value : Bytes
  calldata : Bytes
  accessList : Bytes
  parity : Bytes
  r : Bytes
  s : Bytes
deriving DecidableEq, Repr

namespace Payloads

variable {p q : Payloads}

def toList (p : Payloads) : List Bytes :=
  [p.chainId, p.nonce, p.maxPriorityFeePerGas, p.maxFeePerGas, p.gasLimit, p.token, p.value, p.calldata, p.accessList,
    p.parity, p.r, p.s]

/-- The bytes whose fields are `p`. -/
def encoded (p : Payloads) : Bytes := 0x02 :: Rlp.encodeList (fieldsFrom 0 p.toList).flatten

theorem exists_of_length {list : List Bytes} (h : list.length = 12) : ∃ p : Payloads, p.toList = list := by
  match list, h with
  | [a, b, c, d, e, f, g, h, i, j, k, l], _ => exact ⟨⟨a, b, c, d, e, f, g, h, i, j, k, l⟩, rfl⟩

theorem toList_inj (h : p.toList = q.toList) : p = q := by
  cases p
  cases q
  simp only [toList, List.cons.injEq] at h
  obtain ⟨rfl, rfl, rfl, rfl, rfl, rfl, rfl, rfl, rfl, rfl, rfl, rfl, -⟩ := h
  rfl

theorem decodeSigned_encoded (h : p.encoded.length ≤ usizeBound) :
    decodeSigned p.encoded = .ok ⟨fieldsFrom 0 p.toList, p.toList⟩ :=
  decodeSigned_ok.mpr ⟨p.toList, rfl, rfl, h, rfl⟩

theorem encoded_inj (hp : p.encoded.length ≤ usizeBound) (h : p.encoded = q.encoded) : p = q := by
  have hdecode := decodeSigned_encoded hp
  rw [h, decodeSigned_encoded (h ▸ hp)] at hdecode
  exact toList_inj (congrArg DecodedSigned.payloads (Except.ok.inj hdecode)).symm

/-- The fields whose only redundant form is the string `[0]` do not have it, and `r` and `s` have no leading zeros. -/
def Minimal (p : Payloads) : Prop :=
  p.nonce ≠ [0] ∧ p.maxPriorityFeePerGas ≠ [0] ∧ p.maxFeePerGas ≠ [0] ∧ p.gasLimit ≠ [0] ∧ p.parity ≠ [0] ∧
    p.r.head? ≠ some 0 ∧ p.s.head? ≠ some 0

end Payloads

theorem decodeSigned_payloads {raw : Bytes} {decoded : DecodedSigned} (h : decodeSigned raw = .ok decoded) :
    ∃ p : Payloads, raw = p.encoded ∧ raw.length ≤ usizeBound ∧ decoded = ⟨fieldsFrom 0 p.toList, p.toList⟩ := by
  obtain ⟨payloads, htwelve, hraw, hbound, hdecoded⟩ := decodeSigned_ok.mp h
  obtain ⟨p, rfl⟩ := Payloads.exists_of_length htwelve
  exact ⟨p, hraw, hbound, hdecoded⟩

/-! ## The inspector -/

def baseUsdcAddress : Octets 20 :=
  ⟨[0x83, 0x35, 0x89, 0xfc, 0xd6, 0xed, 0xb6, 0xe0, 0x8f, 0x4c, 0x7c, 0x32, 0xd4, 0xf7, 0x1b, 0x54, 0xbd, 0xa0, 0x29, 0x13],
    rfl⟩

theorem parseAddress_baseUsdc : parseAddress baseUsdc = .ok baseUsdcAddress := by decide +kernel

theorem toOctets_ok {n : ℕ} {code : ErrorCode} {v : Octets n} :
    toOctets n bytes code = .ok v ↔ v.val = bytes := by
  unfold toOctets
  by_cases h : bytes.length = n
  · rw [dif_pos h, Except.ok.injEq, eq_comm, Subtype.ext_iff]
  · rw [dif_neg h]
    simp only [refuse_ne_ok, false_iff]
    exact fun hv => h (hv ▸ v.property)

theorem toOctets_quiet (n : ℕ) (bytes : Bytes) (code : ErrorCode) : ¬ Panics (toOctets n bytes code) := by
  unfold toOctets
  split
  · exact panics_ok
  · exact panics_refuse

section Inspect

variable {crypto : Crypto} {p : Payloads} {signature : Signature} {d : VerifiedMaterial}

theorem readSignature_ok : readSignature p.toList = .ok signature ↔
    decodeSmallUint p.parity = .ok signature.parity ∧ signature.parity ≤ 1 ∧ (p.r.length ≤ 32 ∧ p.s.length ≤ 32) ∧
      signature.compact.val = pad 32 p.r ++ pad 32 p.s ∧ ¬ highS signature.compact := by
  have hcompact : ∀ c : Octets 64, compactOf p.r p.s = .ok c ↔
      (p.r.length ≤ 32 ∧ p.s.length ≤ 32) ∧ c.val = pad 32 p.r ++ pad 32 p.s := by
    intro c
    unfold compactOf
    by_cases h : p.r.length ≤ 32 ∧ p.s.length ≤ 32
    · rw [dif_pos h, Except.ok.injEq, eq_comm, Subtype.ext_iff]
      exact ⟨fun hc => ⟨h, hc⟩, fun hc => hc.2⟩
    · rw [dif_neg h]
      simp only [refuse_ne_ok, false_iff]
      exact fun hc => h hc.1
  have hparity : index p.toList 9 = .ok p.parity := rfl
  have hr : index p.toList 10 = .ok p.r := rfl
  have hs : index p.toList 11 = .ok p.s := rfl
  unfold readSignature
  rw [hparity, hr, hs]
  simp only [ok_run, run_ok, ensure_ok, hcompact, Except.ok.injEq]
  constructor
  · rintro ⟨parity, hdecode, -, hle, c, ⟨hlengths, hc⟩, -, hlow, rfl⟩
    exact ⟨hdecode, hle, hlengths, hc, hlow⟩
  · rintro ⟨hdecode, hle, hlengths, hc, hlow⟩
    exact ⟨_, hdecode, (), hle, _, ⟨hlengths, hc⟩, (), hlow, rfl⟩

theorem readSignature_quiet : ¬ Panics (readSignature p.toList) := by
  have hcompact : ¬ Panics (compactOf p.r p.s) := by
    unfold compactOf
    split
    · exact panics_ok
    · exact panics_refuse
  have hparity : index p.toList 9 = .ok p.parity := rfl
  have hr : index p.toList 10 = .ok p.r := rfl
  have hs : index p.toList 11 = .ok p.s := rfl
  unfold readSignature
  rw [hparity, hr, hs]
  simp only [ok_run, panics_run, ensure_quiet, decodeSmallUint_quiet, hcompact, panics_ok, or_self, and_false,
    exists_false, not_false_eq_true]

theorem recoverSender_quiet {digest : Octets 32} : ¬ Panics (recoverSender crypto digest signature) := by
  unfold recoverSender
  rw [panics_run]
  rintro (h | ⟨key, -, h⟩)
  · unfold okOr at h
    split at h
    · exact panics_ok h
    · exact panics_refuse h
  · exact toOctets_quiet _ _ _ h

theorem isTransferCalldata_ok {calldata : Bytes} {transfer : Bool} : isTransferCalldata calldata = .ok transfer ↔
    transfer = decide (calldata.length = 68 ∧ calldata.take 4 = transferSelector ∧
      ((calldata.take 16).drop 4).all (· == 0) = true) := by
  unfold isTransferCalldata
  by_cases h : calldata.length = 68
  · have hselector : slice calldata 0 4 = .ok (calldata.take 4) := slice_ok ⟨by decide, by omega⟩
    have hzeros : slice calldata 4 16 = .ok ((calldata.take 16).drop 4) := slice_ok ⟨by decide, by omega⟩
    rw [if_neg (by omega), hselector, hzeros, ok_run, ok_run, Except.ok.injEq, eq_comm]
    simp [h]
  · rw [if_pos h, Except.ok.injEq, eq_comm, decide_eq_false (fun hc => h hc.1)]

-- What the inspector asks of the call: exactly a transfer of the token on the one chain.
theorem checkCall_ok {u : Unit} : checkCall p.toList = .ok u ↔ decodeSmallUint p.chainId = .ok chainId ∧
    p.token = baseUsdcAddress.val ∧ p.value = [] ∧ p.accessList = [] ∧ p.calldata.length = 68 ∧
      p.calldata.take 4 = transferSelector ∧ ((p.calldata.take 16).drop 4).all (· == 0) = true := by
  have h0 : index p.toList 0 = .ok p.chainId := rfl
  have h5 : index p.toList 5 = .ok p.token := rfl
  have h6 : index p.toList 6 = .ok p.value := rfl
  have h8 : index p.toList 8 = .ok p.accessList := rfl
  have h7 : index p.toList 7 = .ok p.calldata := rfl
  unfold checkCall
  rw [h0, h5, h6, h7, h8, parseAddress_baseUsdc]
  simp only [ok_run, run_ok, isTransferCalldata_ok, ensure, ite_eq_left_iff, refuse_ne_ok]
  constructor
  · rintro ⟨chain, hchain, transfer, rfl, h⟩
    have hchecks := not_not.mp fun hc => h hc
    obtain ⟨rfl, htoken, hvalue, haccess, htransfer⟩ := hchecks
    exact ⟨hchain, htoken, hvalue, haccess, of_decide_eq_true htransfer⟩
  · rintro ⟨hchain, htoken, hvalue, haccess, htransfer⟩
    refine ⟨chainId, hchain, _, rfl, fun h => absurd ?_ h⟩
    exact ⟨rfl, htoken, hvalue, haccess, decide_eq_true htransfer⟩

theorem checkCall_quiet : ¬ Panics (checkCall p.toList) := by
  have h0 : index p.toList 0 = .ok p.chainId := rfl
  have h5 : index p.toList 5 = .ok p.token := rfl
  have h6 : index p.toList 6 = .ok p.value := rfl
  have h8 : index p.toList 8 = .ok p.accessList := rfl
  have h7 : index p.toList 7 = .ok p.calldata := rfl
  have htransfer : ¬ Panics (isTransferCalldata p.calldata) := by
    rw [isTransferCalldata_ok.mpr rfl]
    exact panics_ok
  unfold checkCall
  rw [h0, h5, h6, h7, h8, parseAddress_baseUsdc]
  simp only [ok_run, panics_run, ensure_quiet, decodeSmallUint_quiet, htransfer, or_self, and_false, exists_false,
    not_false_eq_true]

theorem slice_unsigned : slice (fieldsFrom 0 p.toList) 0 9 = .ok ((fieldsFrom 0 p.toList).take 9) := by
  have hlength : (fieldsFrom 0 p.toList).length = 12 := length_fieldsFrom 0 p.toList
  exact slice_ok ⟨by decide, by omega⟩

/-- What the inspector asks of the fields it decoded, and what it returns. -/
structure Inspected (crypto : Crypto) (p : Payloads) (signature : Signature) (d : VerifiedMaterial) : Prop where
  signed : readSignature p.toList = .ok signature
  sender : recoverSender crypto (crypto.keccak (0x02 :: rlpList ((fieldsFrom 0 p.toList).take 9))) signature = .ok d.sender
  call : checkCall p.toList = .ok ()
  recipient : d.recipient.val = (p.calldata.take 36).drop 16
  amount : d.amount.val = p.calldata.drop 36
  nonce : uintFromRlp p.nonce = .ok d.nonce
  gasLimit : uintFromRlp p.gasLimit = .ok d.gasLimit
  maxFeePerGas : uintFromRlp p.maxFeePerGas = .ok d.maxFeePerGas
  maxPriorityFeePerGas : uintFromRlp p.maxPriorityFeePerGas = .ok d.maxPriorityFeePerGas

-- The inspector on a decoded transaction.
theorem inspect_encoded (hbound : p.encoded.length ≤ usizeBound) : inspectSignedDetails crypto p.encoded = .ok d ↔
    (∃ signature, Inspected crypto p signature d) ∧ d.raw = p.encoded ∧ d.transactionHash = crypto.keccak p.encoded ∧
      d.rawTransactionHash = crypto.keccak p.encoded := by
  have hcalldata : index p.toList 7 = .ok p.calldata := rfl
  have h1 : readUint p.toList 1 = uintFromRlp p.nonce := rfl
  have h2 : readUint p.toList 2 = uintFromRlp p.maxPriorityFeePerGas := rfl
  have h3 : readUint p.toList 3 = uintFromRlp p.maxFeePerGas := rfl
  have h4 : readUint p.toList 4 = uintFromRlp p.gasLimit := rfl
  unfold inspectSignedDetails
  rw [Payloads.decodeSigned_encoded hbound, ok_run]
  simp only [slice_unsigned, hcalldata, h1, h2, h3, h4, ok_run, run_ok, toOctets_ok, Except.ok.injEq]
  constructor
  · rintro ⟨signature, hsignature, sender, hsender, _, hcall, recipientBytes, hslice, recipient, hrecipient, amountBytes,
      hslice', amount, hamount, nonce, hnonce, gasLimit, hgas, maxFee, hfee, priority, hpriority, rfl⟩
    have hlength : p.calldata.length = 68 := (checkCall_ok.mp hcall).2.2.2.2.1
    rw [slice_ok ⟨by decide, by omega⟩] at hslice hslice'
    cases hslice
    cases hslice'
    rw [List.take_of_length_le (by omega)] at hamount
    exact ⟨⟨signature, hsignature, hsender, hcall, hrecipient, hamount, hnonce, hgas, hfee, hpriority⟩, rfl, rfl, rfl⟩
  · rintro ⟨⟨signature, h⟩, hraw, hhash, hrawHash⟩
    have hlength : p.calldata.length = 68 := (checkCall_ok.mp h.call).2.2.2.2.1
    refine ⟨signature, h.signed, d.sender, h.sender, (), h.call, _, slice_ok ⟨by decide, by omega⟩, d.recipient,
      h.recipient, _, slice_ok ⟨by decide, by omega⟩, d.amount, ?_, d.nonce, h.nonce, d.gasLimit, h.gasLimit,
      d.maxFeePerGas, h.maxFeePerGas, d.maxPriorityFeePerGas, h.maxPriorityFeePerGas, ?_⟩
    · rw [List.take_of_length_le (by omega)]
      exact h.amount
    · cases d
      subst hraw
      subst hhash
      subst hrawHash
      rfl

-- The inspector panics only where the decoder does.
theorem panics_inspect {raw : Bytes} : Panics (inspectSignedDetails crypto raw) ↔ ReachesOverlong raw := by
  rw [← panics_decodeSigned]
  constructor
  · intro h
    unfold inspectSignedDetails at h
    rw [panics_run] at h
    rcases h with hpanic | ⟨decoded, hdecoded, h⟩
    · exact hpanic
    · exfalso
      obtain ⟨p, -, -, rfl⟩ := decodeSigned_payloads hdecoded
      have hcalldata : index p.toList 7 = .ok p.calldata := rfl
      have h1 : readUint p.toList 1 = uintFromRlp p.nonce := rfl
      have h2 : readUint p.toList 2 = uintFromRlp p.maxPriorityFeePerGas := rfl
      have h3 : readUint p.toList 3 = uintFromRlp p.maxFeePerGas := rfl
      have h4 : readUint p.toList 4 = uintFromRlp p.gasLimit := rfl
      simp only [slice_unsigned, hcalldata, h1, h2, h3, h4, ok_run, panics_run, readSignature_quiet, recoverSender_quiet,
        checkCall_quiet, toOctets_quiet, uintFromRlp_quiet, panics_ok, false_or, or_false, and_false, exists_false] at h
      obtain ⟨signature, -, sender, -, _, hcall, hslice⟩ := h
      have hlength : p.calldata.length = 68 := (checkCall_ok.mp hcall).2.2.2.2.1
      rw [slice_ok ⟨by decide, by omega⟩, slice_ok ⟨by decide, by omega⟩] at hslice
      rcases hslice with hslice | ⟨-, -, -, -, hslice⟩
      · exact panics_ok hslice
      · exact panics_ok hslice
  · intro h
    unfold inspectSignedDetails
    rw [panics_run]
    exact Or.inl h

end Inspect

end PaymentNode.Native
