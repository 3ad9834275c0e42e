import PaymentNode.Native.Transaction

/-!
# Canonical — one byte string for each transfer and signature

`canonicalBytes` is what `sign_transfer` writes.  The inspector reads it back exactly; what else it accepts differs
from it only in zero bytes that its scalar checks let through.
-/

namespace PaymentNode.Native

open BigEndian

variable (fields : TransferFields)

/-- The bytes `sign_transfer` builds for these fields and this signature. -/
def canonicalBytes (signature : Signature) : Bytes :=
  0x02 :: rlpList (unsignedList baseUsdcAddress fields (transferCalldata fields.recipient fields.amount) ++
    signatureFields signature)

def canonicalPayloads (signature : Signature) : Payloads :=
  ⟨significantBytes (Uint256.fromU64 chainId), significantBytes fields.nonce,
    significantBytes fields.maxPriorityFeePerGas, significantBytes fields.maxFeePerGas, significantBytes fields.gasLimit,
    baseUsdcAddress.val, [], transferCalldata fields.recipient fields.amount, [],
    significantBytes (Uint256.fromU64 signature.parity), strip (signature.compact.val.take 32),
    strip (signature.compact.val.drop 32)⟩

theorem fieldsFrom_toList (p : Payloads) : fieldsFrom 0 p.toList =
    [rlpBytes p.chainId, rlpBytes p.nonce, rlpBytes p.maxPriorityFeePerGas, rlpBytes p.maxFeePerGas, rlpBytes p.gasLimit,
      rlpBytes p.token, rlpBytes p.value, rlpBytes p.calldata, Rlp.encodeList p.accessList, rlpBytes p.parity,
      rlpBytes p.r, rlpBytes p.s] := rfl

theorem fields_canonical (signature : Signature) :
    fieldsFrom 0 (canonicalPayloads fields signature).toList =
      unsignedList baseUsdcAddress fields (transferCalldata fields.recipient fields.amount) ++ signatureFields signature := by
  rw [fieldsFrom_toList]
  rfl

theorem canonicalBytes_eq (signature : Signature) :
    canonicalBytes fields signature = (canonicalPayloads fields signature).encoded := by
  unfold canonicalBytes Payloads.encoded
  rw [fields_canonical]
  rfl

theorem unsigned_canonical (signature : Signature) :
    (fieldsFrom 0 (canonicalPayloads fields signature).toList).take 9 =
      unsignedList baseUsdcAddress fields (transferCalldata fields.recipient fields.amount) := by
  rw [fields_canonical]
  rfl

/-! ## Sizes -/

theorem length_flatten_fields {payloads : List Bytes} {bound : ℕ} (i : ℕ) (h : ∀ payload ∈ payloads, payload.length ≤ bound) :
    (fieldsFrom i payloads).flatten.length ≤ payloads.length * (bound + 9) := by
  induction payloads generalizing i with
  | nil => exact Nat.zero_le _
  | cons payload payloads ih =>
    have hfirst := h payload List.mem_cons_self
    have hrest := ih (i + 1) fun q hq => h q (List.mem_cons_of_mem _ hq)
    have hencode := Rlp.length_encode_le (i == 8) payload
    rw [fieldsFrom, List.flatten_cons, List.length_append, List.length_cons, Nat.add_mul, Nat.one_mul]
    omega

theorem length_encoded_le {p : Payloads} (h : ∀ payload ∈ p.toList, payload.length ≤ 68) :
    p.encoded.length ≤ usizeBound := by
  have hflat := length_flatten_fields 0 h
  have hlist := Rlp.length_encode_le true (fieldsFrom 0 p.toList).flatten
  have hcount : p.toList.length = 12 := rfl
  have husize : usizeBound = 2 ^ 64 := rfl
  have hencoded : p.encoded.length = (Rlp.encode true (fieldsFrom 0 p.toList).flatten).length + 1 := rfl
  omega

theorem length_significantBytes_le (v : Uint256) : (significantBytes v).length ≤ 32 := by
  have hle := length_strip_le v.val
  rwa [v.property] at hle

theorem length_transferCalldata (recipient : Octets 20) (amount : Uint256) :
    (transferCalldata recipient amount).length = 68 := by
  unfold transferCalldata
  rw [List.length_append, List.length_append, List.length_append, List.length_replicate, recipient.property,
    amount.property]
  rfl

theorem length_canonical_le (signature : Signature) :
    (canonicalPayloads fields signature).encoded.length ≤ usizeBound := by
  refine length_encoded_le fun payload hpayload => ?_
  have hr : (strip (signature.compact.val.take 32)).length ≤ 32 :=
    le_trans (length_strip_le _) (by rw [List.length_take]; omega)
  have hs : (strip (signature.compact.val.drop 32)).length ≤ 32 :=
    le_trans (length_strip_le _) (by rw [List.length_drop, signature.compact.property])
  have hscalar : ∀ v : Uint256, (significantBytes v).length ≤ 68 :=
    fun v => le_trans (length_significantBytes_le v) (by decide)
  have htoken : baseUsdcAddress.val.length ≤ 68 := by decide
  have hcalldata := length_transferCalldata fields.recipient fields.amount
  simp only [canonicalPayloads, Payloads.toList, List.mem_cons, List.not_mem_nil, or_false] at hpayload
  rcases hpayload with rfl | rfl | rfl | rfl | rfl | rfl | rfl | rfl | rfl | rfl | rfl | rfl
  · exact hscalar _
  · exact hscalar _
  · exact hscalar _
  · exact hscalar _
  · exact hscalar _
  · exact htoken
  · exact Nat.zero_le _
  · omega
  · exact Nat.zero_le _
  · exact hscalar _
  · omega
  · omega

/-! ## Reading a canonical transaction -/

theorem uintFromRlp_significantBytes (v : Uint256) : uintFromRlp (significantBytes v) = .ok v := by
  have hle := length_significantBytes_le v
  refine uintFromRlp_ok.mpr ⟨hle, fun h => head_strip v.val h.2, ?_⟩
  refine value_inj (by rw [length_pad hle]; exact v.property) ?_
  rw [value_pad]
  exact (value_strip v.val).symm

theorem decodeSmallUint_fromU64 {n : ℕ} (h : n < usizeBound) :
    decodeSmallUint (significantBytes (Uint256.fromU64 n)) = .ok n := by
  have hn : n < 256 ^ 8 := usizeBound_eq ▸ h
  have hvalue : value (fixed 8 n) = n := value_fixed hn
  have hbytes : significantBytes (Uint256.fromU64 n) = strip (fixed 8 n) := strip_pad 32 (fixed 8 n)
  have hle := length_strip_le (fixed 8 n)
  rw [length_fixed] at hle
  rw [hbytes]
  refine decodeSmallUint_ok.mpr ⟨hle, fun hhead => head_strip _ hhead.2, ?_⟩
  rw [value_strip, hvalue]

theorem take_transferCalldata (recipient : Octets 20) (amount : Uint256) :
    (transferCalldata recipient amount).take 4 = transferSelector ∧
    ((transferCalldata recipient amount).take 16).drop 4 = List.replicate 12 0 ∧
    ((transferCalldata recipient amount).take 36).drop 16 = recipient.val ∧
    (transferCalldata recipient amount).drop 36 = amount.val := by
  have hrecipient := recipient.property
  have hselector : transferSelector.length = 4 := rfl
  have hsixteen : (transferSelector ++ List.replicate 12 0).length = 16 := rfl
  have hfront : (transferSelector ++ List.replicate 12 0 ++ recipient.val).length = 36 := by
    rw [List.length_append, hsixteen, hrecipient]
  unfold transferCalldata
  refine ⟨?_, ?_, ?_, ?_⟩
  · rw [List.append_assoc, List.append_assoc, List.take_append_of_le_length (by rw [hselector]), List.take_of_length_le (by
      rw [hselector])]
  · rw [List.append_assoc (_ ++ _), List.take_append_of_le_length (by rw [hsixteen]), List.take_of_length_le (by
      rw [hsixteen])]
    rfl
  · rw [List.take_append_of_le_length (by rw [hfront]), List.take_of_length_le (by rw [hfront]),
      List.drop_append_of_le_length (by rw [hsixteen]), List.drop_of_length_le (by rw [hsixteen]), List.nil_append]
  · rw [List.drop_append_of_le_length (by rw [hfront]), List.drop_of_length_le (by rw [hfront]), List.nil_append]

theorem pad_strip {width : ℕ} {bytes : Bytes} (h : bytes.length = width) : pad width (strip bytes) = bytes := by
  have hle := length_strip_le bytes
  refine value_inj (by rw [length_pad (by omega), h]) ?_
  rw [value_pad, value_strip]

variable {signature : Signature}

theorem readSignature_canonical {fields : TransferFields} (hparity : signature.parity ≤ 1)
    (hlow : ¬ highS signature.compact) : readSignature (canonicalPayloads fields signature).toList = .ok signature := by
  have hlength := signature.compact.property
  have htake : (signature.compact.val.take 32).length = 32 := by
    rw [List.length_take]
    omega
  have hdrop : (signature.compact.val.drop 32).length = 32 := by
    rw [List.length_drop]
    omega
  have husize : usizeBound = 2 ^ 64 := rfl
  refine readSignature_ok.mpr ⟨decodeSmallUint_fromU64 (by omega), hparity, ⟨?_, ?_⟩, ?_, hlow⟩
  · exact le_trans (length_strip_le _) (by omega)
  · exact le_trans (length_strip_le _) (by omega)
  · show _ = pad 32 (strip _) ++ pad 32 (strip _)
    rw [pad_strip htake, pad_strip hdrop, List.take_append_drop]

theorem checkCall_canonical (signature : Signature) :
    checkCall (canonicalPayloads fields signature).toList = .ok () := by
  obtain ⟨hselector, hzeros, -, -⟩ := take_transferCalldata fields.recipient fields.amount
  have hchain : decodeSmallUint (significantBytes (Uint256.fromU64 chainId)) = .ok chainId :=
    decodeSmallUint_fromU64 (by decide +kernel)
  refine checkCall_ok.mpr ⟨hchain, rfl, rfl, rfl, length_transferCalldata _ _, hselector, ?_⟩
  show (((transferCalldata _ _).take 16).drop 4).all _ = true
  rw [hzeros]
  rfl

-- The inspector reads back what was written, and recovers the signer of the digest.
theorem inspect_canonical {crypto : Crypto} {fields : TransferFields} {sender : Octets 20}
    (hparity : signature.parity ≤ 1) (hlow : ¬ highS signature.compact)
    (hsender : recoverSender crypto (crypto.keccak (0x02 :: rlpList
      (unsignedList baseUsdcAddress fields (transferCalldata fields.recipient fields.amount)))) signature = .ok sender) :
    inspectSignedDetails crypto (canonicalBytes fields signature) =
      .ok ⟨fields, canonicalBytes fields signature, crypto.keccak (canonicalBytes fields signature),
        crypto.keccak (canonicalBytes fields signature), sender⟩ := by
  obtain ⟨-, -, hrecipient, hamount⟩ := take_transferCalldata fields.recipient fields.amount
  rw [canonicalBytes_eq, inspect_encoded (length_canonical_le fields signature)]
  rw [← unsigned_canonical fields signature] at hsender
  exact ⟨⟨signature, readSignature_canonical hparity hlow, hsender, checkCall_canonical fields signature, hrecipient.symm,
    hamount.symm, uintFromRlp_significantBytes _, uintFromRlp_significantBytes _, uintFromRlp_significantBytes _,
    uintFromRlp_significantBytes _⟩, rfl, rfl, rfl⟩

/-! ## What is accepted -/

/-- The payloads with their redundant zero bytes dropped. -/
def Payloads.stripped (p : Payloads) : Payloads :=
  { p with
    nonce := strip p.nonce
    maxPriorityFeePerGas := strip p.maxPriorityFeePerGas
    maxFeePerGas := strip p.maxFeePerGas
    gasLimit := strip p.gasLimit
    parity := strip p.parity
    r := strip p.r
    s := strip p.s }

theorem calldata_of_checks {calldata : Bytes} {recipient : Octets 20} {amount : Uint256}
    (hselector : calldata.take 4 = transferSelector) (hzeros : ((calldata.take 16).drop 4).all (· == 0) = true)
    (hlength : calldata.length = 68) (hrecipient : recipient.val = (calldata.take 36).drop 16)
    (hamount : amount.val = calldata.drop 36) : transferCalldata recipient amount = calldata := by
  have hpadding : (calldata.take 16).drop 4 = List.replicate 12 0 := by
    refine List.eq_replicate_iff.mpr ⟨by rw [List.length_drop, List.length_take]; omega, fun b hb => ?_⟩
    exact eq_of_beq (List.all_eq_true.mp hzeros b hb)
  have hfour : calldata.take 16 = transferSelector ++ List.replicate 12 0 := by
    have hsplit := (List.take_append_drop 4 (calldata.take 16)).symm
    rw [List.take_take, hpadding] at hsplit
    rw [hsplit]
    exact congrArg (· ++ List.replicate 12 0) hselector
  have hfront : calldata.take 36 = transferSelector ++ List.replicate 12 0 ++ recipient.val := by
    have hsplit := (List.take_append_drop 16 (calldata.take 36)).symm
    rw [List.take_take, ← hrecipient] at hsplit
    rw [hsplit]
    exact congrArg (· ++ recipient.val) hfour
  unfold transferCalldata
  rw [← hfront, hamount, List.take_append_drop]

-- What the inspector returns writes the stripped payloads.
theorem canonicalPayloads_inspected {crypto : Crypto} {p : Payloads} {d : VerifiedMaterial}
    (h : Inspected crypto p signature d) : canonicalPayloads d.toTransferFields signature = p.stripped := by
  obtain ⟨hchain, htoken, hvalue, haccess, hlength, hselector, hzeros⟩ := checkCall_ok.mp h.call
  obtain ⟨hparity, -, ⟨hr, hs⟩, hcompact, -⟩ := readSignature_ok.mp h.signed
  obtain ⟨hchainLength, hchainHead, hchainValue⟩ := decodeSmallUint_ok.mp hchain
  obtain ⟨hparityLength, -, hparityValue⟩ := decodeSmallUint_ok.mp hparity
  have hscalar : ∀ {bytes : Bytes} {v : Uint256}, uintFromRlp bytes = .ok v → significantBytes v = strip bytes := by
    intro bytes v hv
    unfold significantBytes
    rw [(uintFromRlp_ok.mp hv).2.2, strip_pad]
  have hchainBytes : significantBytes (Uint256.fromU64 chainId) = p.chainId := by
    have hstrip : strip p.chainId = p.chainId := by
      rw [strip_scalar hchainHead]
      intro hzero
      rw [hzero] at hchainValue
      exact absurd hchainValue (by decide)
    rw [hchainValue, significantBytes_fromU64 hchainLength, hstrip]
  have hparityBytes : significantBytes (Uint256.fromU64 signature.parity) = strip p.parity := by
    rw [hparityValue, significantBytes_fromU64 hparityLength]
  have htake : strip (signature.compact.val.take 32) = strip p.r := by
    rw [hcompact, List.take_append_of_le_length (by rw [length_pad hr]), List.take_of_length_le (by rw [length_pad hr]),
      strip_pad]
  have hdrop : strip (signature.compact.val.drop 32) = strip p.s := by
    rw [hcompact, List.drop_append_of_le_length (by rw [length_pad hr]), List.drop_of_length_le (by rw [length_pad hr]),
      List.nil_append, strip_pad]
  have hcalldata := calldata_of_checks hselector hzeros hlength h.recipient h.amount
  unfold canonicalPayloads Payloads.stripped
  rw [hchainBytes, hscalar h.nonce, hscalar h.maxPriorityFeePerGas, hscalar h.maxFeePerGas, hscalar h.gasLimit, hparityBytes,
    htake, hdrop, hcalldata, htoken, hvalue, haccess]

theorem stripped_eq_self {crypto : Crypto} {p : Payloads} {d : VerifiedMaterial}
    (h : Inspected crypto p signature d) : p.stripped = p ↔ p.Minimal := by
  have hscalar : ∀ {bytes : Bytes} {v : Uint256}, uintFromRlp bytes = .ok v → (strip bytes = bytes ↔ bytes ≠ [0]) :=
    fun hv => strip_scalar (uintFromRlp_ok.mp hv).2.1
  have hparity := strip_scalar (decodeSmallUint_ok.mp (readSignature_ok.mp h.signed).1).2.1
  unfold Payloads.Minimal
  rw [← hscalar h.nonce, ← hscalar h.maxPriorityFeePerGas, ← hscalar h.maxFeePerGas, ← hscalar h.gasLimit, ← hparity,
    ← strip_eq_self, ← strip_eq_self]
  cases p
  simp only [Payloads.stripped, Payloads.mk.injEq, true_and]

/-- The bytes are those of twelve fields whose scalars carry no redundant zero byte. -/
def MinimalScalars (raw : Bytes) : Prop := ∃ p : Payloads, raw = p.encoded ∧ p.Minimal

/-- The signature in a signed transaction's bytes. -/
def signatureOf (raw : Bytes) : Rust Signature := do
  let decoded ← decodeSigned raw
  readSignature decoded.payloads

/-- Signing and inspecting are inverse on what `sign_transfer` builds, and an accepted byte string is the canonical one
for what it says exactly when its scalars carry no redundant zero byte. -/
theorem codec_exact_iff_minimal (crypto : Crypto) :
    (∀ (secret : Octets 32) (intent : PreparedTransfer) (unsigned : List Bytes) (key : Octets 65),
      crypto.validSecret secret = true → unsignedFields intent = .ok unsigned →
      (crypto.sign (crypto.keccak (0x02 :: rlpList unsigned)) secret).parity ≤ 1 →
      ¬ highS (crypto.sign (crypto.keccak (0x02 :: rlpList unsigned)) secret).compact →
      crypto.recover (crypto.keccak (0x02 :: rlpList unsigned))
        (crypto.sign (crypto.keccak (0x02 :: rlpList unsigned)) secret) = some key →
      addressOf crypto key = .ok intent.walletAddress →
      ∃ d, signTransfer crypto secret intent = .ok d ∧ inspectSignedDetails crypto d.raw = .ok d ∧
        matchesIntent d intent ∧ d.raw = canonicalBytes intent.toTransferFields
          (crypto.sign (crypto.keccak (0x02 :: rlpList unsigned)) secret)) ∧
    (∀ (raw : Bytes) (d : VerifiedMaterial) (signature : Signature),
      inspectSignedDetails crypto raw = .ok d → signatureOf raw = .ok signature →
      (raw = canonicalBytes d.toTransferFields signature ↔ MinimalScalars raw)) := by
  refine ⟨fun secret intent unsigned key hsecret hunsigned hparity hlow hrecover haddress => ?_,
    fun raw d signature hinspect hsignature => ?_⟩
  · have hfields : unsignedFields intent = .ok (unsignedList baseUsdcAddress intent.toTransferFields
        (transferCalldata intent.recipient intent.amount)) := by
      unfold unsignedFields
      rw [parseAddress_baseUsdc, intent.isTransfer]
      rfl
    rw [hfields] at hunsigned
    cases hunsigned
    generalize hsigned : crypto.sign _ secret = signature at *
    have hsender : recoverSender crypto (crypto.keccak (0x02 :: rlpList (unsignedList baseUsdcAddress
        intent.toTransferFields (transferCalldata intent.recipient intent.amount)))) signature =
          .ok intent.walletAddress := by
      unfold recoverSender
      rw [hrecover]
      exact haddress
    have hinspect := inspect_canonical hparity hlow hsender
    refine ⟨⟨intent.toTransferFields, canonicalBytes intent.toTransferFields signature,
      crypto.keccak (canonicalBytes intent.toTransferFields signature),
      crypto.keccak (canonicalBytes intent.toTransferFields signature), intent.walletAddress⟩, ?_, hinspect,
      ⟨rfl, rfl, rfl, rfl, rfl, rfl, rfl⟩, rfl⟩
    unfold signTransfer
    rw [ensure_run, if_pos hsecret, hfields, ok_run, hsigned, ensure_run, if_pos ⟨hparity, hlow⟩]
    show inspectSignedDetails crypto (canonicalBytes intent.toTransferFields signature) >>= _ = _
    rw [hinspect, ok_run, ensure_run, if_pos ⟨rfl, rfl, rfl, rfl, rfl, rfl, rfl⟩]
  · have hdecoded : ∃ decoded, decodeSigned raw = .ok decoded := by
      unfold signatureOf at hsignature
      rw [run_ok] at hsignature
      exact ⟨_, hsignature.choose_spec.1⟩
    obtain ⟨decoded, hdecoded⟩ := hdecoded
    obtain ⟨p, rfl, hbound, rfl⟩ := decodeSigned_payloads hdecoded
    obtain ⟨⟨signature', h⟩, -⟩ := (inspect_encoded hbound).mp hinspect
    have hsame : signature' = signature := by
      unfold signatureOf at hsignature
      rw [hdecoded, ok_run, h.signed] at hsignature
      exact Except.ok.inj hsignature
    subst hsame
    have hcanonical : p.encoded = canonicalBytes d.toTransferFields signature' ↔ p.Minimal := by
      rw [canonicalBytes_eq, canonicalPayloads_inspected h, ← stripped_eq_self h]
      exact ⟨fun heq => (Payloads.encoded_inj hbound heq).symm, fun heq => by rw [heq]⟩
    rw [hcanonical]
    refine ⟨fun hminimal => ⟨p, rfl, hminimal⟩, fun hminimal => ?_⟩
    obtain ⟨q, hq, hminimal⟩ := hminimal
    rw [Payloads.encoded_inj hbound hq]
    exact hminimal

/-! ## The secret key one

Keccak and the curve are given by their values on one transfer signed with the key `1`. -/

def oneDigest : Octets 32 :=
  ⟨[0x82, 0x4b, 0x3f, 0xa6, 0xcf, 0x1b, 0x80, 0x89, 0xf3, 0xdc, 0x12, 0x6d, 0x8c, 0x82, 0x4d, 0x6f, 0xc0, 0xee,
   0xd2, 0xc8, 0x3a, 0x3f, 0x15, 0x88, 0x01, 0xf7, 0xed, 0xb6, 0x3b, 0xb5, 0x8a, 0xec], rfl⟩

def oneSignature : Signature :=
  ⟨0, ⟨[0x49, 0xc1, 0xc8, 0xfc, 0xb3, 0x54, 0xe1, 0x0d, 0x2a, 0x74, 0x6f, 0xa7, 0xd6, 0xc0, 0x0f, 0xd0, 0xb4, 0x20,
   0x09, 0xc6, 0xdf, 0xf7, 0x57, 0x4f, 0x89, 0x8e, 0x9b, 0xe0, 0xd8, 0xe1, 0x61, 0x17, 0x49, 0x78, 0x1a, 0x00,
   0xb5, 0x47, 0xd9, 0x3f, 0xbc, 0x8f, 0x08, 0x60, 0x37, 0xe5, 0xb5, 0x3f, 0xb0, 0x56, 0xe2, 0xc1, 0xfa, 0x5f,
   0xdf, 0xdf, 0x59, 0x13, 0x3d, 0x8f, 0x2d, 0xcf, 0xf1, 0xc0], rfl⟩⟩

def oneKey : Octets 65 :=
  ⟨[0x04, 0x79, 0xbe, 0x66, 0x7e, 0xf9, 0xdc, 0xbb, 0xac, 0x55, 0xa0, 0x62, 0x95, 0xce, 0x87, 0x0b, 0x07, 0x02,
   0x9b, 0xfc, 0xdb, 0x2d, 0xce, 0x28, 0xd9, 0x59, 0xf2, 0x81, 0x5b, 0x16, 0xf8, 0x17, 0x98, 0x48, 0x3a, 0xda,
   0x77, 0x26, 0xa3, 0xc4, 0x65, 0x5d, 0xa4, 0xfb, 0xfc, 0x0e, 0x11, 0x08, 0xa8, 0xfd, 0x17, 0xb4, 0x48, 0xa6,
   0x85, 0x54, 0x19, 0x9c, 0x47, 0xd0, 0x8f, 0xfb, 0x10, 0xd4, 0xb8], rfl⟩

def oneKeyHash : Octets 32 :=
  ⟨[0xc0, 0xa6, 0xc4, 0x24, 0xac, 0x71, 0x57, 0xae, 0x40, 0x83, 0x98, 0xdf, 0x7e, 0x5f, 0x45, 0x52, 0x09, 0x1a,
   0x69, 0x12, 0x5d, 0x5d, 0xfc, 0xb7, 0xb8, 0xc2, 0x65, 0x90, 0x29, 0x39, 0x5b, 0xdf], rfl⟩

def oneAddress : Octets 20 := ⟨oneKeyHash.val.drop 12, rfl⟩

def oneFields : TransferFields where
  recipient := ⟨List.replicate 20 0x11, rfl⟩
  amount := Uint256.fromU64 1000000
  nonce := Uint256.fromU64 7
  gasLimit := Uint256.fromU64 65000
  maxFeePerGas := Uint256.fromU64 200000000
  maxPriorityFeePerGas := Uint256.fromU64 100000000

def oneTransfer : PreparedTransfer :=
  ⟨oneFields, oneAddress, transferCalldata oneFields.recipient oneFields.amount, rfl⟩

def oneUnsigned : List Bytes := unsignedList baseUsdcAddress oneFields oneTransfer.calldata

def oneRawHash : Octets 32 :=
  ⟨[0x1b, 0x5d, 0xe8, 0xfd, 0x83, 0xf9, 0x7b, 0xc9, 0xfe, 0x06, 0x59, 0xec, 0x3a, 0xfb, 0x75, 0xaf, 0x52, 0x2e,
   0x71, 0xcc, 0x23, 0xb8, 0x8b, 0xd7, 0x2c, 0x17, 0x52, 0xb4, 0x7b, 0x29, 0x3f, 0x8c], rfl⟩

def zeroParityHash : Octets 32 :=
  ⟨[0xf2, 0x3b, 0x4f, 0x7e, 0xe2, 0x14, 0x4b, 0xc2, 0x0d, 0xc2, 0xb0, 0x00, 0x42, 0xe2, 0x0c, 0x84, 0x60, 0x7f,
   0x27, 0x2f, 0xcb, 0x1a, 0x56, 0xc2, 0xbc, 0xa0, 0x06, 0x2f, 0xd4, 0xc9, 0xba, 0x67], rfl⟩

def oneSecret : Octets 32 := Uint256.fromU64 1

/-- The signed transfer with its parity written as the byte zero instead of the empty string. -/
def zeroParityBytes : Bytes :=
  0x02 :: rlpList (oneUnsigned ++ [[0x00], rlpBytes (oneSignature.compact.val.take 32),
    rlpBytes (oneSignature.compact.val.drop 32)])

def oneCrypto : Crypto where
  keccak bytes :=
    if bytes = 0x02 :: rlpList oneUnsigned then oneDigest
    else if bytes = oneKey.val.drop 1 then oneKeyHash
    else if bytes = zeroParityBytes then zeroParityHash
    else oneRawHash
  validSecret secret := secret = oneSecret
  sign _ _ := oneSignature
  recover digest signature := if digest = oneDigest ∧ signature = oneSignature then some oneKey else none

theorem codec_exact_iff_minimal_one :
    (∃ d, signTransfer oneCrypto oneSecret oneTransfer = .ok d ∧ inspectSignedDetails oneCrypto d.raw = .ok d ∧
      matchesIntent d oneTransfer ∧ d.raw = canonicalBytes oneFields oneSignature) ∧
    ¬ MinimalScalars zeroParityBytes := by
  have hunsigned : unsignedFields oneTransfer = .ok oneUnsigned := by decide +kernel
  refine ⟨(codec_exact_iff_minimal oneCrypto).1 oneSecret oneTransfer oneUnsigned oneKey (by decide +kernel) hunsigned
    (by decide +kernel) (by decide +kernel) (by decide +kernel) (by decide +kernel), fun hminimal => ?_⟩
  have hinspect : inspectSignedDetails oneCrypto zeroParityBytes =
      .ok ⟨oneFields, zeroParityBytes, zeroParityHash, zeroParityHash, oneAddress⟩ := by decide +kernel
  have hcanonical := ((codec_exact_iff_minimal oneCrypto).2 zeroParityBytes _ oneSignature hinspect (by decide +kernel)).mpr
    hminimal
  exact absurd hcanonical (by decide +kernel)

/-- Two byte strings are accepted for one transfer and one signature. -/
theorem zero_parity_accepted :
    (∃ d, inspectSignedDetails oneCrypto zeroParityBytes = .ok d ∧ d.toTransferFields = oneFields ∧
      d.sender = oneAddress) ∧
    (∃ d, inspectSignedDetails oneCrypto (canonicalBytes oneFields oneSignature) = .ok d ∧ d.toTransferFields = oneFields ∧
      d.sender = oneAddress) ∧
    signatureOf zeroParityBytes = .ok oneSignature ∧
    signatureOf (canonicalBytes oneFields oneSignature) = .ok oneSignature ∧
    zeroParityBytes ≠ canonicalBytes oneFields oneSignature := by
  refine ⟨⟨⟨oneFields, zeroParityBytes, zeroParityHash, zeroParityHash, oneAddress⟩, by decide +kernel, rfl, rfl⟩,
    ⟨⟨oneFields, canonicalBytes oneFields oneSignature, oneRawHash, oneRawHash, oneAddress⟩, by decide +kernel, rfl, rfl⟩,
    by decide +kernel, by decide +kernel, by decide +kernel⟩

end PaymentNode.Native
