import PaymentNode.Lib.HexText
import PaymentNode.Ledger.Record
import PaymentNode.Gasless.UsdtScan

/-!
# Wire — the UserOperation of a gasless intent, and its validator

`gaslessUserOperation` offers an intent with a permit, an account signature, an authorization and prices;
`validateGaslessWire` takes a stored operation apart again, rebuilds it and compares.  A wire text is a list of
characters; a decimal text of the intent is its number.  What encodes and decodes a call is a parameter.
-/

namespace PaymentNode
namespace GaslessWire

abbrev Hex := List Char

def GASLESS_MAX_UINT : ℕ := 2 ^ 256 - 1

def GASLESS_MAX_UINT120 : ℕ := 2 ^ 120 - 1

def GASLESS_MAX_DATA : ℕ := 16 * 1024

def GASLESS_CHAINS : List ℕ := [1, 10, 130, 137, 8453, 42161, 43114]

def GASLESS_ZERO_ADDRESS : Hex := '0' :: 'x' :: List.replicate 40 '0'

def GASLESS_FACTORY : Hex := "0x7702000000000000000000000000000000000000".toList

def CURVE_ORDER : ℕ := 0xfffffffffffffffffffffffffffffffebaaedce6af48a03bbfd25e8cd0364141

def HALF_CURVE_ORDER : ℕ := CURVE_ORDER / 2

inductive WireVersion
  | v2
  | v3
  | v4
deriving DecidableEq, Repr

inductive GaslessDelegation
  | empty
  | expected
deriving DecidableEq, Repr

structure GaslessFees where
  maxFeePerGas : ℕ
  maxPriorityFeePerGas : ℕ
deriving DecidableEq, Repr

structure GaslessGas extends GaslessFees where
  verificationGasLimit : ℕ
  callGasLimit : ℕ
  paymasterVerificationGasLimit : ℕ
  paymasterPostOpGasLimit : ℕ
  preVerificationGas : ℕ
deriving DecidableEq, Repr

/-- What the wire reads of an intent. -/
structure GaslessIntent where
  /-- Absent on legacy journals. -/
  wireVersion : Option WireVersion
  chainId : ℕ
  recipient : Hex
  owner : Hex
  entryPointNonceAtomic : ℕ
  eoaNonceAtomic : ℕ
  delegation : GaslessDelegation
  gas : GaslessGas
  token : Hex
  paymaster : Hex
  entryPoint : Hex
  delegate : Hex
  feeCapAtomic : ℕ
  recipientAtomic : ℕ
  callData : Hex
deriving DecidableEq, Repr

structure GaslessAuthorization where
  chainId : Hex
  address : Hex
  nonce : Hex
  yParity : Hex
  r : Hex
  s : Hex
deriving DecidableEq, Repr

structure GaslessUserOperation where
  sender : Hex
  nonce : Hex
  factory : Option Hex
  factoryData : Option Hex
  callData : Hex
  callGasLimit : Hex
  verificationGasLimit : Hex
  preVerificationGas : Hex
  maxFeePerGas : Hex
  maxPriorityFeePerGas : Hex
  paymaster : Hex
  paymasterVerificationGasLimit : Hex
  paymasterPostOpGasLimit : Hex
  paymasterData : Hex
  signature : Hex
  eip7702Auth : Option GaslessAuthorization
deriving DecidableEq, Repr

structure GaslessBootstrap where
  permitSignature : Hex
  authorization : Option GaslessAuthorization
deriving DecidableEq, Repr

/-- The codec of the account's and the token's calls; `none` where it throws. -/
structure CallCodec where
  getAddress : Hex → Option Hex
  encodeTransfer : Hex → ℕ → Option Hex
  encodeApprove : Hex → ℕ → Option Hex
  encodeExecuteBatch : List (Hex × ℕ × Hex) → Option Hex
  decodeFunctionName : Hex → Option String

def wireFailure {α : Type} : GaslessResult α := .error "gasless_protocol_identity"

def gaslessUint (value : ℕ) (positive : Bool) : GaslessResult ℕ :=
  if GASLESS_MAX_UINT < value ∨ (positive = true ∧ value = 0) then .error "gasless_integer_bound" else .ok value

def hexShape (value : Hex) : Bool :=
  value.take 2 = ['0', 'x'] && value.length % 2 = 0 && (value.drop 2).all isHexDigit

def lower (value : Hex) : Hex := value.map Char.toLower

def gaslessHex (value : Hex) (maximum : ℕ) (bytes : Option ℕ) : GaslessResult Hex :=
  if hexShape value = false ∨ 2 + maximum * 2 < value.length ∨
      bytes.any (fun bytes => value.length ≠ 2 + bytes * 2) = true then .error "gasless_bounded_hex"
  else .ok (lower value)

def addressShape (value : Hex) : Bool := hexShape value && value.length = 42

def numberToHex (n : ℕ) : Hex := '0' :: 'x' :: Nat.toDigits 16 n

def quantity (value : ℕ) : GaslessResult Hex := gaslessUint value false >>= fun n => .ok (numberToHex n)

def word (value : ℕ) : GaslessResult Hex :=
  gaslessUint value false >>= fun n => .ok ('0' :: 'x' :: HexText.padded 64 n)

/-- `0x0`, or up to 32 lower-case digits without a leading zero. -/
def wireQuantity (value : Hex) : GaslessResult ℕ :=
  let digits := value.drop 2
  if value.take 2 = ['0', 'x'] ∧ (digits = ['0'] ∨ (digits ≠ [] ∧ digits.head? ≠ some '0' ∧ digits.length ≤ 32 ∧
      digits.all HexText.isLowerDigit = true)) then .ok (HexText.read digits)
  else wireFailure

def structuralSignature (value : Hex) : GaslessResult Hex :=
  gaslessHex value 65 (some 65) >>= fun signature =>
    let r := HexText.read ((signature.drop 2).take 64)
    let s := HexText.read ((signature.drop 66).take 64)
    let parity := signature.drop 130
    if (parity ≠ ['1', 'b'] ∧ parity ≠ ['1', 'c']) ∨ r = 0 ∨ CURVE_ORDER ≤ r ∨ s = 0 ∨ HALF_CURVE_ORDER < s then
      wireFailure
    else .ok signature

section Codec

variable (codec : CallCodec)

def gaslessAddress (value : Hex) : GaslessResult Hex :=
  if addressShape value = false then .error "gasless_address_shape"
  else (codec.getAddress value).elim (.error "gasless_address_checksum") .ok

def gaslessBatch (token recipient : Hex) (recipientAtomic : ℕ) (paymaster : Hex) : GaslessResult Hex :=
  gaslessAddress codec token >>= fun _ =>
  gaslessAddress codec recipient >>= fun _ =>
  gaslessAddress codec paymaster >>= fun _ =>
  if recipient = GASLESS_ZERO_ADDRESS ∨ recipient = token ∨ recipient = paymaster then wireFailure
  else
    gaslessUint recipientAtomic true >>= fun amount =>
      ((codec.encodeTransfer recipient amount).bind fun transfer =>
        (codec.encodeApprove paymaster 0).bind fun cleanup =>
          codec.encodeExecuteBatch [(token, 0, transfer), (token, 0, cleanup)]).elim wireFailure .ok

section

variable (intent : GaslessIntent)

def validateGaslessBatch : GaslessResult Unit :=
  if intent.recipient ∈ [intent.owner, intent.token, intent.paymaster, intent.entryPoint, intent.delegate] then
    wireFailure
  else
    gaslessBatch codec intent.token intent.recipient intent.recipientAtomic intent.paymaster >>= fun expected =>
    gaslessHex intent.callData GASLESS_MAX_DATA none >>= fun data =>
    if codec.decodeFunctionName data ≠ some "executeBatch" ∨ data ≠ expected then wireFailure else .ok ()

/-- v4 prices the operation after approval; earlier wires keep the prepared prices. -/
def gaslessWireFees (fees : Option GaslessFees) : GaslessResult GaslessFees :=
  if intent.wireVersion ≠ some .v4 then
    if fees.any (fun fees => fees ≠ intent.gas.toGaslessFees) then wireFailure else .ok intent.gas.toGaslessFees
  else
    match fees with
    | none => wireFailure
    | some fees =>
      gaslessUint fees.maxFeePerGas true >>= fun maximum =>
      gaslessUint fees.maxPriorityFeePerGas false >>= fun priority =>
      if GASLESS_MAX_UINT120 < maximum ∨ maximum < priority then wireFailure else .ok ⟨maximum, priority⟩

def usesEip7702Marker : Bool :=
  intent.wireVersion = none || intent.delegation = .empty

def validateAuthorization (value : GaslessAuthorization) :
    GaslessResult GaslessAuthorization :=
  quantity intent.chainId >>= fun chainId =>
  if value.chainId ≠ chainId ∨ value.address ≠ intent.delegate then wireFailure
  else
    quantity intent.eoaNonceAtomic >>= fun nonce =>
    if value.nonce ≠ nonce ∨ value.yParity ∉ ["0x0".toList, "0x1".toList] then wireFailure
    else
      gaslessHex value.r 32 (some 32) >>= fun r =>
      if r ≠ value.r then wireFailure
      else
        gaslessHex value.s 32 (some 32) >>= fun s =>
        if s ≠ value.s then wireFailure else .ok value

/-- The paymaster data before its permit: the mode, the token and the fee cap. -/
def paymasterPrefix (cap : Hex) : Hex :=
  '0' :: 'x' :: '0' :: '0' :: (lower (intent.token.drop 2) ++ cap.drop 2)

def parsePaymasterData (value : Hex) : GaslessResult Hex :=
  gaslessHex value 118 (some 118) >>= fun data =>
  word intent.feeCapAtomic >>= fun cap =>
  if (paymasterPrefix intent cap).isPrefixOf data = false then wireFailure
  else structuralSignature ('0' :: 'x' :: data.drop (2 + (1 + 20 + 32) * 2))

/-- The authorization an intent's delegation asks for. -/
def operationAuthorization (authorization : Option GaslessAuthorization) :
    GaslessResult (Option GaslessAuthorization) :=
  match authorization with
  | none => if intent.delegation ≠ .expected then wireFailure else .ok none
  | some authorization =>
    if intent.delegation ≠ .empty then wireFailure
    else validateAuthorization intent authorization >>= fun authorization => .ok (some authorization)

def gaslessUserOperation (bootstrap : GaslessBootstrap) (signature : Hex)
    (fees : Option GaslessFees) : GaslessResult GaslessUserOperation :=
  validateGaslessBatch codec intent >>= fun _ =>
  gaslessWireFees intent fees >>= fun priced =>
  structuralSignature bootstrap.permitSignature >>= fun permit =>
  structuralSignature signature >>= fun accountSignature =>
  quantity intent.entryPointNonceAtomic >>= fun nonce =>
  quantity intent.gas.callGasLimit >>= fun callGasLimit =>
  quantity intent.gas.verificationGasLimit >>= fun verificationGasLimit =>
  quantity intent.gas.preVerificationGas >>= fun preVerificationGas =>
  quantity priced.maxFeePerGas >>= fun maxFeePerGas =>
  quantity priced.maxPriorityFeePerGas >>= fun maxPriorityFeePerGas =>
  quantity intent.gas.paymasterVerificationGasLimit >>= fun paymasterVerificationGasLimit =>
  quantity intent.gas.paymasterPostOpGasLimit >>= fun paymasterPostOpGasLimit =>
  word intent.feeCapAtomic >>= fun cap =>
  operationAuthorization intent bootstrap.authorization >>= fun eip7702Auth =>
  .ok
    { sender := intent.owner
      nonce := nonce
      factory := if usesEip7702Marker intent then some GASLESS_FACTORY else none
      factoryData := if usesEip7702Marker intent then some ['0', 'x'] else none
      callData := intent.callData
      callGasLimit := callGasLimit
      verificationGasLimit := verificationGasLimit
      preVerificationGas := preVerificationGas
      maxFeePerGas := maxFeePerGas
      maxPriorityFeePerGas := maxPriorityFeePerGas
      paymaster := intent.paymaster
      paymasterVerificationGasLimit := paymasterVerificationGasLimit
      paymasterPostOpGasLimit := paymasterPostOpGasLimit
      paymasterData := lower ("0x00".toList ++ intent.token.drop 2 ++ cap.drop 2 ++ permit.drop 2)
      signature := accountSignature
      eip7702Auth := eip7702Auth }

/-- The record has exactly the fields of its intent's wire version and delegation. -/
def wireFields (value : GaslessUserOperation) : Bool :=
  value.factory.isSome = usesEip7702Marker intent && value.factoryData.isSome = usesEip7702Marker intent &&
    value.eip7702Auth.isSome = decide (intent.delegation = .empty)

def wireFees (value : GaslessUserOperation) : GaslessResult (Option GaslessFees) :=
  if intent.wireVersion = some .v4 then
    wireQuantity value.maxFeePerGas >>= fun maxFeePerGas =>
    wireQuantity value.maxPriorityFeePerGas >>= fun maxPriorityFeePerGas =>
    .ok (some ⟨maxFeePerGas, maxPriorityFeePerGas⟩)
  else .ok none

def wireAuthorization (value : GaslessUserOperation) :
    GaslessResult (Option GaslessAuthorization) :=
  match value.eip7702Auth with
  | none => .ok none
  | some authorization => validateAuthorization intent authorization >>= fun authorization => .ok (some authorization)

def validateGaslessWire (value : GaslessUserOperation) :
    GaslessResult GaslessUserOperation :=
  if wireFields intent value = false then .error "gasless_record_fields"
  else
    validateGaslessBatch codec intent >>= fun _ =>
    parsePaymasterData intent value.paymasterData >>= fun permit =>
    structuralSignature value.signature >>= fun _ =>
    wireAuthorization intent value >>= fun authorization =>
    wireFees intent value >>= fun fees =>
    gaslessUserOperation codec intent ⟨permit, authorization⟩ value.signature fees >>= fun rebuilt =>
    if rebuilt ≠ value then wireFailure else .ok value

/-- The prices a validated operation was signed with. -/
def gaslessSignedFees (value : GaslessUserOperation) : GaslessResult GaslessFees :=
  validateGaslessWire codec intent value >>= fun wire =>
  wireQuantity wire.maxFeePerGas >>= fun maxFeePerGas =>
  wireQuantity wire.maxPriorityFeePerGas >>= fun maxPriorityFeePerGas =>
  .ok ⟨maxFeePerGas, maxPriorityFeePerGas⟩

end

end Codec

/-! ## Frozen intents -/

/-- The limits of an offer, with the ceiling of each. -/
def gasQuantities (gas : GaslessGas) : List (ℕ × ℕ) :=
  [(gas.verificationGasLimit, 100000), (gas.callGasLimit, 250000), (gas.paymasterVerificationGasLimit, 700000),
    (gas.paymasterPostOpGasLimit, 200000), (gas.preVerificationGas, 150000)]

def validateGaslessGas (gas : GaslessGas) : GaslessResult GaslessGas :=
  if (gasQuantities gas).any (fun amount => amount.1 = 0 || amount.2 < amount.1) then .error "gasless_fee_budget"
  else if gas.maxFeePerGas = 0 ∨ GASLESS_MAX_UINT120 < gas.maxFeePerGas ∨
      gas.maxFeePerGas < gas.maxPriorityFeePerGas ∨ 1100000 < ((gasQuantities gas).map Prod.fst).sum ∨
      gas.paymasterPostOpGasLimit < 35000 then .error "gasless_fee_budget"
  else .ok gas

/-- An intent as prepared: its offer passed the gas check, and its other numbers are 256-bit words. -/
structure FrozenIntent extends GaslessIntent where
  chain : chainId ∈ GASLESS_CHAINS
  entryPointNonce : entryPointNonceAtomic ≤ GASLESS_MAX_UINT
  eoaNonce : eoaNonceAtomic ≤ GASLESS_MAX_UINT
  feeCap : feeCapAtomic ≤ GASLESS_MAX_UINT
  offer : validateGaslessGas gas = .ok gas

section Texts

variable {n : ℕ} {value permit : Hex}

/-- A lower-case hexadecimal text. -/
structure Lowered (value : Hex) : Prop where
  start : value.take 2 = ['0', 'x']
  digits : ∀ c ∈ value.drop 2, HexText.isLowerDigit c = true

theorem error_guard {α : Type} {c : Prop} [Decidable c] {e : String} {x : GaslessResult α} {a : α} :
    (if c then .error e else x) = .ok a ↔ ¬ c ∧ x = .ok a := by
  by_cases hc : c <;> simp [hc]

theorem gaslessUint_ok (h : n ≤ GASLESS_MAX_UINT) : gaslessUint n false = .ok n := by
  unfold gaslessUint
  exact if_neg (by simp; omega)

theorem quantity_ok (h : n ≤ GASLESS_MAX_UINT) : quantity n = .ok (numberToHex n) := by
  unfold quantity
  rw [gaslessUint_ok h]
  rfl

theorem word_ok (h : n ≤ GASLESS_MAX_UINT) : word n = .ok ('0' :: 'x' :: HexText.padded 64 n) := by
  unfold word
  rw [gaslessUint_ok h]
  rfl

-- A price is read back from the wire.
theorem wireQuantity_numberToHex (h : n < 2 ^ 128) : wireQuantity (numberToHex n) = .ok n := by
  have hdrop : (numberToHex n).drop 2 = Nat.toDigits 16 n := rfl
  unfold wireQuantity
  dsimp only
  rw [hdrop, HexText.read_toDigits]
  refine if_pos ⟨rfl, ?_⟩
  by_cases hn : n = 0
  · rw [hn]
    exact Or.inl rfl
  · have hlength : (Nat.toDigits 16 n).length ≤ 32 :=
      (Nat.length_toDigits_le_iff (by decide) (by decide)).mpr (by omega)
    refine Or.inr ⟨Nat.toDigits_ne_nil, HexText.head_toDigits hn, hlength, ?_⟩
    rw [List.all_eq_true]
    exact HexText.isLowerDigit_of_mem_toDigits

theorem Lowered.lower_eq (h : Lowered value) : lower value = value := by
  have hdrop : lower (value.drop 2) = value.drop 2 := HexText.map_toLower_of_lower h.digits
  rw [← List.take_append_drop 2 value, lower, List.map_append, h.start]
  exact congrArg _ hdrop

theorem Lowered.hexShape (h : Lowered value) (heven : value.length % 2 = 0) : hexShape value = true := by
  have hdigits : (value.drop 2).all isHexDigit = true := by
    rw [List.all_eq_true]
    exact fun c hc => HexText.isDigit_of_lower (h.digits c hc)
  unfold GaslessWire.hexShape
  rw [h.start, heven, hdigits]
  rfl

theorem lowered_of_shape (h : hexShape value = true) : Lowered (lower value) := by
  unfold hexShape at h
  simp only [Bool.and_eq_true, decide_eq_true_eq] at h
  rcases h with ⟨⟨hstart, _⟩, hdigits⟩
  constructor
  · rw [lower, ← List.map_take, hstart]
    decide
  · intro c hc
    rw [lower, ← List.map_drop] at hc
    rcases List.mem_map.mp hc with ⟨d, hd, rfl⟩
    exact HexText.isLowerDigit_toLower (List.all_eq_true.mp hdigits d hd)

theorem gaslessHex_ok {maximum : ℕ} {bytes : Option ℕ} {data : Hex} (h : gaslessHex value maximum bytes = .ok data) :
    data = lower value ∧ Lowered data ∧ (∀ n, bytes = some n → data.length = 2 + n * 2) := by
  unfold gaslessHex at h
  rcases error_guard.mp h with ⟨hshape, hdata⟩
  cases hdata
  rw [not_or, not_or] at hshape
  refine ⟨rfl, lowered_of_shape (by simpa using hshape.1), ?_⟩
  rintro n rfl
  have hlength := hshape.2.2
  simp only [Option.any_some, ne_eq, decide_eq_true_eq, not_not] at hlength
  rw [lower, List.length_map]
  exact hlength

-- A lowered text of its length passes as it is.
theorem gaslessHex_lowered {bytes : ℕ} (h : Lowered value) (hlength : value.length = 2 + bytes * 2) :
    gaslessHex value bytes (some bytes) = .ok value := by
  unfold gaslessHex
  rw [if_neg, h.lower_eq]
  rw [h.hexShape (by omega)]
  simp [hlength]

theorem structuralSignature_ok (h : structuralSignature value = .ok permit) :
    Lowered permit ∧ permit.length = 132 ∧ structuralSignature permit = .ok permit := by
  unfold structuralSignature at h
  rcases bind_ok.mp h with ⟨signature, hhex, h⟩
  rcases gaslessHex_ok hhex with ⟨_, hlowered, hlength⟩
  have hchecked := h
  rcases error_guard.mp h with ⟨_, hpermit⟩
  cases hpermit
  have hsize := hlength 65 rfl
  refine ⟨hlowered, hsize, ?_⟩
  unfold structuralSignature
  rw [gaslessHex_lowered hlowered hsize]
  exact hchecked

end Texts

/-! ## Offers -/

section Offers

variable {codec : CallCodec} {intent : FrozenIntent}

/-- The paymaster data of an intent and a permit. -/
def offeredPaymasterData (intent : GaslessIntent) (permit : Hex) : Hex :=
  paymasterPrefix intent ('0' :: 'x' :: HexText.padded 64 intent.feeCapAtomic) ++ permit.drop 2

/-- The operation of an intent, with its free parts. -/
def offered (intent : GaslessIntent) (priced : GaslessFees) (permit signature : Hex)
    (authorization : Option GaslessAuthorization) : GaslessUserOperation where
  sender := intent.owner
  nonce := numberToHex intent.entryPointNonceAtomic
  factory := if usesEip7702Marker intent then some GASLESS_FACTORY else none
  factoryData := if usesEip7702Marker intent then some ['0', 'x'] else none
  callData := intent.callData
  callGasLimit := numberToHex intent.gas.callGasLimit
  verificationGasLimit := numberToHex intent.gas.verificationGasLimit
  preVerificationGas := numberToHex intent.gas.preVerificationGas
  maxFeePerGas := numberToHex priced.maxFeePerGas
  maxPriorityFeePerGas := numberToHex priced.maxPriorityFeePerGas
  paymaster := intent.paymaster
  paymasterVerificationGasLimit := numberToHex intent.gas.paymasterVerificationGasLimit
  paymasterPostOpGasLimit := numberToHex intent.gas.paymasterPostOpGasLimit
  paymasterData := offeredPaymasterData intent permit
  signature := signature
  eip7702Auth := authorization

theorem FrozenIntent.gas_bounds (intent : FrozenIntent) :
    (∀ amount ∈ gasQuantities intent.gas, amount.1 ≤ GASLESS_MAX_UINT) ∧
      intent.gas.maxFeePerGas ≤ GASLESS_MAX_UINT120 ∧
        intent.gas.maxPriorityFeePerGas ≤ intent.gas.maxFeePerGas := by
  have hoffer := intent.offer
  unfold validateGaslessGas at hoffer
  rcases error_guard.mp hoffer with ⟨hamounts, hoffer⟩
  have hprices := (error_guard.mp hoffer).1
  refine ⟨?_, by omega, by omega⟩
  intro amount hamount
  have hceiling : amount.1 ≤ amount.2 := by
    by_contra hover
    exact hamounts (List.any_eq_true.mpr ⟨amount, hamount, by simp; omega⟩)
  have hsmall : ∀ amount ∈ gasQuantities intent.gas, amount.2 ≤ 700000 := by
    simp [gasQuantities]
  have hle := hsmall amount hamount
  unfold GASLESS_MAX_UINT
  omega

-- Accepted prices are 120-bit numbers, and are the intent's own before v4.
theorem gaslessWireFees_ok {fees : Option GaslessFees} {priced : GaslessFees}
    (h : gaslessWireFees intent.toGaslessIntent fees = .ok priced) :
    priced.maxFeePerGas ≤ GASLESS_MAX_UINT120 ∧ priced.maxPriorityFeePerGas ≤ GASLESS_MAX_UINT120 ∧
      (∀ given, fees = some given → priced = given) ∧
      gaslessWireFees intent.toGaslessIntent
        (if intent.wireVersion = some .v4 then some priced else none) = .ok priced ∧
      (intent.wireVersion ≠ some .v4 → priced = intent.gas.toGaslessFees) := by
  have hgas := intent.gas_bounds.2
  by_cases hversion : intent.wireVersion = some .v4
  · have hfees := h
    unfold gaslessWireFees at h
    rw [if_neg (not_not.mpr hversion)] at h
    cases hgiven : fees with
    | none =>
      rw [hgiven] at h
      cases h
    | some given =>
      rw [hgiven] at h
      rcases bind_ok.mp h with ⟨maximum, hmaximum, h⟩
      rcases bind_ok.mp h with ⟨priority, hpriority, h⟩
      rcases error_guard.mp h with ⟨hbounds, h⟩
      cases h
      cases (error_guard.mp hmaximum).2
      cases (error_guard.mp hpriority).2
      rw [hgiven] at hfees
      refine ⟨by dsimp only; omega, by dsimp only; omega, ?_, ?_, fun hnot => absurd hversion hnot⟩
      · intro other hother
        cases hother
        rfl
      · rw [if_pos hversion]
        exact hfees
  · unfold gaslessWireFees at h ⊢
    rw [if_pos hversion] at h ⊢
    rcases error_guard.mp h with ⟨hsame, h⟩
    cases h
    refine ⟨hgas.1, by omega, ?_, by rw [if_neg hversion]; rfl, fun _ => rfl⟩
    rintro given rfl
    simpa using (Eq.symm (by simpa using hsame))

theorem batch_token (h : validateGaslessBatch codec intent.toGaslessIntent = .ok ()) :
    hexShape intent.token = true ∧ intent.token.length = 42 := by
  unfold validateGaslessBatch at h
  rcases bind_ok.mp (error_guard.mp h).2 with ⟨_, hbatch, _⟩
  unfold gaslessBatch at hbatch
  rcases bind_ok.mp hbatch with ⟨_, htoken, _⟩
  unfold gaslessAddress at htoken
  have hshape := (error_guard.mp htoken).1
  unfold addressShape at hshape
  simpa using hshape

theorem lower_append (a b : Hex) : lower (a ++ b) = lower a ++ lower b := List.map_append

theorem lower_padded (n : ℕ) : lower (HexText.padded 64 n) = HexText.padded 64 n :=
  HexText.map_toLower_of_lower HexText.isLowerDigit_of_mem_padded

theorem lower_drop_of_lowered {permit : Hex} (h : Lowered permit) : lower (permit.drop 2) = permit.drop 2 :=
  HexText.map_toLower_of_lower h.digits

-- The data the code concatenates.
theorem offeredPaymasterData_eq {permit : Hex} (h : Lowered permit) :
    lower ("0x00".toList ++ intent.token.drop 2 ++
        ('0' :: 'x' :: HexText.padded 64 intent.feeCapAtomic).drop 2 ++ permit.drop 2) =
      offeredPaymasterData intent.toGaslessIntent permit := by
  have hcap : ('0' :: 'x' :: HexText.padded 64 intent.feeCapAtomic).drop 2 = HexText.padded 64 intent.feeCapAtomic :=
    rfl
  rw [hcap, lower_append, lower_append, lower_append, lower_padded, lower_drop_of_lowered h]
  rfl

theorem length_paymasterPrefix (htoken : intent.token.length = 42) :
    (paymasterPrefix intent.toGaslessIntent ('0' :: 'x' :: HexText.padded 64 intent.feeCapAtomic)).length = 108 := by
  have hcap := @HexText.length_padded 64 _ (by decide) (show intent.feeCapAtomic < 16 ^ 64 by
    have hbound := intent.feeCap
    unfold GASLESS_MAX_UINT at hbound
    omega)
  unfold paymasterPrefix
  simp [lower, hcap, htoken]

theorem lowered_offeredPaymasterData {permit : Hex} (htoken : hexShape intent.token = true) (h : Lowered permit) :
    Lowered (offeredPaymasterData intent.toGaslessIntent permit) where
  start := rfl
  digits := by
    intro c hc
    have hdigits : c ∈ '0' :: '0' :: ((lower (intent.token.drop 2) ++ HexText.padded 64 intent.feeCapAtomic) ++
        permit.drop 2) := hc
    rcases List.mem_cons.mp hdigits with rfl | hdigits
    · decide
    rcases List.mem_cons.mp hdigits with rfl | hdigits
    · decide
    rcases List.mem_append.mp hdigits with hdigits | hpermit
    · rcases List.mem_append.mp hdigits with htext | hcap
      · have hlowered := lowered_of_shape htoken
        rw [lower, List.map_drop] at htext
        exact hlowered.digits c htext
      · exact HexText.isLowerDigit_of_mem_padded c hcap
    · exact h.digits c hpermit

-- A permit is found again in the data it was put in.
theorem parsePaymasterData_offered {permit : Hex} (htoken : hexShape intent.token = true)
    (hlength : intent.token.length = 42) (h : structuralSignature permit = .ok permit) :
    parsePaymasterData intent.toGaslessIntent (offeredPaymasterData intent.toGaslessIntent permit) = .ok permit := by
  rcases structuralSignature_ok h with ⟨hlowered, hsize, _⟩
  have hprefix := length_paymasterPrefix hlength
  have hdata : (offeredPaymasterData intent.toGaslessIntent permit).length = 2 + 118 * 2 := by
    unfold offeredPaymasterData
    rw [List.length_append, hprefix, List.length_drop, hsize]
  unfold parsePaymasterData
  rw [gaslessHex_lowered (lowered_offeredPaymasterData htoken hlowered) hdata]
  simp only [bind, Except.bind]
  rw [word_ok intent.feeCap]
  dsimp only
  have hstarts : (paymasterPrefix intent.toGaslessIntent ('0' :: 'x' :: HexText.padded 64 intent.feeCapAtomic)).isPrefixOf
      (offeredPaymasterData intent.toGaslessIntent permit) = true := by
    rw [List.isPrefixOf_iff_prefix]
    exact List.prefix_append _ _
  rw [if_neg (by rw [hstarts]; decide)]
  have hdrop : (offeredPaymasterData intent.toGaslessIntent permit).drop (2 + (1 + 20 + 32) * 2) = permit.drop 2 := by
    unfold offeredPaymasterData
    exact List.drop_left' hprefix
  rw [hdrop]
  have hpermit : '0' :: 'x' :: permit.drop 2 = permit := by
    have hsplit := List.take_append_drop 2 permit
    rw [hlowered.start] at hsplit
    exact hsplit
  rw [hpermit]
  exact h

-- What the operation of a frozen intent is.
theorem gaslessUserOperation_ok {bootstrap : GaslessBootstrap} {signature : Hex} {fees : Option GaslessFees}
    {wire : GaslessUserOperation} :
    gaslessUserOperation codec intent.toGaslessIntent bootstrap signature fees = .ok wire ↔
      validateGaslessBatch codec intent.toGaslessIntent = .ok () ∧
        ∃ priced permit accountSignature authorization,
          gaslessWireFees intent.toGaslessIntent fees = .ok priced ∧
          structuralSignature bootstrap.permitSignature = .ok permit ∧
          structuralSignature signature = .ok accountSignature ∧
          operationAuthorization intent.toGaslessIntent bootstrap.authorization = .ok authorization ∧
          wire = offered intent.toGaslessIntent priced permit accountSignature authorization := by
  have hamounts := intent.gas_bounds.1
  have hquantity : ∀ amount ∈ gasQuantities intent.gas, quantity amount.1 = .ok (numberToHex amount.1) :=
    fun amount hamount => quantity_ok (hamounts amount hamount)
  have hcall := hquantity (intent.gas.callGasLimit, 250000) (by simp [gasQuantities])
  have hverification := hquantity (intent.gas.verificationGasLimit, 100000) (by simp [gasQuantities])
  have hpre := hquantity (intent.gas.preVerificationGas, 150000) (by simp [gasQuantities])
  have hpaymaster := hquantity (intent.gas.paymasterVerificationGasLimit, 700000) (by simp [gasQuantities])
  have hpostOp := hquantity (intent.gas.paymasterPostOpGasLimit, 200000) (by simp [gasQuantities])
  dsimp only at hcall hverification hpre hpaymaster hpostOp
  have hbuilt : ∀ priced permit accountSignature, gaslessWireFees intent.toGaslessIntent fees = .ok priced →
      structuralSignature bootstrap.permitSignature = .ok permit →
      structuralSignature signature = .ok accountSignature →
      validateGaslessBatch codec intent.toGaslessIntent = .ok () →
      gaslessUserOperation codec intent.toGaslessIntent bootstrap signature fees =
        (operationAuthorization intent.toGaslessIntent bootstrap.authorization >>= fun authorization =>
          .ok (offered intent.toGaslessIntent priced permit accountSignature authorization)) := by
    intro priced permit accountSignature hfees hpermit hsignature hbatch
    rcases gaslessWireFees_ok hfees with ⟨hmaximum, hpriority, _⟩
    have hmax : GASLESS_MAX_UINT120 ≤ GASLESS_MAX_UINT := by decide
    unfold gaslessUserOperation
    rw [hbatch, hfees, hpermit, hsignature]
    simp only [bind, Except.bind]
    rw [quantity_ok intent.entryPointNonce, hcall, hverification, hpre, quantity_ok (by omega),
      quantity_ok (by omega), hpaymaster, hpostOp, word_ok intent.feeCap]
    simp only [offeredPaymasterData_eq (structuralSignature_ok hpermit).1]
    rfl
  constructor
  · intro h
    have hparts := h
    unfold gaslessUserOperation at hparts
    rcases bind_ok.mp hparts with ⟨_, hbatch, hparts⟩
    rcases bind_ok.mp hparts with ⟨priced, hfees, hparts⟩
    rcases bind_ok.mp hparts with ⟨permit, hpermit, hparts⟩
    rcases bind_ok.mp hparts with ⟨accountSignature, hsignature, _⟩
    rw [hbuilt priced permit accountSignature hfees hpermit hsignature hbatch] at h
    rcases bind_ok.mp h with ⟨authorization, hauthorization, h⟩
    cases h
    exact ⟨hbatch, priced, permit, accountSignature, authorization, hfees, hpermit, hsignature, hauthorization, rfl⟩
  · rintro ⟨hbatch, priced, permit, accountSignature, authorization, hfees, hpermit, hsignature, hauthorization, rfl⟩
    rw [hbuilt priced permit accountSignature hfees hpermit hsignature hbatch, hauthorization]
    rfl

theorem validateAuthorization_ok {value authorization : GaslessAuthorization}
    (h : validateAuthorization intent.toGaslessIntent value = .ok authorization) :
    authorization = value ∧ value.chainId = numberToHex intent.chainId ∧ value.address = intent.delegate ∧
      value.nonce = numberToHex intent.eoaNonceAtomic := by
  have hchain : intent.chainId ≤ GASLESS_MAX_UINT := by
    have hsmall : ∀ chain ∈ GASLESS_CHAINS, chain ≤ GASLESS_MAX_UINT := by decide
    exact hsmall _ intent.chain
  unfold validateAuthorization at h
  rcases bind_ok.mp h with ⟨chainId, hchainId, h⟩
  rcases error_guard.mp h with ⟨hbound, h⟩
  rcases bind_ok.mp h with ⟨nonce, hnonce, h⟩
  rcases error_guard.mp h with ⟨hnonces, h⟩
  rcases bind_ok.mp h with ⟨_, _, h⟩
  rcases bind_ok.mp (error_guard.mp h).2 with ⟨_, _, h⟩
  have hvalue := (error_guard.mp h).2
  cases hvalue
  rw [quantity_ok hchain] at hchainId
  rw [quantity_ok intent.eoaNonce] at hnonce
  cases hchainId
  cases hnonce
  rw [not_or, ne_eq, not_not] at hbound hnonces
  exact ⟨rfl, hbound.1, not_not.mp hbound.2, hnonces.1⟩

/-- The authorization of an intent: one that is valid for it where the account is not delegated yet, else none. -/
def ValidAuthorization (intent : GaslessIntent) (authorization : Option GaslessAuthorization) : Prop :=
  (intent.delegation = .expected → authorization = none) ∧
    (intent.delegation = .empty → ∃ value, authorization = some value ∧ validateAuthorization intent value = .ok value)

theorem operationAuthorization_ok {given authorization : Option GaslessAuthorization} :
    operationAuthorization intent.toGaslessIntent given = .ok authorization ↔
      authorization = given ∧ ValidAuthorization intent.toGaslessIntent given := by
  unfold operationAuthorization ValidAuthorization
  cases given with
  | none =>
    cases hdelegation : intent.delegation with
    | empty => simp [wireFailure]
    | expected => simp [eq_comm]
  | some value =>
    cases hdelegation : intent.delegation with
    | empty =>
      constructor
      · intro h
        rcases bind_ok.mp (error_guard.mp h).2 with ⟨checked, hchecked, h⟩
        cases h
        cases (validateAuthorization_ok hchecked).1
        exact ⟨rfl, fun hexpected => (by cases hexpected), fun _ => ⟨_, rfl, hchecked⟩⟩
      · rintro ⟨rfl, _, hempty⟩
        rcases hempty rfl with ⟨value', hsame, hvalid⟩
        cases hsame
        dsimp only
        rw [if_neg (by decide), hvalid]
        rfl
    | expected => simp [wireFailure]

-- The three parts a validator checks of an authorization it finds.
theorem wireAuthorization_ok {value : GaslessUserOperation} {authorization : Option GaslessAuthorization}
    (hvalid : ValidAuthorization intent.toGaslessIntent authorization) (h : value.eip7702Auth = authorization) :
    wireAuthorization intent.toGaslessIntent value = .ok authorization ∧
      value.eip7702Auth.isSome = decide (intent.delegation = .empty) := by
  unfold wireAuthorization
  rw [h]
  cases hdelegation : intent.delegation with
  | empty =>
    rcases hvalid.2 hdelegation with ⟨found, rfl, hfound⟩
    dsimp only
    rw [hfound]
    exact ⟨rfl, rfl⟩
  | expected =>
    cases hvalid.1 hdelegation
    exact ⟨rfl, rfl⟩

/-! ## Round trips -/

-- An offer of accepted prices is priced as it was asked.
theorem wireQuantity_price {n : ℕ} (h : n ≤ GASLESS_MAX_UINT120) : wireQuantity (numberToHex n) = .ok n := by
  have hbound : GASLESS_MAX_UINT120 < 2 ^ 128 := by decide
  exact wireQuantity_numberToHex (by omega)

-- What is offered is validated.
theorem validate_offered {fees : Option GaslessFees} {priced : GaslessFees} {permit accountSignature : Hex}
    {authorization : Option GaslessAuthorization} (hbatch : validateGaslessBatch codec intent.toGaslessIntent = .ok ())
    (hfees : gaslessWireFees intent.toGaslessIntent fees = .ok priced)
    (hpermit : structuralSignature permit = .ok permit)
    (hsignature : structuralSignature accountSignature = .ok accountSignature)
    (hvalid : ValidAuthorization intent.toGaslessIntent authorization) :
    validateGaslessWire codec intent.toGaslessIntent
        (offered intent.toGaslessIntent priced permit accountSignature authorization) =
      .ok (offered intent.toGaslessIntent priced permit accountSignature authorization) := by
  rcases gaslessWireFees_ok hfees with ⟨hmaximum, hpriority, _, hagain, _⟩
  rcases wireAuthorization_ok hvalid
    (show (offered intent.toGaslessIntent priced permit accountSignature authorization).eip7702Auth = authorization
      from rfl) with ⟨hauthorization, hpresent⟩
  rcases batch_token hbatch with ⟨htoken, hlength⟩
  have hfields : wireFields intent.toGaslessIntent
      (offered intent.toGaslessIntent priced permit accountSignature authorization) = true := by
    unfold wireFields
    rw [hpresent]
    cases hmarker : usesEip7702Marker intent.toGaslessIntent with
    | true => simp [offered, hmarker]
    | false => simp [offered, hmarker]
  have hwireFees : wireFees intent.toGaslessIntent
      (offered intent.toGaslessIntent priced permit accountSignature authorization) =
        .ok (if intent.wireVersion = some .v4 then some priced else none) := by
    unfold wireFees
    by_cases hversion : intent.wireVersion = some .v4
    · rw [if_pos hversion, if_pos hversion]
      show (wireQuantity (numberToHex priced.maxFeePerGas) >>= _) = _
      rw [wireQuantity_price hmaximum]
      show (wireQuantity (numberToHex priced.maxPriorityFeePerGas) >>= _) = _
      rw [wireQuantity_price hpriority]
      rfl
    · rw [if_neg hversion, if_neg hversion]
  have hrebuilt := (@gaslessUserOperation_ok codec intent ⟨permit, authorization⟩ accountSignature
    (if intent.wireVersion = some .v4 then some priced else none)
    (offered intent.toGaslessIntent priced permit accountSignature authorization)).mpr
      ⟨hbatch, priced, permit, accountSignature, authorization, hagain, hpermit, hsignature,
        operationAuthorization_ok.mpr ⟨rfl, hvalid⟩, rfl⟩
  unfold validateGaslessWire
  rw [hfields, if_neg (by decide), hbatch]
  simp only [bind, Except.bind]
  rw [show (offered intent.toGaslessIntent priced permit accountSignature authorization).paymasterData =
    offeredPaymasterData intent.toGaslessIntent permit from rfl, parsePaymasterData_offered htoken hlength hpermit,
    show (offered intent.toGaslessIntent priced permit accountSignature authorization).signature = accountSignature
      from rfl, hsignature, hauthorization, hwireFees]
  dsimp only
  rw [hrebuilt]
  exact if_neg (not_not.mpr rfl)

-- What is validated was offered.
theorem offered_of_validate {value wire : GaslessUserOperation}
    (h : validateGaslessWire codec intent.toGaslessIntent value = .ok wire) :
    wire = value ∧ validateGaslessBatch codec intent.toGaslessIntent = .ok () ∧
      ∃ priced permit accountSignature authorization fees, gaslessWireFees intent.toGaslessIntent fees = .ok priced ∧
        structuralSignature permit = .ok permit ∧ structuralSignature accountSignature = .ok accountSignature ∧
        ValidAuthorization intent.toGaslessIntent authorization ∧
        gaslessUserOperation codec intent.toGaslessIntent ⟨permit, authorization⟩ accountSignature fees = .ok value ∧
        value = offered intent.toGaslessIntent priced permit accountSignature authorization := by
  unfold validateGaslessWire at h
  rcases bind_ok.mp (error_guard.mp h).2 with ⟨_, hbatch, h⟩
  rcases bind_ok.mp h with ⟨permit, hparsed, h⟩
  rcases bind_ok.mp h with ⟨_, _, h⟩
  rcases bind_ok.mp h with ⟨given, _, h⟩
  rcases bind_ok.mp h with ⟨fees, _, h⟩
  rcases bind_ok.mp h with ⟨rebuilt, hrebuilt, h⟩
  rcases error_guard.mp h with ⟨hsame, h⟩
  cases h
  cases not_not.mp hsame
  have hpermit : structuralSignature permit = .ok permit := by
    unfold parsePaymasterData at hparsed
    rcases bind_ok.mp hparsed with ⟨_, _, hparsed⟩
    rcases bind_ok.mp hparsed with ⟨_, _, hparsed⟩
    exact (structuralSignature_ok (error_guard.mp hparsed).2).2.2
  rcases gaslessUserOperation_ok.mp hrebuilt with
    ⟨_, priced, permit', accountSignature, authorization, hfees, hpermit', hsignature, hauthorization, hoffered⟩
  rw [hpermit] at hpermit'
  cases hpermit'
  rcases operationAuthorization_ok.mp hauthorization with ⟨rfl, hvalid⟩
  have hsigned : structuralSignature accountSignature = .ok accountSignature := (structuralSignature_ok hsignature).2.2
  refine ⟨rfl, hbatch, priced, permit, accountSignature, authorization, fees, hfees, hpermit, hsigned, hvalid, ?_, hoffered⟩
  exact gaslessUserOperation_ok.mpr ⟨hbatch, priced, permit, accountSignature, authorization, hfees, hpermit, hsigned,
    hauthorization, hoffered⟩

/-- A wire without its free parts: the three signatures, and the prices of a v4 wire. -/
def boundPart (intent : GaslessIntent) (wire : GaslessUserOperation) : GaslessUserOperation :=
  { wire with
    paymasterData := wire.paymasterData.take 108
    signature := []
    eip7702Auth := wire.eip7702Auth.map fun authorization => { authorization with yParity := [], r := [], s := [] }
    maxFeePerGas := if intent.wireVersion = some .v4 then [] else wire.maxFeePerGas
    maxPriorityFeePerGas := if intent.wireVersion = some .v4 then [] else wire.maxPriorityFeePerGas }

theorem boundPart_offered {fees fees' : Option GaslessFees} {priced priced' : GaslessFees}
    {permit permit' accountSignature accountSignature' : Hex} {authorization authorization' : Option GaslessAuthorization}
    (hlength : intent.token.length = 42)
    (hfees : gaslessWireFees intent.toGaslessIntent fees = .ok priced)
    (hfees' : gaslessWireFees intent.toGaslessIntent fees' = .ok priced')
    (hvalid : ValidAuthorization intent.toGaslessIntent authorization)
    (hvalid' : ValidAuthorization intent.toGaslessIntent authorization') :
    boundPart intent.toGaslessIntent (offered intent.toGaslessIntent priced permit accountSignature authorization) =
      boundPart intent.toGaslessIntent
        (offered intent.toGaslessIntent priced' permit' accountSignature' authorization') := by
  have hdata : ∀ permit, (offeredPaymasterData intent.toGaslessIntent permit).take 108 =
      paymasterPrefix intent.toGaslessIntent ('0' :: 'x' :: HexText.padded 64 intent.feeCapAtomic) :=
    fun permit => List.take_left' (length_paymasterPrefix hlength)
  have hauthorization : (authorization.map fun value => { value with yParity := [], r := [], s := [] }) =
      authorization'.map fun value => { value with yParity := [], r := [], s := [] } := by
    cases hdelegation : intent.delegation with
    | expected => rw [hvalid.1 hdelegation, hvalid'.1 hdelegation]
    | empty =>
      rcases hvalid.2 hdelegation with ⟨value, rfl, hvalue⟩
      rcases hvalid'.2 hdelegation with ⟨value', rfl, hvalue'⟩
      rcases validateAuthorization_ok hvalue with ⟨_, hchain, haddress, hnonce⟩
      rcases validateAuthorization_ok hvalue' with ⟨_, hchain', haddress', hnonce'⟩
      rw [Option.map_some, Option.map_some, hchain, haddress, hnonce, hchain', haddress', hnonce']
  have hprices : intent.wireVersion ≠ some .v4 → priced = priced' := by
    intro hversion
    rw [(gaslessWireFees_ok hfees).2.2.2.2 hversion, (gaslessWireFees_ok hfees').2.2.2.2 hversion]
  unfold boundPart offered
  dsimp only
  rw [hdata, hdata, hauthorization]
  by_cases hversion : intent.wireVersion = some .v4
  · simp only [if_pos hversion]
  · rw [hprices hversion]

/-- A stored operation is an offer of its intent, and every offer can be stored. -/
theorem gaslessWire_exact (codec : CallCodec) (intent : FrozenIntent) :
    (∀ bootstrap signature fees permit accountSignature priced,
      validateGaslessBatch codec intent.toGaslessIntent = .ok () →
      structuralSignature bootstrap.permitSignature = .ok permit →
      structuralSignature signature = .ok accountSignature →
      ValidAuthorization intent.toGaslessIntent bootstrap.authorization →
      gaslessWireFees intent.toGaslessIntent fees = .ok priced →
      ∃ wire, gaslessUserOperation codec intent.toGaslessIntent bootstrap signature fees = .ok wire ∧
        validateGaslessWire codec intent.toGaslessIntent wire = .ok wire ∧
        gaslessSignedFees codec intent.toGaslessIntent wire = .ok priced ∧
        ∀ given, fees = some given → priced = given) ∧
    (∀ value wire, validateGaslessWire codec intent.toGaslessIntent value = .ok wire →
      wire = value ∧ ∃ bootstrap signature fees,
        structuralSignature bootstrap.permitSignature = .ok bootstrap.permitSignature ∧
        structuralSignature signature = .ok signature ∧
        ValidAuthorization intent.toGaslessIntent bootstrap.authorization ∧
        gaslessUserOperation codec intent.toGaslessIntent bootstrap signature fees = .ok value) ∧
    (∀ one two, validateGaslessWire codec intent.toGaslessIntent one = .ok one →
      validateGaslessWire codec intent.toGaslessIntent two = .ok two →
      boundPart intent.toGaslessIntent one = boundPart intent.toGaslessIntent two) := by
  refine ⟨?_, ?_, ?_⟩
  · intro bootstrap signature fees permit accountSignature priced hbatch hpermit hsignature hvalid hfees
    have hoperation := (@gaslessUserOperation_ok codec intent bootstrap signature fees _).mpr
      ⟨hbatch, priced, permit, accountSignature, _, hfees, hpermit, hsignature,
        operationAuthorization_ok.mpr ⟨rfl, hvalid⟩, rfl⟩
    have hwire := validate_offered hbatch hfees (structuralSignature_ok hpermit).2.2
      (structuralSignature_ok hsignature).2.2 hvalid
    rcases gaslessWireFees_ok hfees with ⟨hmaximum, hpriority, hgiven, _⟩
    refine ⟨_, hoperation, hwire, ?_, hgiven⟩
    unfold gaslessSignedFees
    rw [hwire]
    show (wireQuantity (numberToHex priced.maxFeePerGas) >>= _) = _
    rw [wireQuantity_price hmaximum]
    show (wireQuantity (numberToHex priced.maxPriorityFeePerGas) >>= _) = _
    rw [wireQuantity_price hpriority]
    rfl
  · intro value wire h
    rcases offered_of_validate h with ⟨hsame, _, priced, permit, accountSignature, authorization, fees, _, hpermit,
      hsignature, hvalid, hoperation, _⟩
    exact ⟨hsame, ⟨permit, authorization⟩, accountSignature, fees, hpermit, hsignature, hvalid, hoperation⟩
  · intro one two hone htwo
    rcases offered_of_validate hone with ⟨_, hbatch, priced, permit, accountSignature, authorization, fees, hfees, _,
      _, hvalid, _, rfl⟩
    rcases offered_of_validate htwo with ⟨_, _, priced', permit', accountSignature', authorization', fees', hfees', _,
      _, hvalid', _, rfl⟩
    exact boundPart_offered (batch_token hbatch).2 hfees hfees' hvalid hvalid'

end Offers

/-! ## A first transfer on Base -/

namespace BaseTransferRun

def abiAddress (address : Hex) : Hex := List.replicate 24 '0' ++ lower (address.drop 2)

def abiBytes (data : Hex) : Hex :=
  let digits := data.drop 2
  HexText.padded 64 (digits.length / 2) ++ digits ++ List.replicate ((64 - digits.length % 64) % 64) '0'

def abiCall (call : Hex × ℕ × Hex) : Hex :=
  abiAddress call.1 ++ HexText.padded 64 call.2.1 ++ HexText.padded 64 96 ++ abiBytes call.2.2

/-- The offset of each tail, in bytes. -/
def abiOffsets : ℕ → List Hex → Hex
  | _, [] => []
  | offset, tail :: rest => HexText.padded 64 offset ++ abiOffsets (offset + tail.length / 2) rest

def executeBatch (calls : List (Hex × ℕ × Hex)) : Hex :=
  let tails := calls.map abiCall
  "0x34fcd5be".toList ++ HexText.padded 64 32 ++ HexText.padded 64 calls.length ++
    abiOffsets (32 * calls.length) tails ++ tails.flatten

def transfer (recipient : Hex) (amount : ℕ) : Hex :=
  "0xa9059cbb".toList ++ abiAddress recipient ++ HexText.padded 64 amount

def approve (spender : Hex) (amount : ℕ) : Hex :=
  "0x095ea7b3".toList ++ abiAddress spender ++ HexText.padded 64 amount

/-- The ABI encoding; an address of digits is its own checksummed form. -/
def codec : CallCodec where
  getAddress := some
  encodeTransfer := fun recipient amount => some (transfer recipient amount)
  encodeApprove := fun spender amount => some (approve spender amount)
  encodeExecuteBatch := fun calls => some (executeBatch calls)
  decodeFunctionName := fun data => if data.take 10 = "0x34fcd5be".toList then some "executeBatch" else none

def address (digit : Char) : Hex := '0' :: 'x' :: List.replicate 40 digit

def intent : FrozenIntent where
  wireVersion := some .v4
  chainId := 8453
  recipient := address '1'
  owner := address '2'
  entryPointNonceAtomic := 0
  eoaNonceAtomic := 7
  delegation := .empty
  gas :=
    { maxFeePerGas := 3000, maxPriorityFeePerGas := 1000, verificationGasLimit := 100000, callGasLimit := 200000
      paymasterVerificationGasLimit := 500000, paymasterPostOpGasLimit := 35000, preVerificationGas := 150000 }
  token := address '3'
  paymaster := address '4'
  entryPoint := address '5'
  delegate := address '6'
  feeCapAtomic := 50000
  recipientAtomic := 950000
  callData := executeBatch [(address '3', 0, transfer (address '1') 950000), (address '3', 0, approve (address '4') 0)]
  chain := by decide
  entryPointNonce := by decide
  eoaNonce := by decide
  feeCap := by decide
  offer := by decide

/-- A 65-byte signature of two small numbers. -/
def signature (r s : ℕ) : Hex := '0' :: 'x' :: (HexText.padded 64 r ++ HexText.padded 64 s ++ ['1', 'b'])

def authorization : GaslessAuthorization where
  chainId := numberToHex 8453
  address := address '6'
  nonce := numberToHex 7
  yParity := "0x1".toList
  r := '0' :: 'x' :: HexText.padded 64 5
  s := '0' :: 'x' :: HexText.padded 64 6

/-- A first use, priced above its preparation. -/
theorem gaslessWire_exact_of_transfer :
    ∃ wire, gaslessUserOperation codec intent.toGaslessIntent ⟨signature 1 2, some authorization⟩ (signature 3 4)
        (some ⟨4000, 1500⟩) = .ok wire ∧
      validateGaslessWire codec intent.toGaslessIntent wire = .ok wire ∧
      gaslessSignedFees codec intent.toGaslessIntent wire = .ok ⟨4000, 1500⟩ := by
  rcases (gaslessWire_exact codec intent).1 ⟨signature 1 2, some authorization⟩ (signature 3 4) (some ⟨4000, 1500⟩)
    (signature 1 2) (signature 3 4) ⟨4000, 1500⟩ (by decide +kernel) (by decide +kernel) (by decide +kernel)
    ⟨by decide, fun _ => ⟨authorization, rfl, by decide +kernel⟩⟩ (by decide +kernel) with ⟨wire, hwire, hvalid, hfees, _⟩
  exact ⟨wire, hwire, hvalid, hfees⟩

end BaseTransferRun

end GaslessWire
end PaymentNode
