import PaymentNode.Lib.Rlp

/-!
# Codec — the native agent's transaction decoder

What a Rust function does is an `Except` over two faults: an error it returns, and a panic.  Slices and indexing panic
out of range, and `usize` sums wrap as they do in the release build.
-/

namespace PaymentNode.Native

open BigEndian

inductive ErrorCode
  | invalidProfile
  | invalidOperationId
  | invalidFingerprint
  | invalidTransaction
  | expired
  | walletCorrupt
  | walletMismatch
  | effectMismatch
  | internal
deriving DecidableEq, Repr

inductive Fault
  | refused (code : ErrorCode)
  | panicked
deriving DecidableEq, Repr

abbrev Rust (α : Type) := Except Fault α

def refuse {α : Type} (code : ErrorCode) : Rust α := .error (.refused code)

def abort {α : Type} : Rust α := .error .panicked

def ensure (c : Prop) [Decidable c] (code : ErrorCode) : Rust Unit := if c then .ok () else refuse code

def Panics {α : Type} (x : Rust α) : Prop := x = .error .panicked

section Outcomes

variable {α β : Type} {a : α} {b : β} {x : Rust α} {f : α → Rust β} {g : Unit → Rust β} {code : ErrorCode}

@[simp] theorem refuse_ne_ok : ¬ (refuse code = .ok a) := by simp [refuse]

@[simp] theorem abort_ne_ok : ¬ ((abort : Rust α) = .ok a) := by simp [abort]

@[simp] theorem panics_ok : ¬ Panics (.ok a : Rust α) := by simp [Panics]

@[simp] theorem panics_refuse : ¬ Panics (refuse code : Rust α) := by simp [Panics, refuse]

@[simp] theorem panics_abort : Panics (abort : Rust α) := rfl

theorem run_ok : x >>= f = .ok b ↔ ∃ a, x = .ok a ∧ f a = .ok b := by
  cases x with
  | error e => simp [Bind.bind, Except.bind]
  | ok a => simp [Bind.bind, Except.bind]

theorem panics_run : Panics (x >>= f) ↔ Panics x ∨ ∃ a, x = .ok a ∧ Panics (f a) := by
  cases x with
  | error e => simp [Bind.bind, Except.bind, Panics]
  | ok a => simp [Bind.bind, Except.bind, Panics]

@[simp] theorem ok_run : (.ok a : Rust α) >>= f = f a := rfl

variable {c : Prop} [Decidable c]

@[simp] theorem ensure_ok {u : Unit} : ensure c code = .ok u ↔ c := by
  by_cases hc : c <;> simp [ensure, hc]

@[simp] theorem ensure_quiet : ¬ Panics (ensure c code) := by
  by_cases hc : c <;> simp [ensure, hc]

@[simp] theorem ensure_run_ok : ensure c code >>= g = .ok b ↔ c ∧ g () = .ok b := by
  by_cases hc : c <;> simp [ensure, hc, refuse, Bind.bind, Except.bind]

@[simp] theorem panics_ensure_run : Panics (ensure c code >>= g) ↔ c ∧ Panics (g ()) := by
  by_cases hc : c <;> simp [ensure, hc, refuse, Bind.bind, Except.bind, Panics]

theorem ensure_run : ensure c code >>= g = if c then g () else refuse code := by
  by_cases hc : c <;> simp [ensure, hc, refuse, Bind.bind, Except.bind]

end Outcomes

/-- `&data[start..stop]` -/
def slice {α : Type} (data : List α) (start stop : ℕ) : Rust (List α) :=
  if start ≤ stop ∧ stop ≤ data.length then .ok ((data.take stop).drop start) else abort

/-- `data[i]` -/
def index {α : Type} (data : List α) (i : ℕ) : Rust α :=
  match data[i]? with
  | some a => .ok a
  | none => abort

theorem slice_ok {α : Type} {data : List α} {start stop : ℕ} (h : start ≤ stop ∧ stop ≤ data.length) :
    slice data start stop = .ok ((data.take stop).drop start) := if_pos h

theorem index_cons {α : Type} (a : α) (rest : List α) : index (a :: rest) 0 = .ok a := rfl

/-- One more than the largest `usize`. -/
def usizeBound : ℕ := 2 ^ 64

theorem usizeBound_eq : usizeBound = 256 ^ 8 := by norm_num [usizeBound]

/-- `output.checked_mul(256).and_then(|value| value.checked_add(byte))` -/
def pushByte (output : ℕ) (byte : UInt8) : Rust ℕ := do
  ensure (output * 256 < usizeBound ∧ output * 256 + byte.toNat < usizeBound) .invalidTransaction
  .ok (output * 256 + byte.toNat)

def decodeLength (data : Bytes) (count : ℕ) : Rust ℕ :=
  if count = 0 ∨ 8 < count ∨ data.length < count then refuse .invalidTransaction
  else do
    let first ← index data 0
    ensure (first ≠ 0) .invalidTransaction
    let bytes ← slice data 0 count
    bytes.foldlM pushByte 0

structure RlpItem where
  payload : Bytes
  length : ℕ
  nested : Bool
deriving DecidableEq, Repr

/-- `length == 1 && data[1] < 0x80`, which only the arm of strings asks. -/
def singleSmall (data : Bytes) (length : ℕ) (nested : Bool) : Rust Bool :=
  if nested = false ∧ length = 1 then do
    let byte ← index data 1
    .ok (byte < 0x80)
  else .ok false

/-- The arms `0x80..=0xb7` and `0xc0..=0xf7`. -/
def decodeShort (data : Bytes) (length : ℕ) (nested : Bool) : Rust RlpItem := do
  let total := 1 + length
  ensure (total ≤ data.length) .invalidTransaction
  let single ← singleSmall data length nested
  ensure (single = false) .invalidTransaction
  let payload ← slice data 1 total
  .ok ⟨payload, total, nested⟩

/-- The arms `0xb8..=0xbf` and `0xf8..=0xff`. -/
def decodeLong (data : Bytes) (lenOfLen : ℕ) (nested : Bool) : Rust RlpItem := do
  let tail ← slice data 1 data.length
  let length ← decodeLength tail lenOfLen
  -- the sum is unchecked, unlike the products and sums of `decode_length`
  let total := (1 + lenOfLen + length) % usizeBound
  ensure (56 ≤ length ∧ total ≤ data.length) .invalidTransaction
  let payload ← slice data (1 + lenOfLen) total
  .ok ⟨payload, total, nested⟩

def decodeRlpItem (data : Bytes) : Rust RlpItem :=
  match data with
  | [] => refuse .invalidTransaction
  | first :: _ =>
    if first.toNat < 0x80 then do
      let payload ← slice data 0 1
      .ok ⟨payload, 1, false⟩
    else if first.toNat < 0xb8 then decodeShort data (first.toNat - 0x80) false
    else if first.toNat < 0xc0 then decodeLong data (first.toNat - 0xb7) false
    else if first.toNat < 0xf8 then decodeShort data (first.toNat - 0xc0) true
    else decodeLong data (first.toNat - 0xf7) true

structure DecodedSigned where
  fields : List Bytes
  payloads : List Bytes
deriving DecidableEq, Repr

/-- The loop over the list payload from `offset` on; each turn moves `offset` on, so `fuel` never runs out at the
length of the payload. -/
def decodeFields (list : Bytes) : ℕ → ℕ → DecodedSigned → Rust DecodedSigned
  | 0, _, decoded => .ok decoded
  | fuel + 1, offset, decoded =>
    if list.length ≤ offset then .ok decoded
    else do
      let tail ← slice list offset list.length
      let item ← decodeRlpItem tail
      ensure (¬ (item.nested = true ∧ decoded.fields.length ≠ 8)) .invalidTransaction
      ensure (¬ (item.nested = false ∧ decoded.fields.length = 8)) .invalidTransaction
      let field ← slice list offset (offset + item.length)
      decodeFields list fuel (offset + item.length) ⟨decoded.fields ++ [field], decoded.payloads ++ [item.payload]⟩

def decodeSigned (raw : Bytes) : Rust DecodedSigned := do
  ensure (raw.head? = some 0x02) .invalidTransaction
  let body ← slice raw 1 raw.length
  let item ← decodeRlpItem body
  ensure (item.nested = true ∧ item.length = raw.length - 1) .invalidTransaction
  let decoded ← decodeFields item.payload item.payload.length 0 ⟨[], []⟩
  ensure (decoded.fields.length = 12) .invalidTransaction
  .ok decoded

/-! ## One item -/

theorem foldlM_pushByte (bytes : Bytes) (n : ℕ) (h : n * 256 ^ bytes.length + value bytes < usizeBound) :
    bytes.foldlM pushByte n = .ok (n * 256 ^ bytes.length + value bytes) := by
  induction bytes generalizing n with
  | nil => simp [value_nil, pure, Except.pure]
  | cons b rest ih =>
    have hpow : 0 < 256 ^ rest.length := Nat.pow_pos (by decide)
    have hsplit : n * 256 ^ (b :: rest).length + value (b :: rest) =
        (n * 256 + b.toNat) * 256 ^ rest.length + value rest := by
      rw [value_cons, List.length_cons, pow_succ]
      ring
    rw [hsplit] at h ⊢
    have hpush : n * 256 + b.toNat < usizeBound :=
      lt_of_le_of_lt (le_trans (Nat.le_mul_of_pos_right _ hpow) (Nat.le_add_right _ _)) h
    have hstep : pushByte n b = .ok (n * 256 + b.toNat) := by
      have hmul : n * 256 < usizeBound := lt_of_le_of_lt (Nat.le_add_right _ _) hpush
      unfold pushByte
      rw [ensure_run, if_pos ⟨hmul, hpush⟩]
    rw [List.foldlM_cons, hstep, ok_run]
    exact ih _ h

-- `decode_length` returns the value of its bytes, which fits `usize` at any accepted count.
theorem decodeLength_eq (data : Bytes) (count : ℕ) : decodeLength data count =
    if count = 0 ∨ 8 < count ∨ data.length < count ∨ data.head? = some 0 then refuse .invalidTransaction
    else .ok (value (data.take count)) := by
  unfold decodeLength
  by_cases hcount : count = 0 ∨ 8 < count ∨ data.length < count
  · rw [if_pos hcount, if_pos (by tauto)]
  · rw [if_neg hcount]
    have hlength : (data.take count).length = count := by
      rw [List.length_take]
      omega
    have hlt : value (data.take count) < usizeBound := by
      have hvalue := value_lt (data.take count)
      rw [hlength] at hvalue
      have hpow : 256 ^ count ≤ 256 ^ 8 := Nat.pow_le_pow_right (by decide) (by omega)
      rw [usizeBound_eq]
      omega
    have hfold : (data.take count).foldlM pushByte 0 = .ok (value (data.take count)) := by
      have hpush := foldlM_pushByte (data.take count) 0 (by omega)
      rwa [Nat.zero_mul, Nat.zero_add] at hpush
    cases data with
    | nil =>
      rw [List.length_nil] at hcount
      omega
    | cons b rest =>
      rw [index_cons, ok_run, ensure_run, slice_ok (by omega), ok_run, List.drop_zero, hfold, List.head?_cons]
      by_cases hb : b = 0
      · rw [if_neg (by simpa using hb), if_pos (by simp [hb])]
      · rw [if_pos hb, if_neg]
        rw [Option.some.injEq]
        tauto

theorem decodeShort_eq (first : UInt8) (tail : Bytes) (length : ℕ) (nested : Bool) :
    decodeShort (first :: tail) length nested =
      if length ≤ tail.length ∧ ¬ (nested = false ∧ length = 1 ∧ tail.head?.any (· < 0x80) = true) then
        .ok ⟨tail.take length, 1 + length, nested⟩
      else refuse .invalidTransaction := by
  unfold decodeShort
  rw [ensure_run, List.length_cons]
  by_cases hlength : length ≤ tail.length
  · rw [if_pos (by omega)]
    have hslice : slice (first :: tail) 1 (1 + length) = .ok (tail.take length) := by
      rw [slice_ok ⟨by omega, by rw [List.length_cons]; omega⟩, Nat.add_comm 1 length, List.take_succ_cons]
      rfl
    have hsingle : singleSmall (first :: tail) length nested =
        .ok (decide (nested = false ∧ length = 1 ∧ tail.head?.any (· < 0x80) = true)) := by
      unfold singleSmall
      by_cases hone : nested = false ∧ length = 1
      · cases tail with
        | nil =>
          rw [List.length_nil] at hlength
          omega
        | cons b rest => simp [hone, index, Bind.bind, Except.bind]
      · rw [if_neg hone, decide_eq_false (by tauto)]
    rw [hsingle, ok_run, ensure_run, hslice, ok_run]
    by_cases hbad : nested = false ∧ length = 1 ∧ tail.head?.any (· < 0x80) = true
    · rw [if_neg (by simp [hbad]), if_neg (by tauto)]
    · rw [if_pos (by simpa using hbad), if_pos ⟨hlength, hbad⟩]
  · rw [if_neg (by omega), if_neg (by tauto)]

theorem decodeLong_eq (first : UInt8) (tail : Bytes) (count : ℕ) (nested : Bool) :
    decodeLong (first :: tail) count nested =
      if count = 0 ∨ 8 < count ∨ tail.length < count ∨ tail.head? = some 0 ∨ value (tail.take count) < 56 then
        refuse .invalidTransaction
      else if usizeBound ≤ 1 + count + value (tail.take count) then abort
      else if tail.length < count + value (tail.take count) then refuse .invalidTransaction
      else .ok ⟨(tail.drop count).take (value (tail.take count)), 1 + count + value (tail.take count), nested⟩ := by
  unfold decodeLong
  have htail : slice (first :: tail) 1 (first :: tail).length = .ok tail := by
    rw [slice_ok ⟨by rw [List.length_cons]; omega, le_rfl⟩, List.take_length]
    rfl
  rw [htail, ok_run, decodeLength_eq]
  by_cases hheader : count = 0 ∨ 8 < count ∨ tail.length < count ∨ tail.head? = some 0
  · rw [if_pos hheader, if_pos (by tauto)]
    rfl
  · rw [if_neg hheader, ok_run, ensure_run]
    generalize hn : value (tail.take count) = n
    by_cases hsmall : n < 56
    · rw [if_neg (by omega), if_pos (by tauto)]
    · have hbody : ¬ (count = 0 ∨ 8 < count ∨ tail.length < count ∨ tail.head? = some 0 ∨ n < 56) := by tauto
      rw [if_neg hbody]
      have hlt : n < usizeBound := by
        have hvalue := value_lt (tail.take count)
        have hpow : 256 ^ (tail.take count).length ≤ 256 ^ 8 :=
          Nat.pow_le_pow_right (by decide) (by rw [List.length_take]; omega)
        rw [usizeBound_eq]
        omega
      by_cases hwrap : usizeBound ≤ 1 + count + n
      · have htotal : (1 + count + n) % usizeBound = 1 + count + n - usizeBound := by
          rw [Nat.mod_eq_sub_mod hwrap, Nat.mod_eq_of_lt (by unfold usizeBound at *; omega)]
        -- the wrapped total lies before the end of the header
        rw [if_pos hwrap, htotal, if_pos ⟨by omega, by rw [List.length_cons]; omega⟩]
        unfold slice
        rw [if_neg (by omega)]
        rfl
      · rw [if_neg hwrap, Nat.mod_eq_of_lt (by omega), List.length_cons]
        by_cases hshort : tail.length < count + n
        · rw [if_pos hshort, if_neg (by omega)]
        · rw [if_neg hshort, if_pos (by omega), slice_ok ⟨by omega, by rw [List.length_cons]; omega⟩, ok_run]
          have htake : ((first :: tail).take (1 + count + n)).drop (1 + count) = (tail.drop count).take n := by
            rw [Nat.add_assoc, Nat.add_comm 1 (count + n), List.take_succ_cons, Nat.add_comm 1 count, List.drop_succ_cons,
              List.drop_take, Nat.add_sub_cancel_left]
          rw [htake]

theorem toNat_ofNat {n : ℕ} (h : n < 256) : (UInt8.ofNat n).toNat = n := by
  rw [UInt8.toNat_ofNat']
  exact Nat.mod_eq_of_lt h

variable {first : UInt8}

theorem ofNat_toNat {n : ℕ} (h : first.toNat = n) : UInt8.ofNat n = first := by
  rw [← h]
  exact UInt8.ofNat_toNat

theorem decodeShort_append {payload rest : Bytes} {nested : Bool}
    (h : nested = false → ∀ b, payload = [b] → 0x80 ≤ b) :
    decodeShort (first :: (payload ++ rest)) payload.length nested = .ok ⟨payload, 1 + payload.length, nested⟩ := by
  rw [decodeShort_eq, if_pos, List.take_left]
  refine ⟨by rw [List.length_append]; omega, ?_⟩
  rintro ⟨hnested, hone, hany⟩
  obtain ⟨b, rfl⟩ := List.length_eq_one_iff.mp hone
  have hb := h hnested b rfl
  rw [List.singleton_append, List.head?_cons, Option.any_some, decide_eq_true_eq] at hany
  exact absurd hany (UInt8.not_lt.mpr hb)

theorem decodeShort_ok {tail : Bytes} {length : ℕ} {nested : Bool} {item : RlpItem}
    (h : decodeShort (first :: tail) length nested = .ok item) :
    ∃ rest, tail = item.payload ++ rest ∧ item.payload.length = length ∧ item.length = 1 + length ∧
      item.nested = nested ∧ (nested = false → ∀ b, item.payload = [b] → 0x80 ≤ b) := by
  rw [decodeShort_eq] at h
  split at h
  · rename_i haccepted
    cases h
    have hlength : (tail.take length).length = length := by
      rw [List.length_take]
      omega
    refine ⟨tail.drop length, (List.take_append_drop _ _).symm, hlength, rfl, rfl, fun hnested b hb => ?_⟩
    by_contra hsmall
    have hpayload : tail.take length = [b] := hb
    refine haccepted.2 ⟨hnested, by rw [← hlength, hpayload]; rfl, ?_⟩
    have htail : tail = b :: tail.drop length := by
      conv_lhs => rw [← List.take_append_drop length tail]
      rw [hpayload]
      rfl
    rw [htail, List.head?_cons, Option.any_some, decide_eq_true_eq]
    exact UInt8.not_le.mp hsmall
  · exact absurd h refuse_ne_ok

theorem decodeLong_append {payload rest : Bytes} {nested : Bool} (hlong : 56 ≤ payload.length)
    (hlt : 1 + (strip (fixed 8 payload.length)).length + payload.length < usizeBound) :
    decodeLong (first :: (strip (fixed 8 payload.length) ++ payload ++ rest)) (strip (fixed 8 payload.length)).length nested =
      .ok ⟨payload, 1 + (strip (fixed 8 payload.length)).length + payload.length, nested⟩ := by
  have hbound : payload.length < 2 ^ 64 := by
    have husize : usizeBound = 2 ^ 64 := rfl
    omega
  have hvalue : value (strip (fixed 8 payload.length)) = payload.length := by
    rw [value_strip, value_fixed (by norm_num at hbound ⊢; exact hbound)]
  have hne := Rlp.size_pos (by omega) hbound
  have hle := Rlp.size_length_le payload.length
  have hhead := head_strip (fixed 8 payload.length)
  generalize strip (fixed 8 payload.length) = size at *
  have htake : (size ++ payload ++ rest).take size.length = size := by
    rw [List.append_assoc, List.take_left]
  have hdrop : (size ++ payload ++ rest).drop size.length = payload ++ rest := by
    rw [List.append_assoc, List.drop_left]
  have hpos := List.length_pos_of_ne_nil hne
  have hhead' : (size ++ payload ++ rest).head? ≠ some 0 := by
    rwa [List.append_assoc, List.head?_append_of_ne_nil _ hne]
  have hlength : (size ++ payload ++ rest).length = size.length + payload.length + rest.length := by
    rw [List.length_append, List.length_append]
  rw [decodeLong_eq, htake, hdrop, hvalue, hlength, if_neg, if_neg (by omega), if_neg (by omega), List.take_left]
  rintro (hzero | hlarge | hshort | hzero | hsmall)
  · omega
  · omega
  · omega
  · exact hhead' hzero
  · omega

theorem decodeLong_ok {tail : Bytes} {count : ℕ} {nested : Bool} {item : RlpItem}
    (h : decodeLong (first :: tail) count nested = .ok item) :
    ∃ rest, tail = strip (fixed 8 item.payload.length) ++ item.payload ++ rest ∧
      (strip (fixed 8 item.payload.length)).length = count ∧ item.length = 1 + count + item.payload.length ∧
      item.length < usizeBound ∧ 56 ≤ item.payload.length ∧ item.nested = nested := by
  rw [decodeLong_eq] at h
  split at h
  · exact absurd h refuse_ne_ok
  · rename_i hheader
    split at h
    · exact absurd h abort_ne_ok
    · rename_i hfits
      split at h
      · exact absurd h refuse_ne_ok
      · rename_i hlength
        cases h
        push Not at hheader
        obtain ⟨hpos, hle, htail, hhead, hlong⟩ := hheader
        have hsize : (tail.take count).length = count := by
          rw [List.length_take]
          omega
        have hpayload : ((tail.drop count).take (value (tail.take count))).length = value (tail.take count) := by
          rw [List.length_take, List.length_drop]
          omega
        have hheads : (tail.take count).head? ≠ some 0 := by
          rwa [List.head?_take, if_neg hpos]
        have hstrip := @Rlp.strip_size (tail.take count) (by omega) hheads
        refine ⟨tail.drop (count + value (tail.take count)), ?_, ?_, ?_, Nat.lt_of_not_le hfits, by rw [hpayload]; exact hlong,
          rfl⟩
        · rw [hpayload, hstrip, ← List.drop_drop, List.append_assoc, List.take_append_drop, List.take_append_drop]
        · rw [hpayload, hstrip, hsize]
        · rw [hpayload]

-- An accepted item is the encoding of its payload.
theorem encode_of_decode {data : Bytes} {item : RlpItem} (h : decodeRlpItem data = .ok item) :
    ∃ rest, data = Rlp.encode item.nested item.payload ++ rest ∧
      item.length = (Rlp.encode item.nested item.payload).length ∧ item.length < usizeBound := by
  have husize : usizeBound = 2 ^ 64 := rfl
  -- what the two arms of each kind have in common
  have hshort : ∀ (first : UInt8) (tail : Bytes) (nested : Bool),
      first.toNat - (if nested then 0xc0 else 0x80) < 56 → (if nested then 0xc0 else 0x80) ≤ first.toNat →
      decodeShort (first :: tail) (first.toNat - (if nested then 0xc0 else 0x80)) nested = .ok item →
      ∃ rest, first :: tail = Rlp.encode item.nested item.payload ++ rest ∧
        item.length = (Rlp.encode item.nested item.payload).length ∧ item.length < usizeBound := by
    intro first tail nested hsmall hbase hdecode
    obtain ⟨rest, htail, hlength, htotal, hnested, hsingle⟩ := decodeShort_ok hdecode
    have hencode : Rlp.encode item.nested item.payload = first :: item.payload := by
      rw [hnested, Rlp.encode_short (by omega) hsingle, @ofNat_toNat first _ (by omega)]
    exact ⟨rest, by rw [hencode, htail]; rfl, by rw [hencode, List.length_cons]; omega, by omega⟩
  have hlong : ∀ (first : UInt8) (tail : Bytes) (nested : Bool), (if nested then 0xf7 else 0xb7) ≤ first.toNat →
      decodeLong (first :: tail) (first.toNat - (if nested then 0xf7 else 0xb7)) nested = .ok item →
      ∃ rest, first :: tail = Rlp.encode item.nested item.payload ++ rest ∧
        item.length = (Rlp.encode item.nested item.payload).length ∧ item.length < usizeBound := by
    intro first tail nested hbase hdecode
    obtain ⟨rest, htail, hcount, htotal, hfits, hlarge, hnested⟩ := decodeLong_ok hdecode
    have hencode : Rlp.encode item.nested item.payload =
        first :: (strip (fixed 8 item.payload.length) ++ item.payload) := by
      rw [hnested, Rlp.encode_long hlarge, hcount, @ofNat_toNat first _ (by omega)]
    refine ⟨rest, by rw [hencode, htail]; rfl, ?_, hfits⟩
    rw [hencode, List.length_cons, List.length_append, hcount]
    omega
  cases data with
  | nil => exact absurd h refuse_ne_ok
  | cons first tail =>
    have hfirst : first.toNat < 256 := first.toNat_lt
    simp only [decodeRlpItem] at h
    split at h
    · rename_i hsmall
      rw [slice_ok ⟨by omega, by rw [List.length_cons]; omega⟩, ok_run] at h
      cases h
      have hencode : Rlp.encode false [first] = [first] := Rlp.encode_one (UInt8.lt_iff_toNat_lt.mpr hsmall)
      refine ⟨tail, ?_, ?_, by norm_num [usizeBound]⟩
      · show first :: tail = Rlp.encode false [first] ++ tail
        rw [hencode]
        rfl
      · show 1 = (Rlp.encode false [first]).length
        rw [hencode]
        rfl
    · split at h
      · exact hshort first tail false (by simp; omega) (by simp; omega) h
      · split at h
        · exact hlong first tail false (by simp; omega) h
        · split at h
          · exact hshort first tail true (by simp; omega) (by simp; omega) h
          · exact hlong first tail true (by simp; omega) h

-- The encoding of a payload is an accepted item.
theorem decode_of_encode {nested : Bool} {payload rest : Bytes} (h : (Rlp.encode nested payload).length < usizeBound) :
    decodeRlpItem (Rlp.encode nested payload ++ rest) = .ok ⟨payload, (Rlp.encode nested payload).length, nested⟩ := by
  rcases Rlp.encode_forms nested payload with ⟨b, rfl, rfl, hb⟩ | ⟨hshort, hsingle⟩ | hlong
  · rw [Rlp.encode_one hb, List.singleton_append]
    have hsmall : b.toNat < 0x80 := UInt8.lt_iff_toNat_lt.mp hb
    simp only [decodeRlpItem]
    rw [if_pos hsmall, slice_ok ⟨by omega, by rw [List.length_cons]; omega⟩]
    rfl
  · have hdecode := @decodeShort_append (UInt8.ofNat ((if nested then 0xc0 else 0x80) + payload.length)) _
      rest _ hsingle
    rw [Rlp.encode_short hshort hsingle, List.cons_append, List.length_cons, Nat.add_comm payload.length 1]
    simp only [decodeRlpItem]
    cases nested with
    | true =>
      have htoNat : (UInt8.ofNat (0xc0 + payload.length)).toNat = 0xc0 + payload.length := toNat_ofNat (by omega)
      simp only [if_true, htoNat] at hdecode ⊢
      rw [if_neg (by omega), if_neg (by omega), if_neg (by omega), if_pos (by omega), Nat.add_sub_cancel_left]
      exact hdecode
    | false =>
      have htoNat : (UInt8.ofNat (0x80 + payload.length)).toNat = 0x80 + payload.length := toNat_ofNat (by omega)
      simp only [Bool.false_eq_true, if_false, htoNat] at hdecode ⊢
      rw [if_neg (by omega), if_pos (by omega), Nat.add_sub_cancel_left]
      exact hdecode
  · have hle := Rlp.size_length_le payload.length
    have hlength : (Rlp.encode nested payload).length =
        1 + (strip (fixed 8 payload.length)).length + payload.length := by
      rw [Rlp.encode_long hlong, List.length_cons, List.length_append]
      omega
    rw [hlength] at h ⊢
    have hdecode := @decodeLong_append
      (UInt8.ofNat ((if nested then 0xf7 else 0xb7) + (strip (fixed 8 payload.length)).length)) _ rest nested hlong h
    have hpos : 0 < (strip (fixed 8 payload.length)).length := by
      have husize : usizeBound = 2 ^ 64 := rfl
      exact List.length_pos_of_ne_nil (Rlp.size_pos (by omega) (by omega))
    rw [Rlp.encode_long hlong, List.cons_append]
    simp only [decodeRlpItem]
    generalize strip (fixed 8 payload.length) = size at *
    cases nested with
    | true =>
      have htoNat : (UInt8.ofNat (0xf7 + size.length)).toNat = 0xf7 + size.length := toNat_ofNat (by omega)
      simp only [if_true, htoNat] at hdecode ⊢
      rw [if_neg (by omega), if_neg (by omega), if_neg (by omega), if_neg (by omega), Nat.add_sub_cancel_left]
      exact hdecode
    | false =>
      have htoNat : (UInt8.ofNat (0xb7 + size.length)).toNat = 0xb7 + size.length := toNat_ofNat (by omega)
      simp only [Bool.false_eq_true, if_false, htoNat] at hdecode ⊢
      rw [if_neg (by omega), if_neg (by omega), if_pos (by omega), Nat.add_sub_cancel_left]
      exact hdecode

/-- The header announces a length whose sum with the header itself leaves `usize`. -/
def Overlong (data : Bytes) : Prop := ∃ first size rest, data = first :: (size ++ rest) ∧
  (first.toNat = 0xb7 + size.length ∨ first.toNat = 0xf7 + size.length) ∧ size.length ≤ 8 ∧ size.head? ≠ some 0 ∧
  usizeBound ≤ 1 + size.length + value size

theorem panics_decodeLong {tail : Bytes} {count : ℕ} {nested : Bool} :
    Panics (decodeLong (first :: tail) count nested) ↔ ∃ size rest, tail = size ++ rest ∧ size.length = count ∧
      count ≤ 8 ∧ size.head? ≠ some 0 ∧ usizeBound ≤ 1 + size.length + value size := by
  have husize : usizeBound = 2 ^ 64 := rfl
  rw [decodeLong_eq]
  constructor
  · intro h
    split at h
    · exact absurd h panics_refuse
    · rename_i hheader
      push Not at hheader
      split at h
      · rename_i hwrap
        have hsize : (tail.take count).length = count := by
          rw [List.length_take]
          omega
        refine ⟨tail.take count, tail.drop count, (List.take_append_drop _ _).symm, hsize, by omega, ?_, ?_⟩
        · rw [List.head?_take, if_neg hheader.1]
          exact hheader.2.2.2.1
        · rw [hsize]
          exact hwrap
      · split at h
        · exact absurd h panics_refuse
        · exact absurd h panics_ok
  · rintro ⟨size, rest, rfl, rfl, hle, hhead, hwrap⟩
    have hne : size ≠ [] := by
      rintro rfl
      rw [List.length_nil, value_nil] at hwrap
      omega
    have hpos := List.length_pos_of_ne_nil hne
    rw [List.take_left, if_neg, if_pos hwrap]
    · exact panics_abort
    · rintro (hzero | hlarge | hshort | hzero | hsmall)
      · omega
      · omega
      · rw [List.length_append] at hshort
        omega
      · rw [List.head?_append_of_ne_nil _ hne] at hzero
        exact hhead hzero
      · omega

-- The only panic of the item decoder is the wrapped sum.
theorem panics_decodeRlpItem {data : Bytes} : Panics (decodeRlpItem data) ↔ Overlong data := by
  have hshort : ∀ first tail length nested, ¬ Panics (decodeShort (first :: tail) length nested) := by
    intro first tail length nested
    rw [decodeShort_eq]
    split
    · exact panics_ok
    · exact panics_refuse
  constructor
  · intro h
    cases data with
    | nil => exact absurd h panics_refuse
    | cons first tail =>
      have hfirst : first.toNat < 256 := first.toNat_lt
      simp only [decodeRlpItem] at h
      split at h
      · rw [slice_ok ⟨by omega, by rw [List.length_cons]; omega⟩] at h
        exact absurd h panics_ok
      · split at h
        · exact absurd h (hshort _ _ _ _)
        · split at h
          · obtain ⟨size, rest, rfl, hcount, hle, hhead, hwrap⟩ := panics_decodeLong.mp h
            exact ⟨first, size, rest, rfl, Or.inl (by omega), by omega, hhead, hwrap⟩
          · split at h
            · exact absurd h (hshort _ _ _ _)
            · obtain ⟨size, rest, rfl, hcount, hle, hhead, hwrap⟩ := panics_decodeLong.mp h
              exact ⟨first, size, rest, rfl, Or.inr (by omega), by omega, hhead, hwrap⟩
  · rintro ⟨first, size, rest, rfl, hfirst, hle, hhead, hwrap⟩
    have hpos : 0 < size.length := by
      rcases Nat.eq_zero_or_pos size.length with hzero | hpos
      · have husize : usizeBound = 2 ^ 64 := rfl
        rw [List.eq_nil_of_length_eq_zero hzero, List.length_nil, value_nil] at hwrap
        omega
      · exact hpos
    simp only [decodeRlpItem]
    rcases hfirst with hfirst | hfirst
    · rw [if_neg (by omega), if_neg (by omega), if_pos (by omega)]
      exact panics_decodeLong.mpr ⟨size, rest, rfl, by omega, by omega, hhead, hwrap⟩
    · rw [if_neg (by omega), if_neg (by omega), if_neg (by omega), if_neg (by omega)]
      exact panics_decodeLong.mpr ⟨size, rest, rfl, by omega, by omega, hhead, hwrap⟩

/-! ## The list of fields -/

/-- The encodings of the payloads from position `i` on; the ninth field is the access list. -/
def fieldsFrom : ℕ → List Bytes → List Bytes
  | _, [] => []
  | i, payload :: payloads => Rlp.encode (i == 8) payload :: fieldsFrom (i + 1) payloads

theorem length_fieldsFrom (i : ℕ) (payloads : List Bytes) : (fieldsFrom i payloads).length = payloads.length := by
  induction payloads generalizing i with
  | nil => rfl
  | cons payload payloads ih => rw [fieldsFrom, List.length_cons, ih, List.length_cons]

theorem overlong_ne_nil {data : Bytes} (h : Overlong data) : data ≠ [] := by
  obtain ⟨first, size, rest, rfl, -⟩ := h
  exact List.cons_ne_nil _ _

section Loop

variable {done rest : Bytes} {fuel : ℕ} {decoded : DecodedSigned}

theorem decodeFields_nil : decodeFields (done ++ []) fuel done.length decoded = .ok decoded := by
  cases fuel with
  | zero => rfl
  | succ fuel =>
    rw [decodeFields, if_pos]
    rw [List.append_nil]

-- One turn of the loop on the bytes left.
theorem decodeFields_step (h : rest ≠ []) : decodeFields (done ++ rest) (fuel + 1) done.length decoded =
    decodeRlpItem rest >>= fun item =>
      if item.nested = (decoded.fields.length == 8) then
        slice (done ++ rest) done.length (done.length + item.length) >>= fun field =>
          decodeFields (done ++ rest) fuel (done.length + item.length)
            ⟨decoded.fields ++ [field], decoded.payloads ++ [item.payload]⟩
      else refuse .invalidTransaction := by
  have hlength : done.length < (done ++ rest).length := by
    have hpos := List.length_pos_of_ne_nil h
    rw [List.length_append]
    omega
  rw [decodeFields, if_neg (by omega), slice_ok ⟨by omega, le_rfl⟩, List.take_length, List.drop_left, ok_run]
  congr 1
  funext item
  rw [ensure_run, ensure_run]
  by_cases height : decoded.fields.length = 8
  · cases hnested : item.nested with
    | true => simp [height]
    | false => simp [height]
  · cases hnested : item.nested with
    | true => simp [height]
    | false => simp [height]

theorem decodeFields_encoded {payload tail : Bytes}
    (hfits : (Rlp.encode (decoded.fields.length == 8) payload).length < usizeBound) :
    decodeFields (done ++ (Rlp.encode (decoded.fields.length == 8) payload ++ tail)) (fuel + 1) done.length decoded =
      decodeFields ((done ++ Rlp.encode (decoded.fields.length == 8) payload) ++ tail) fuel
        (done ++ Rlp.encode (decoded.fields.length == 8) payload).length
        ⟨decoded.fields ++ [Rlp.encode (decoded.fields.length == 8) payload], decoded.payloads ++ [payload]⟩ := by
  have hpos := Rlp.length_encode_pos (decoded.fields.length == 8) payload
  generalize hencoding : Rlp.encode (decoded.fields.length == 8) payload = encoding at *
  have hne : encoding ++ tail ≠ [] := by
    intro hnil
    rw [(List.append_eq_nil_iff.mp hnil).1] at hpos
    exact absurd hpos (by decide)
  have hdecode : decodeRlpItem (encoding ++ tail) = .ok ⟨payload, encoding.length, decoded.fields.length == 8⟩ := by
    rw [← hencoding]
    exact decode_of_encode (by rw [hencoding]; exact hfits)
  have hslice : slice (done ++ (encoding ++ tail)) done.length (done.length + encoding.length) = .ok encoding := by
    rw [slice_ok ⟨by omega, by simp only [List.length_append]; omega⟩, ← List.append_assoc, ← List.length_append,
      List.take_left, List.drop_left]
  rw [decodeFields_step hne, hdecode, ok_run, if_pos rfl]
  simp only
  rw [hslice, ok_run, List.append_assoc, List.length_append]

theorem decodeFields_ok {out : DecodedSigned} (hfuel : rest.length ≤ fuel) (hbound : rest.length < usizeBound) :
    decodeFields (done ++ rest) fuel done.length decoded = .ok out ↔ ∃ payloads,
      rest = (fieldsFrom decoded.fields.length payloads).flatten ∧
      out = ⟨decoded.fields ++ fieldsFrom decoded.fields.length payloads, decoded.payloads ++ payloads⟩ := by
  induction fuel generalizing done rest decoded with
  | zero =>
    have hnil : rest = [] := List.eq_nil_of_length_eq_zero (by omega)
    subst hnil
    rw [decodeFields_nil]
    constructor
    · rintro h
      cases h
      exact ⟨[], rfl, by simp [fieldsFrom]⟩
    · rintro ⟨payloads, hflat, rfl⟩
      cases payloads with
      | nil => simp [fieldsFrom]
      | cons payload payloads =>
        have hpos := Rlp.length_encode_pos (decoded.fields.length == 8) payload
        rw [fieldsFrom, List.flatten_cons] at hflat
        rw [(List.append_eq_nil_iff.mp hflat.symm).1] at hpos
        exact absurd hpos (by decide)
  | succ fuel ih =>
    constructor
    · intro h
      by_cases hnil : rest = []
      · subst hnil
        rw [decodeFields_nil] at h
        cases h
        exact ⟨[], rfl, by simp [fieldsFrom]⟩
      · have hrun := h
        rw [decodeFields_step hnil, run_ok] at hrun
        obtain ⟨item, hitem, hrun⟩ := hrun
        obtain ⟨tail, htail, hlength, hfits⟩ := encode_of_decode hitem
        split at hrun
        · rename_i hnested
          rw [hnested] at htail hlength
          have hpos := Rlp.length_encode_pos (decoded.fields.length == 8) item.payload
          have hcount := congrArg List.length htail
          rw [List.length_append] at hcount
          rw [htail, decodeFields_encoded (by omega), ih (by omega) (by omega)] at h
          obtain ⟨payloads, hflat, hout⟩ := h
          rw [List.length_append, List.length_singleton] at hflat hout
          refine ⟨item.payload :: payloads, ?_, ?_⟩
          · rw [fieldsFrom, List.flatten_cons, ← hflat]
            exact htail
          · rw [hout, fieldsFrom, List.append_assoc, List.append_assoc]
            rfl
        · exact absurd hrun refuse_ne_ok
    · rintro ⟨payloads, hflat, hout⟩
      cases payloads with
      | nil =>
        have hnil : rest = [] := hflat
        subst hnil
        rw [decodeFields_nil, hout]
        simp [fieldsFrom]
      | cons payload payloads =>
        have hpos := Rlp.length_encode_pos (decoded.fields.length == 8) payload
        rw [fieldsFrom, List.flatten_cons] at hflat
        have hcount := congrArg List.length hflat
        rw [List.length_append] at hcount
        rw [hflat, decodeFields_encoded (by omega), ih (by omega) (by omega)]
        refine ⟨payloads, ?_, ?_⟩
        · rw [List.length_append, List.length_singleton]
        · rw [hout, fieldsFrom, List.length_append, List.length_singleton, List.append_assoc, List.append_assoc]
          rfl

theorem panics_decodeFields (hfuel : rest.length ≤ fuel) (hbound : rest.length < usizeBound) :
    Panics (decodeFields (done ++ rest) fuel done.length decoded) ↔ ∃ payloads tail,
      rest = (fieldsFrom decoded.fields.length payloads).flatten ++ tail ∧ Overlong tail := by
  induction fuel generalizing done rest decoded with
  | zero =>
    have hnil : rest = [] := List.eq_nil_of_length_eq_zero (by omega)
    subst hnil
    rw [decodeFields_nil]
    constructor
    · intro h
      exact absurd h panics_ok
    · rintro ⟨payloads, tail, hflat, hover⟩
      exact absurd (List.append_eq_nil_iff.mp hflat.symm).2 (overlong_ne_nil hover)
  | succ fuel ih =>
    constructor
    · intro h
      by_cases hnil : rest = []
      · subst hnil
        rw [decodeFields_nil] at h
        exact absurd h panics_ok
      · have hrun := h
        rw [decodeFields_step hnil, panics_run] at hrun
        rcases hrun with hpanic | ⟨item, hitem, hrun⟩
        · exact ⟨[], rest, rfl, panics_decodeRlpItem.mp hpanic⟩
        · obtain ⟨tail, htail, hlength, hfits⟩ := encode_of_decode hitem
          split at hrun
          · rename_i hnested
            rw [hnested] at htail hlength
            have hpos := Rlp.length_encode_pos (decoded.fields.length == 8) item.payload
            have hcount := congrArg List.length htail
            rw [List.length_append] at hcount
            rw [htail, decodeFields_encoded (by omega), ih (by omega) (by omega)] at h
            obtain ⟨payloads, tail', hflat, hover⟩ := h
            rw [List.length_append, List.length_singleton] at hflat
            refine ⟨item.payload :: payloads, tail', ?_, hover⟩
            rw [fieldsFrom, List.flatten_cons, List.append_assoc, ← hflat]
            exact htail
          · exact absurd hrun panics_refuse
    · rintro ⟨payloads, tail, hflat, hover⟩
      cases payloads with
      | nil =>
        have hrest : rest = tail := hflat
        rw [decodeFields_step (hrest ▸ overlong_ne_nil hover), panics_run]
        exact Or.inl (panics_decodeRlpItem.mpr (hrest ▸ hover))
      | cons payload payloads =>
        have hpos := Rlp.length_encode_pos (decoded.fields.length == 8) payload
        rw [fieldsFrom, List.flatten_cons, List.append_assoc] at hflat
        have hcount := congrArg List.length hflat
        rw [List.length_append] at hcount
        rw [hflat, decodeFields_encoded (by omega), ih (by omega) (by omega)]
        refine ⟨payloads, tail, ?_, hover⟩
        rw [List.length_append, List.length_singleton]

end Loop

/-! ## The signed transaction -/

theorem decodeFields_start {list : Bytes} : decodeFields list list.length 0 ⟨[], []⟩ =
    decodeFields ([] ++ list) list.length ([] : Bytes).length ⟨[], []⟩ := rfl

-- What is accepted is the type byte and the encoding of twelve fields, of which the ninth alone is a list.
theorem decodeSigned_ok {raw : Bytes} {decoded : DecodedSigned} : decodeSigned raw = .ok decoded ↔
    ∃ payloads : List Bytes, payloads.length = 12 ∧ raw = 0x02 :: Rlp.encodeList (fieldsFrom 0 payloads).flatten ∧
      raw.length ≤ usizeBound ∧ decoded = ⟨fieldsFrom 0 payloads, payloads⟩ := by
  unfold decodeSigned
  rw [ensure_run_ok]
  constructor
  · rintro ⟨hhead, hrun⟩
    obtain ⟨body, rfl⟩ := List.head?_eq_some_iff.mp hhead
    rw [slice_ok ⟨by rw [List.length_cons]; omega, le_rfl⟩, ok_run, run_ok, List.take_length, List.drop_succ_cons,
      List.drop_zero] at hrun
    obtain ⟨item, hitem, hrun⟩ := hrun
    rw [ensure_run_ok, List.length_cons, Nat.add_sub_cancel] at hrun
    obtain ⟨⟨hnested, hconsumed⟩, hrun⟩ := hrun
    obtain ⟨rest, hbody, hlength, hfits⟩ := encode_of_decode hitem
    have hcount := congrArg List.length hbody
    rw [List.length_append] at hcount
    have hrest : rest = [] := List.eq_nil_of_length_eq_zero (by omega)
    rw [hrest, List.append_nil, hnested] at hbody
    have hpayload : item.payload.length ≤ body.length := hbody ▸ Rlp.length_le_encodeList item.payload
    rw [run_ok, decodeFields_start] at hrun
    obtain ⟨out, hfields, hrun⟩ := hrun
    rw [decodeFields_ok le_rfl (by omega)] at hfields
    obtain ⟨payloads, hflat, rfl⟩ := hfields
    rw [ensure_run_ok] at hrun
    obtain ⟨htwelve, hdecoded⟩ := hrun
    have hout : decoded = ⟨fieldsFrom 0 payloads, payloads⟩ := (Except.ok.inj hdecoded).symm
    refine ⟨payloads, by rw [← length_fieldsFrom 0]; exact htwelve, ?_, by rw [List.length_cons]; omega, hout⟩
    rw [hbody, hflat]
    rfl
  · rintro ⟨payloads, htwelve, rfl, hbound, rfl⟩
    refine ⟨rfl, ?_⟩
    rw [slice_ok ⟨by rw [List.length_cons]; omega, le_rfl⟩, ok_run, List.take_length, List.drop_succ_cons, List.drop_zero]
    have hlt : (Rlp.encode true (fieldsFrom 0 payloads).flatten).length < usizeBound := by
      rw [List.length_cons] at hbound
      exact hbound
    have hdecode := @decode_of_encode _ _ [] hlt
    rw [List.append_nil] at hdecode
    have hpayload : (fieldsFrom 0 payloads).flatten.length < usizeBound :=
      lt_of_le_of_lt (Rlp.length_le_encodeList _) hlt
    have hfields := (@decodeFields_ok [] _ _ ⟨[], []⟩ _ le_rfl hpayload).mpr ⟨payloads, rfl, rfl⟩
    rw [← decodeFields_start] at hfields
    show decodeRlpItem (Rlp.encode true _) >>= _ = _
    rw [hdecode, ok_run, ensure_run, if_pos ⟨rfl, rfl⟩, hfields, ok_run, ensure_run, if_pos]
    · rfl
    · show (fieldsFrom 0 payloads).length = 12
      rw [length_fieldsFrom, htwelve]

/-- An item header that the decoder reaches and that announces an overlong length. -/
def ReachesOverlong (raw : Bytes) : Prop := ∃ body, raw = 0x02 :: body ∧
  (Overlong body ∨ body.length < usizeBound ∧ ∃ payloads rest,
    body = Rlp.encodeList ((fieldsFrom 0 payloads).flatten ++ rest) ∧ Overlong rest)

theorem panics_decodeSigned {raw : Bytes} : Panics (decodeSigned raw) ↔ ReachesOverlong raw := by
  unfold decodeSigned
  rw [panics_ensure_run]
  constructor
  · rintro ⟨hhead, hrun⟩
    obtain ⟨body, rfl⟩ := List.head?_eq_some_iff.mp hhead
    refine ⟨body, rfl, ?_⟩
    rw [slice_ok ⟨by rw [List.length_cons]; omega, le_rfl⟩, ok_run, panics_run, List.take_length, List.drop_succ_cons,
      List.drop_zero] at hrun
    rcases hrun with hpanic | ⟨item, hitem, hrun⟩
    · exact Or.inl (panics_decodeRlpItem.mp hpanic)
    · rw [panics_ensure_run, List.length_cons, Nat.add_sub_cancel] at hrun
      obtain ⟨⟨hnested, hconsumed⟩, hrun⟩ := hrun
      obtain ⟨rest, hbody, hlength, hfits⟩ := encode_of_decode hitem
      have hcount := congrArg List.length hbody
      rw [List.length_append] at hcount
      have hrest : rest = [] := List.eq_nil_of_length_eq_zero (by omega)
      rw [hrest, List.append_nil, hnested] at hbody
      have hpayload : item.payload.length ≤ body.length := hbody ▸ Rlp.length_le_encodeList item.payload
      rw [panics_run, decodeFields_start, panics_decodeFields le_rfl (by omega)] at hrun
      rcases hrun with ⟨payloads, tail, hflat, hover⟩ | ⟨out, -, hrun⟩
      · refine Or.inr ⟨by omega, payloads, tail, ?_, hover⟩
        rw [hbody, hflat]
        rfl
      · rw [panics_ensure_run] at hrun
        exact absurd hrun.2 panics_ok
  · rintro ⟨body, rfl, hpanic⟩
    refine ⟨rfl, ?_⟩
    rw [slice_ok ⟨by rw [List.length_cons]; omega, le_rfl⟩, ok_run, List.take_length, List.drop_succ_cons, List.drop_zero,
      panics_run]
    rcases hpanic with hover | ⟨hlt, payloads, rest, rfl, hover⟩
    · exact Or.inl (panics_decodeRlpItem.mpr hover)
    · right
      have hdecode := @decode_of_encode true _ [] hlt
      rw [List.append_nil] at hdecode
      have hpayload : ((fieldsFrom 0 payloads).flatten ++ rest).length < usizeBound :=
        lt_of_le_of_lt (Rlp.length_le_encodeList _) hlt
      have hloop := (@panics_decodeFields [] _ _ ⟨[], []⟩ le_rfl hpayload).mpr
        ⟨payloads, rest, rfl, hover⟩
      rw [← decodeFields_start] at hloop
      refine ⟨_, hdecode, ?_⟩
      rw [panics_ensure_run, panics_run]
      exact ⟨⟨rfl, rfl⟩, Or.inl hloop⟩

end PaymentNode.Native
