import PaymentNode.Lib.BigEndian

/-!
# Rlp — recursive length prefix encoding

A string or a list of already encoded items is a header and its payload; a single byte below `0x80` is its own
encoding.  The header of a payload of 56 bytes or more carries the length in as few bytes as it takes.
-/

namespace Rlp

open BigEndian

/-- The header of a payload of `length` bytes; lengths are written through eight bytes. -/
def header (short long length : ℕ) : Bytes :=
  if length < 56 then [UInt8.ofNat (short + length)]
  else UInt8.ofNat (long + (strip (fixed 8 length)).length) :: strip (fixed 8 length)

def encodeString (payload : Bytes) : Bytes :=
  if payload.length = 1 ∧ payload.head?.any (· < 0x80) then payload
  else header 0x80 0xb7 payload.length ++ payload

def encodeList (payload : Bytes) : Bytes := header 0xc0 0xf7 payload.length ++ payload

def encode (nested : Bool) (payload : Bytes) : Bytes := if nested then encodeList payload else encodeString payload

theorem header_short {short long length : ℕ} (h : length < 56) :
    header short long length = [UInt8.ofNat (short + length)] := if_pos h

theorem header_long {short long length : ℕ} (h : 56 ≤ length) : header short long length =
    UInt8.ofNat (long + (strip (fixed 8 length)).length) :: strip (fixed 8 length) := if_neg (by omega)

/-- A length that fills its bytes is written in exactly these bytes. -/
theorem strip_size {size : Bytes} (hlength : size.length ≤ 8) (hhead : size.head? ≠ some 0) :
    strip (fixed 8 (value size)) = size := by
  rw [strip_fixed hlength, strip_of_head hhead]

theorem size_pos {length : ℕ} (h : 0 < length) (hbound : length < 2 ^ 64) : strip (fixed 8 length) ≠ [] := by
  intro hnil
  have hvalue := value_strip (fixed 8 length)
  rw [hnil, value_fixed (by norm_num at hbound ⊢; exact hbound)] at hvalue
  exact absurd hvalue.symm (by rw [value_nil]; omega)

theorem size_length_le (length : ℕ) : (strip (fixed 8 length)).length ≤ 8 := by
  have hle := length_strip_le (fixed 8 length)
  rwa [length_fixed] at hle

theorem encodeString_one {b : UInt8} (h : b < 0x80) : encodeString [b] = [b] := by
  unfold encodeString
  rw [if_pos ⟨rfl, by simpa using h⟩]

theorem encodeString_header {payload : Bytes} (h : ∀ b, payload = [b] → 0x80 ≤ b) :
    encodeString payload = header 0x80 0xb7 payload.length ++ payload := by
  unfold encodeString
  rw [if_neg]
  rintro ⟨hlength, hany⟩
  obtain ⟨b, rfl⟩ := List.length_eq_one_iff.mp hlength
  have hb := h b rfl
  rw [List.head?_cons, Option.any_some, decide_eq_true_eq] at hany
  exact absurd hany (UInt8.not_lt.mpr hb)

/-! ## The three forms of an encoding -/

theorem encode_one {b : UInt8} (h : b < 0x80) : encode false [b] = [b] := encodeString_one h

theorem encode_short {nested : Bool} {payload : Bytes} (h : payload.length < 56)
    (hsingle : nested = false → ∀ b, payload = [b] → 0x80 ≤ b) :
    encode nested payload = UInt8.ofNat ((if nested then 0xc0 else 0x80) + payload.length) :: payload := by
  cases nested with
  | true =>
    show header _ _ _ ++ payload = _
    rw [header_short h]
    rfl
  | false =>
    show encodeString payload = _
    rw [encodeString_header (hsingle rfl), header_short h]
    rfl

theorem encode_long {nested : Bool} {payload : Bytes} (h : 56 ≤ payload.length) : encode nested payload =
    UInt8.ofNat ((if nested then 0xf7 else 0xb7) + (strip (fixed 8 payload.length)).length) ::
      (strip (fixed 8 payload.length) ++ payload) := by
  cases nested with
  | true =>
    show header _ _ _ ++ payload = _
    rw [header_long h]
    rfl
  | false =>
    have hsingle : ∀ b, payload = [b] → 0x80 ≤ b := by
      intro b hb
      rw [hb, List.length_singleton] at h
      omega
    show encodeString payload = _
    rw [encodeString_header hsingle, header_long h]
    rfl

theorem encode_forms (nested : Bool) (payload : Bytes) :
    (∃ b, nested = false ∧ payload = [b] ∧ b < 0x80) ∨
    (payload.length < 56 ∧ (nested = false → ∀ b, payload = [b] → 0x80 ≤ b)) ∨ 56 ≤ payload.length := by
  by_cases hlong : 56 ≤ payload.length
  · exact Or.inr (Or.inr hlong)
  · by_cases hone : ∃ b, nested = false ∧ payload = [b] ∧ b < 0x80
    · exact Or.inl hone
    · refine Or.inr (Or.inl ⟨by omega, fun hnested b hb => ?_⟩)
      by_contra hsmall
      exact hone ⟨b, hnested, hb, UInt8.not_le.mp hsmall⟩

theorem length_encode_pos (nested : Bool) (payload : Bytes) : 0 < (encode nested payload).length := by
  rcases encode_forms nested payload with ⟨b, rfl, rfl, hb⟩ | ⟨hshort, hsingle⟩ | hlong
  · rw [encode_one hb]
    exact Nat.one_pos
  · rw [encode_short hshort hsingle]
    exact Nat.succ_pos _
  · rw [encode_long hlong]
    exact Nat.succ_pos _

theorem length_le_encodeList (payload : Bytes) : payload.length ≤ (encodeList payload).length := by
  unfold encodeList
  rw [List.length_append]
  exact Nat.le_add_left _ _

theorem length_encode_le (nested : Bool) (payload : Bytes) : (encode nested payload).length ≤ payload.length + 9 := by
  rcases encode_forms nested payload with ⟨b, rfl, rfl, hb⟩ | ⟨hshort, hsingle⟩ | hlong
  · rw [encode_one hb]
    exact Nat.le_add_right _ _
  · rw [encode_short hshort hsingle, List.length_cons]
    omega
  · have hsize := size_length_le payload.length
    rw [encode_long hlong, List.length_cons, List.length_append]
    omega

end Rlp
