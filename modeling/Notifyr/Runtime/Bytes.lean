import Notifyr.Runtime.Python
import Notifyr.Theory.Base64

/-!
# Bytes and their texts

Python `bytes` and the ways the security code turns them into text and back: UTF-8, Base64
(`b64_encode`, `b64_decode` of `app/utils/helper.py`) and `str(b)`, which is the literal that
denotes the bytes and not a decoding.
-/

namespace Notifyr

open Theory

/-- `bytes`. -/
abbrev Bytes := List UInt8

/-- `s.encode()`. -/
def encodeUtf8 (s : String) : Bytes := s.toByteArray.data.toList

/-- `b.decode()`. -/
def decodeUtf8 (b : Bytes) : Py String :=
  match String.fromUTF8? b.toByteArray with
  | some s => .ok s
  | none => .error .unicodeDecodeError

theorem toByteArray_encodeUtf8 (s : String) : (encodeUtf8 s).toByteArray = s.toByteArray := by
  apply ByteArray.ext
  apply Array.toList_inj.mp
  rw [List.toList_data_toByteArray]
  rfl

/-- Decoding what was encoded. -/
@[simp] theorem decodeUtf8_encodeUtf8 (s : String) : decodeUtf8 (encodeUtf8 s) = .ok s := by
  unfold decodeUtf8
  rw [toByteArray_encodeUtf8]
  have hvalid : String.fromUTF8? s.toByteArray = some s := dif_pos s.isValidUTF8
  rw [hvalid]

/-- Encoding what was decoded. -/
theorem encodeUtf8_of_decodeUtf8 {b : Bytes} {s : String} (h : decodeUtf8 b = .ok s) :
    encodeUtf8 s = b := by
  unfold decodeUtf8 String.fromUTF8? at h
  by_cases hvalid : b.toByteArray.IsValidUTF8
  · rw [dif_pos hvalid] at h
    cases h
    exact List.toList_data_toByteArray
  · rw [dif_neg hvalid] at h
    cases h

/-- `b64_encode`: Base64 of the UTF-8 bytes. -/
def b64Encode (value : String) : String := String.ofList (Base64.encode (encodeUtf8 value))

/-- `b64_decode`. -/
def b64Decode (value : String) : Py String :=
  match Base64.decode value.toList with
  | some bytes => decodeUtf8 bytes
  | none => .error .valueError

/-- Decoding what was encoded. -/
@[simp] theorem b64Decode_b64Encode (value : String) : b64Decode (b64Encode value) = .ok value := by
  unfold b64Decode b64Encode
  rw [String.toList_ofList, Base64.decode_encode]
  exact decodeUtf8_encodeUtf8 value

/-- A hexadecimal digit. -/
def hexDigit (n : Nat) : Char := "0123456789abcdef".toList.getD n '0'

/-- A byte inside a `bytes` literal with a given quote. -/
def reprByte (quote : UInt8) (b : UInt8) : List Char :=
  let c := Char.ofNat b.toNat
  if b = quote ∨ b = 92 then ['\\', c]
  else if b = 9 then ['\\', 't']
  else if b = 10 then ['\\', 'n']
  else if b = 13 then ['\\', 'r']
  else if b < 32 ∨ 127 ≤ b then ['\\', 'x', hexDigit (b.toNat / 16), hexDigit (b.toNat % 16)]
  else [c]

/-- `str(b)`: the `bytes` literal. Double quotes are used when the bytes hold a single quote and
no double one. -/
def bytesRepr (bs : Bytes) : String :=
  let quote : UInt8 := if 39 ∈ bs ∧ 34 ∉ bs then 34 else 39
  let q := Char.ofNat quote.toNat
  String.ofList ('b' :: q :: bs.flatMap (reprByte quote) ++ [q])

theorem reprByte_pos (quote b : UInt8) : 1 ≤ (reprByte quote b).length := by
  unfold reprByte
  split_ifs <;> simp

/-- The literal is longer than the bytes. -/
theorem length_bytesRepr (bs : Bytes) : bs.length + 3 ≤ (bytesRepr bs).toList.length := by
  have hflat : ∀ quote, bs.length ≤ (bs.flatMap (reprByte quote)).length := by
    intro quote
    induction bs with
    | nil => simp
    | cons b rest ih =>
      rw [List.flatMap_cons, List.length_append, List.length_cons]
      have hb := reprByte_pos quote b
      omega
  unfold bytesRepr
  rw [String.toList_ofList]
  have h := hflat (if 39 ∈ bs ∧ 34 ∉ bs then 34 else 39)
  simp only [List.cons_append, List.length_cons, List.length_append, List.length_nil]
  omega

theorem encodeUtf8_ofList (cs : List Char) :
    encodeUtf8 (String.ofList cs) = cs.flatMap String.utf8EncodeChar := by
  unfold encodeUtf8
  rw [String.toByteArray_ofList, List.utf8Encode, List.toList_data_toByteArray]

theorem encodeUtf8_eq (s : String) : encodeUtf8 s = s.toList.flatMap String.utf8EncodeChar := by
  rw [← encodeUtf8_ofList, String.ofList_toList]

/-- A text has at most as many characters as bytes. -/
theorem length_le_encodeUtf8 (s : String) : s.toList.length ≤ (encodeUtf8 s).length := by
  rw [encodeUtf8_eq]
  induction s.toList with
  | nil => simp
  | cons c cs ih =>
    have hpos := List.length_pos_iff.mpr (String.utf8EncodeChar_ne_nil (c := c))
    rw [List.flatMap_cons, List.length_append, List.length_cons]
    omega

/-- Printing bytes and encoding the literal never gives the bytes back. -/
theorem encodeUtf8_bytesRepr_ne (bs : Bytes) : encodeUtf8 (bytesRepr bs) ≠ bs := by
  intro h
  have h₁ := length_bytesRepr bs
  have h₂ := length_le_encodeUtf8 (bytesRepr bs)
  rw [h] at h₂
  omega

end Notifyr
