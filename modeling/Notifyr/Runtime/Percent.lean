import Mathlib.Algebra.Ring.Nat
import Mathlib.Data.List.Count
import Notifyr.Runtime.Bytes

/-!
# Percent coding

How `urllib.parse` writes text into a URL and reads it back, character by character.

- `decodeReplace`: decoding UTF-8 with `errors="replace"`.
- `unquote`, `unquotePlus`: percent decoding, each run of ASCII characters decoded as bytes.
- `quotePlus`: the encoder; `unquotePlus_quotePlus`: what it writes is read back.
- `unquote_append_cons`: decoding can be cut at an ASCII character that no escape has.
- `given`: an optional text that is there and not empty.
- `weight_unquotePlus_le`: decoding makes no text heavier, however text is weighed.
-/

namespace Notifyr

/-- The text of a URL, as its characters. -/
abbrev UrlText := List Char

/-- `if value` on an optional text. -/
def given (value : Option UrlText) : Option UrlText := value.filter (· ≠ [])

theorem given_given (value : Option UrlText) : given (given value) = given value := by
  unfold given
  rw [Option.filter_filter]
  simp

/-! ## UTF-8 with replacement -/

/-- Whether `b` is a continuation byte. -/
def isContinuation (b : UInt8) : Bool := 0x80 ≤ b && b ≤ 0xBF

/-- Whether `b` may follow the first byte `lead` of a sequence of three or four. -/
def mayFollow (lead b : UInt8) : Bool :=
  isContinuation b &&
    if lead = 0xE0 then 0xA0 ≤ b
    else if lead = 0xED then b ≤ 0x9F
    else if lead = 0xF0 then 0x90 ≤ b
    else if lead = 0xF4 then b ≤ 0x8F
    else true

/-- How many bytes one replacement character stands for, after the byte `lead`: the longest
beginning of a sequence that was cut short. -/
def truncated (lead : UInt8) : Bytes → ℕ
  | [] => 0
  | b :: rest =>
    if 0xE0 ≤ lead ∧ lead ≤ 0xF4 ∧ mayFollow lead b then
      if 0xF0 ≤ lead ∧ (rest.head?.any isContinuation) then 2 else 1
    else 0

/-- The character a text of bytes begins with, and how many bytes follow its first one. -/
def nextChar (b : UInt8) (rest : Bytes) : Char × ℕ :=
  match (b :: rest).toByteArray.utf8DecodeChar? 0 with
  | some c => (c, c.utf8Size - 1)
  | none => ('\uFFFD', truncated b rest)

/-- The decoder, with the number of bytes to pass over. -/
def decodeFrom : ℕ → Bytes → UrlText
  | _, [] => []
  | n + 1, _ :: rest => decodeFrom n rest
  | 0, b :: rest => (nextChar b rest).1 :: decodeFrom (nextChar b rest).2 rest

/-- `bytes.decode("utf-8", "replace")`. -/
def decodeReplace (bs : Bytes) : UrlText := decodeFrom 0 bs

/-- `str.encode("utf-8")`. -/
def encodeText (s : UrlText) : Bytes := s.flatMap String.utf8EncodeChar

@[simp] theorem encodeText_cons (c : Char) (s : UrlText) :
    encodeText (c :: s) = String.utf8EncodeChar c ++ encodeText s := rfl

theorem decodeFrom_drop (n : ℕ) (bs : Bytes) : decodeFrom n bs = decodeFrom 0 (bs.drop n) := by
  induction bs generalizing n with
  | nil => cases n <;> rfl
  | cons b rest ih =>
    cases n with
    | zero => rfl
    | succ n => exact ih n

/-- A character that was encoded is decoded to itself. -/
theorem decodeReplace_append (c : Char) (bs : Bytes) :
    decodeReplace (String.utf8EncodeChar c ++ bs) = c :: decodeReplace bs := by
  have hlen := String.length_utf8EncodeChar c
  cases henc : String.utf8EncodeChar c with
  | nil => exact absurd henc String.utf8EncodeChar_ne_nil
  | cons b rest =>
    have hdec : (b :: (rest ++ bs)).toByteArray.utf8DecodeChar? 0 = some c := by
      rw [← List.cons_append, ← henc, List.toByteArray_append]
      exact ByteArray.utf8DecodeChar?_utf8EncodeChar_append
    have hnext : nextChar b (rest ++ bs) = (c, c.utf8Size - 1) := by
      unfold nextChar
      rw [hdec]
    rw [henc, List.length_cons] at hlen
    show (nextChar b (rest ++ bs)).1 :: decodeFrom (nextChar b (rest ++ bs)).2 (rest ++ bs) = _
    rw [hnext, decodeFrom_drop]
    show c :: decodeFrom 0 ((rest ++ bs).drop (c.utf8Size - 1)) = _
    rw [← hlen, Nat.add_sub_cancel, List.drop_left]
    rfl

/-- Text is read back from its bytes. -/
@[simp] theorem decodeReplace_encodeText (s : UrlText) : decodeReplace (encodeText s) = s := by
  induction s with
  | nil => rfl
  | cons c s ih => rw [encodeText_cons, decodeReplace_append, ih]

/-! ## Percent decoding -/

/-- The value of a hexadecimal digit. -/
def fromHex (c : Char) : Option ℕ :=
  if c.isDigit then some (c.toNat - '0'.toNat)
  else if 'a' ≤ c ∧ c ≤ 'f' then some (c.toNat - 'a'.toNat + 10)
  else if 'A' ≤ c ∧ c ≤ 'F' then some (c.toNat - 'A'.toNat + 10)
  else none

/-- The byte two hexadecimal digits at the beginning of a text give. -/
def hexByte : UrlText → Option UInt8
  | hi :: lo :: _ => do
    let h ← fromHex hi
    let l ← fromHex lo
    pure (UInt8.ofNat (16 * h + l))
  | _ => none

/-- A piece of a text that is being decoded: a byte of an ASCII run, or a character that ends
the run. -/
inductive Token where
  | byte (b : UInt8)
  | char (c : Char)
  deriving DecidableEq

/-- What a text begins with, and how many characters follow the first one in it: the rule of
`unquote_to_bytes` on the ASCII runs, where a `%` without two digits is kept. -/
def nextToken (c : Char) (rest : UrlText) : Token × ℕ :=
  if 128 ≤ c.toNat then (.char c, 0)
  else if c = '%' then
    match hexByte rest with
    | some b => (.byte b, 2)
    | none => (.byte (UInt8.ofNat c.toNat), 0)
  else (.byte (UInt8.ofNat c.toNat), 0)

/-- The pieces of a text, with the number of characters to pass over. -/
def tokensFrom : ℕ → UrlText → List Token
  | _, [] => []
  | n + 1, _ :: rest => tokensFrom n rest
  | 0, c :: rest => (nextToken c rest).1 :: tokensFrom (nextToken c rest).2 rest

/-- The bytes before the first character, and what follows them, decoded run by run. -/
def decodeTokens : Bytes → List Token → UrlText
  | acc, [] => decodeReplace acc
  | acc, .byte b :: rest => decodeTokens (acc ++ [b]) rest
  | acc, .char c :: rest => decodeReplace acc ++ c :: decodeTokens [] rest

/-- `urllib.parse.unquote`. -/
def unquote (s : UrlText) : UrlText := decodeTokens [] (tokensFrom 0 s)

/-- `s.replace('+', ' ')`. -/
def replacePlus (s : UrlText) : UrlText := s.map fun c => if c = '+' then ' ' else c

/-- The decoding of a key or a value of a query string. -/
def unquotePlus (s : UrlText) : UrlText := unquote (replacePlus s)

/-! ## Percent encoding -/

/-- The digits of `%02X`. -/
def hexUpper (n : ℕ) : Char := "0123456789ABCDEF".toList.getD n '0'

/-- The bytes `quote` leaves as they are. -/
def isUnreserved (b : UInt8) : Bool :=
  (48 ≤ b && b ≤ 57) || (65 ≤ b && b ≤ 90) || (97 ≤ b && b ≤ 122) ||
    b == 95 || b == 46 || b == 45 || b == 126

/-- One byte in a query string. -/
def quoteByte (b : UInt8) : UrlText :=
  if b = 32 then ['+']
  else if isUnreserved b then [Char.ofNat b.toNat]
  else ['%', hexUpper (b.toNat / 16), hexUpper (b.toNat % 16)]

/-- `urllib.parse.quote_plus`. -/
def quotePlus (s : UrlText) : UrlText := (encodeText s).flatMap quoteByte

theorem fromHex_hexUpper {n : ℕ} (h : n < 16) : fromHex (hexUpper n) = some n := by
  have hall : ∀ m < 16, fromHex (hexUpper m) = some m := by decide
  exact hall n h

theorem hexByte_hexUpper (b : UInt8) (rest : UrlText) :
    hexByte (hexUpper (b.toNat / 16) :: hexUpper (b.toNat % 16) :: rest) = some b := by
  have hb := b.toNat_lt
  show (fromHex (hexUpper (b.toNat / 16))).bind (fun h =>
    (fromHex (hexUpper (b.toNat % 16))).bind fun l => some (UInt8.ofNat (16 * h + l))) = some b
  rw [fromHex_hexUpper (by omega), fromHex_hexUpper (by omega)]
  show some (UInt8.ofNat (16 * (b.toNat / 16) + b.toNat % 16)) = some b
  rw [Nat.div_add_mod, UInt8.ofNat_toNat]

theorem hexUpper_ne_plus {n : ℕ} (h : n < 16) : hexUpper n ≠ '+' := by
  have hall : ∀ m < 16, hexUpper m ≠ '+' := by decide
  exact hall n h

theorem toNat_ofNat_byte (b : UInt8) : (Char.ofNat b.toNat).toNat = b.toNat := by
  have hb := b.toNat_lt
  have hvalid : b.toNat.isValidChar := Or.inl (by omega)
  unfold Char.ofNat
  rw [dif_pos hvalid]
  rfl

/-- An unreserved byte is an ASCII character that decoding leaves as it is. -/
theorem unreserved_spec {b : UInt8} (h : isUnreserved b) :
    b.toNat < 128 ∧ b.toNat ≠ 37 ∧ b.toNat ≠ 38 ∧ b.toNat ≠ 43 ∧ b.toNat ≠ 61 ∧
      b.toNat ≠ 35 ∧ b.toNat ≠ 63 := by
  simp only [isUnreserved, Bool.or_eq_true, Bool.and_eq_true, decide_eq_true_eq, beq_iff_eq,
    UInt8.le_iff_toNat_le, ← UInt8.toNat_inj, UInt8.reduceToNat] at h
  omega

theorem tokensFrom_ascii {c : Char} (h : c.toNat < 128) (hc : c ≠ '%') (rest : UrlText) :
    tokensFrom 0 (c :: rest) = .byte (UInt8.ofNat c.toNat) :: tokensFrom 0 rest := by
  have hnext : nextToken c rest = (.byte (UInt8.ofNat c.toNat), 0) := by
    unfold nextToken
    rw [if_neg (by omega), if_neg hc]
  show (nextToken c rest).1 :: tokensFrom (nextToken c rest).2 rest = _
  rw [hnext]

theorem tokensFrom_percent {rest : UrlText} {b : UInt8} (h : hexByte rest = some b) :
    tokensFrom 0 ('%' :: rest) = .byte b :: tokensFrom 2 rest := by
  have hnext : nextToken '%' rest = (.byte b, 2) := by
    unfold nextToken
    rw [if_neg (by decide), if_pos rfl, h]
  show (nextToken '%' rest).1 :: tokensFrom (nextToken '%' rest).2 rest = _
  rw [hnext]

/-- One byte is read back from what it is written as. -/
theorem tokensFrom_quoteByte (b : UInt8) (rest : UrlText) :
    tokensFrom 0 (replacePlus (quoteByte b) ++ rest) = .byte b :: tokensFrom 0 rest := by
  unfold quoteByte
  split
  · rename_i h
    subst h
    rfl
  · split
    · rename_i _ h
      have hspec := unreserved_spec h
      have hnat := toNat_ofNat_byte b
      have hplus : Char.ofNat b.toNat ≠ '+' := fun e => by
        rw [e] at hnat
        exact hspec.2.2.2.1 hnat.symm
      have hpercent : Char.ofNat b.toNat ≠ '%' := fun e => by
        rw [e] at hnat
        exact hspec.2.1 hnat.symm
      show tokensFrom 0 ((if Char.ofNat b.toNat = '+' then ' ' else Char.ofNat b.toNat) :: rest) = _
      rw [if_neg hplus, tokensFrom_ascii (by omega) hpercent, hnat, UInt8.ofNat_toNat]
    · have hb := b.toNat_lt
      show tokensFrom 0 ('%' :: (if hexUpper (b.toNat / 16) = '+' then ' ' else _) ::
        (if hexUpper (b.toNat % 16) = '+' then ' ' else _) :: rest) = _
      rw [if_neg (hexUpper_ne_plus (by omega)), if_neg (hexUpper_ne_plus (by omega)),
        tokensFrom_percent (hexByte_hexUpper b rest)]
      rfl

theorem replacePlus_append (s t : UrlText) :
    replacePlus (s ++ t) = replacePlus s ++ replacePlus t := List.map_append

theorem tokensFrom_quotePlus (bs : Bytes) (rest : UrlText) :
    tokensFrom 0 (replacePlus (bs.flatMap quoteByte) ++ rest) =
      bs.map Token.byte ++ tokensFrom 0 rest := by
  induction bs with
  | nil => rfl
  | cons b bs ih =>
    rw [List.flatMap_cons, replacePlus_append, List.append_assoc, tokensFrom_quoteByte, ih]
    rfl

theorem decodeTokens_bytes (acc bs : Bytes) :
    decodeTokens acc (bs.map Token.byte) = decodeReplace (acc ++ bs) := by
  induction bs generalizing acc with
  | nil => rw [List.append_nil]; rfl
  | cons b bs ih =>
    show decodeTokens (acc ++ [b]) (bs.map Token.byte) = _
    rw [ih, List.append_assoc, List.singleton_append]

/-- Every text is read back from its encoding. -/
@[simp] theorem unquotePlus_quotePlus (s : UrlText) : unquotePlus (quotePlus s) = s := by
  have htokens := tokensFrom_quotePlus (encodeText s) []
  rw [List.append_nil] at htokens
  show decodeTokens [] (tokensFrom 0 (replacePlus ((encodeText s).flatMap quoteByte))) = s
  rw [htokens]
  show decodeTokens [] ((encodeText s).map Token.byte ++ []) = s
  rw [List.append_nil, decodeTokens_bytes, List.nil_append, decodeReplace_encodeText]

/-- The characters that mean something in a query string. -/
def IsReserved (c : Char) : Prop := c = '&' ∨ c = '=' ∨ c = '#' ∨ c = '?'

theorem not_isReserved_hexUpper {n : ℕ} (h : n < 16) : ¬ IsReserved (hexUpper n) := by
  have hall : ∀ m < 16, hexUpper m ≠ '&' ∧ hexUpper m ≠ '=' ∧ hexUpper m ≠ '#' ∧
      hexUpper m ≠ '?' := by decide
  have hn := hall n h
  rintro (hc | hc | hc | hc)
  · exact hn.1 hc
  · exact hn.2.1 hc
  · exact hn.2.2.1 hc
  · exact hn.2.2.2 hc

/-- The encoder writes none of the characters that mean something. -/
theorem not_isReserved_quotePlus {s : UrlText} {c : Char} (hc : c ∈ quotePlus s) :
    ¬ IsReserved c := by
  obtain ⟨b, -, hb⟩ := List.mem_flatMap.mp hc
  have hlt := b.toNat_lt
  unfold quoteByte at hb
  split at hb
  · rw [List.mem_singleton] at hb
    subst hb
    simp [IsReserved]
  · split at hb
    · rename_i _ h
      rw [List.mem_singleton] at hb
      have hspec := unreserved_spec h
      have hnat := toNat_ofNat_byte b
      rw [← hb] at hnat
      rintro (rfl | rfl | rfl | rfl) <;> simp at hnat <;> omega
    · simp only [List.mem_cons, List.not_mem_nil, or_false] at hb
      obtain rfl | rfl | rfl := hb
      · simp [IsReserved]
      · exact not_isReserved_hexUpper (by omega)
      · exact not_isReserved_hexUpper (by omega)

/-! ## Text that decoding leaves as it is -/

theorem utf8EncodeChar_ascii {c : Char} (h : c.toNat < 128) :
    String.utf8EncodeChar c = [UInt8.ofNat c.toNat] := by
  unfold String.utf8EncodeChar
  exact if_pos (Nat.le_of_lt_succ h)

theorem encodeText_append (s t : UrlText) : encodeText (s ++ t) = encodeText s ++ encodeText t :=
  List.flatMap_append

theorem nextToken_le (c : Char) (s : UrlText) : (nextToken c s).2 ≤ s.length := by
  unfold nextToken
  split
  · exact Nat.zero_le _
  · split
    · split
      · rename_i b hb
        cases s with
        | nil => cases hb
        | cons d s =>
          cases s with
          | nil => cases hb
          | cons e s =>
            show 2 ≤ s.length + 2
            omega
      · exact Nat.zero_le _
    · exact Nat.zero_le _

theorem nextToken_of_zero {c : Char} {s : UrlText} (h : (nextToken c s).2 = 0) :
    (nextToken c s).1 =
      if 128 ≤ c.toNat then .char c else .byte (UInt8.ofNat c.toNat) := by
  unfold nextToken at h ⊢
  split
  · rfl
  · rename_i hascii
    rw [if_neg hascii] at h
    split
    · rename_i hc
      rw [if_pos hc] at h
      cases hhex : hexByte s with
      | none => rfl
      | some b =>
        rw [hhex] at h
        cases h
    · rfl

theorem nextToken_of_ne {c : Char} (h : c ≠ '%') (s : UrlText) : (nextToken c s).2 = 0 := by
  unfold nextToken
  rw [if_neg h]
  split <;> rfl

theorem length_tokensFrom_le (n : ℕ) (s : UrlText) :
    (tokensFrom n s).length ≤ s.length - n := by
  induction s generalizing n with
  | nil => cases n <;> exact Nat.zero_le _
  | cons c s ih =>
    cases n with
    | succ n =>
      have hrest := ih n
      show (tokensFrom n s).length ≤ _
      rw [List.length_cons]
      omega
    | zero =>
      have hrest := ih (nextToken c s).2
      show (tokensFrom (nextToken c s).2 s).length + 1 ≤ s.length + 1 - 0
      omega

/-- Text without an escape is its own decoding: each piece is one character. -/
theorem decodeTokens_encodeText (a : UrlText) {s : UrlText}
    (h : (tokensFrom 0 s).length = s.length) :
    decodeTokens (encodeText a) (tokensFrom 0 s) = a ++ s := by
  induction s generalizing a with
  | nil => rw [List.append_nil]; exact decodeReplace_encodeText a
  | cons c s ih =>
    have hlen : (tokensFrom (nextToken c s).2 s).length + 1 = s.length + 1 := h
    have hle := length_tokensFrom_le (nextToken c s).2 s
    have hskip := nextToken_le c s
    have hzero : (nextToken c s).2 = 0 := by omega
    have htoken := nextToken_of_zero hzero
    rw [hzero] at hlen
    show decodeTokens (encodeText a) ((nextToken c s).1 :: tokensFrom (nextToken c s).2 s) = _
    rw [htoken, hzero]
    by_cases hascii : c.toNat < 128
    · have hone : encodeText [c] = [UInt8.ofNat c.toNat] := by
        rw [encodeText_cons, utf8EncodeChar_ascii hascii]
        rfl
      rw [if_neg (by omega)]
      show decodeTokens (encodeText a ++ [UInt8.ofNat c.toNat]) (tokensFrom 0 s) = a ++ c :: s
      rw [← hone, ← encodeText_append, ih (a ++ [c]) (by omega), List.append_assoc]
      rfl
    · rw [if_pos (by omega)]
      show decodeReplace (encodeText a) ++ c :: decodeTokens (encodeText []) (tokensFrom 0 s) = _
      rw [decodeReplace_encodeText, ih [] (by omega)]
      rfl

theorem length_tokensFrom_of_not_mem {s : UrlText} (h : '%' ∉ s) :
    (tokensFrom 0 s).length = s.length := by
  induction s with
  | nil => rfl
  | cons c s ih =>
    have hc : c ≠ '%' := fun e => h (e ▸ List.mem_cons_self)
    have hrest := ih fun e => h (List.mem_cons_of_mem c e)
    show (tokensFrom (nextToken c s).2 s).length + 1 = s.length + 1
    rw [nextToken_of_ne hc, hrest]

/-- Text without a `%` is not changed by `unquote`. -/
theorem unquote_of_not_mem {s : UrlText} (h : '%' ∉ s) : unquote s = s :=
  decodeTokens_encodeText [] (length_tokensFrom_of_not_mem h)

theorem replacePlus_of_not_mem {s : UrlText} (h : '+' ∉ s) : replacePlus s = s := by
  refine (List.map_congr_left fun c hc => ?_).trans (List.map_id s)
  exact if_neg fun e => h (by rwa [e] at hc)

/-- Text without a `%` and a `+` is its own decoding. -/
theorem unquotePlus_of_not_mem {s : UrlText} (hpercent : '%' ∉ s) (hplus : '+' ∉ s) :
    unquotePlus s = s := by
  unfold unquotePlus
  rw [replacePlus_of_not_mem hplus, unquote_of_not_mem hpercent]


/-! ## Where decoding can be cut -/

/-- A sequence of several bytes has no ASCII byte. -/
theorem not_ascii_of_mem {c : Char} (h : 128 ≤ c.toNat) {b : UInt8}
    (hb : b ∈ String.utf8EncodeChar c) : 128 ≤ b.toNat := by
  have hlow : ¬ c.val.toNat ≤ 127 := by
    show ¬ c.toNat ≤ 127
    omega
  unfold String.utf8EncodeChar at hb
  dsimp only at hb
  rw [if_neg hlow] at hb
  split at hb
  · simp only [List.mem_cons, List.not_mem_nil, or_false] at hb
    rcases hb with rfl | rfl <;> (rw [UInt8.toNat_ofNat']; omega)
  · split at hb
    · simp only [List.mem_cons, List.not_mem_nil, or_false] at hb
      rcases hb with rfl | rfl | rfl <;> (rw [UInt8.toNat_ofNat']; omega)
    · simp only [List.mem_cons, List.not_mem_nil, or_false] at hb
      rcases hb with rfl | rfl | rfl | rfl <;> (rw [UInt8.toNat_ofNat']; omega)

theorem isContinuation_ascii {b : UInt8} (h : b.toNat < 128) : isContinuation b = false := by
  unfold isContinuation
  rw [Bool.and_eq_false_iff]
  left
  rw [decide_eq_false_iff_not, UInt8.le_iff_toNat_le]
  show ¬ 128 ≤ b.toNat
  omega

theorem mayFollow_ascii (lead : UInt8) {b : UInt8} (h : b.toNat < 128) :
    mayFollow lead b = false := by
  unfold mayFollow
  rw [isContinuation_ascii h, Bool.false_and]

theorem truncated_append (lead : UInt8) (bs : Bytes) {b : UInt8} (h : b.toNat < 128)
    (rest : Bytes) : truncated lead (bs ++ b :: rest) = truncated lead bs := by
  cases bs with
  | nil =>
    show truncated lead (b :: rest) = 0
    rw [truncated, if_neg]
    rintro ⟨-, -, hfollow⟩
    rw [mayFollow_ascii lead h] at hfollow
    cases hfollow
  | cons b₁ bs =>
    cases bs with
    | nil =>
      show truncated lead (b₁ :: b :: rest) = truncated lead [b₁]
      have hsecond : (List.head? (b :: rest)).any isContinuation = false :=
        isContinuation_ascii h
      have hnone : (List.head? ([] : Bytes)).any isContinuation = false := rfl
      rw [truncated, truncated, hsecond, hnone]
    | cons b₂ bs => rfl

theorem truncated_le (lead : UInt8) (bs : Bytes) : truncated lead bs ≤ bs.length := by
  cases bs with
  | nil => exact Nat.le_refl 0
  | cons b bs =>
    rw [truncated, List.length_cons]
    split
    · split
      · rename_i _ htwo
        cases bs with
        | nil => simp at htwo
        | cons b₂ bs =>
          rw [List.length_cons]
          omega
      · omega
    · omega

theorem nextChar_le (b : UInt8) (rest : Bytes) : (nextChar b rest).2 ≤ rest.length := by
  unfold nextChar
  split
  · rename_i c hc
    have hle := ByteArray.le_size_of_utf8DecodeChar?_eq_some hc
    rw [List.size_toByteArray, List.length_cons] at hle
    show c.utf8Size - 1 ≤ rest.length
    omega
  · exact truncated_le b rest

/-- Bytes that begin with an encoded character are decoded to it. -/
theorem utf8DecodeChar?_encode (c : Char) (bs : Bytes) :
    (String.utf8EncodeChar c ++ bs).toByteArray.utf8DecodeChar? 0 = some c := by
  rw [List.toByteArray_append]
  exact ByteArray.utf8DecodeChar?_utf8EncodeChar_append

/-- Bytes without a character at their beginning get none from an ASCII byte behind them. -/
theorem utf8DecodeChar?_append_none {x : UInt8} {bs : Bytes}
    (hdec : (x :: bs).toByteArray.utf8DecodeChar? 0 = none) {b : UInt8} (h : b.toNat < 128)
    (rest : Bytes) : (x :: bs ++ b :: rest).toByteArray.utf8DecodeChar? 0 = none := by
  cases hlong : (x :: bs ++ b :: rest).toByteArray.utf8DecodeChar? 0 with
  | none => rfl
  | some c =>
    obtain ⟨l, hl⟩ := ByteArray.exists_of_utf8DecodeChar?_eq_some hlong
    have hlist := congrArg (fun a : ByteArray => a.data.toList) hl
    simp only [ByteArray.data_append, Array.toList_append, List.toList_data_toByteArray]
      at hlist
    rcases List.append_eq_append_iff.mp hlist with ⟨more, henc, hmore⟩ | ⟨more, hbs, -⟩
    · cases more with
      | nil =>
        rw [List.append_nil] at henc
        rw [← henc, ← List.append_nil (String.utf8EncodeChar c), utf8DecodeChar?_encode] at hdec
        cases hdec
      | cons b' more =>
        -- the encoding would be long and have an ASCII byte
        obtain ⟨rfl, -⟩ := List.cons.inj hmore
        have hmem : b ∈ String.utf8EncodeChar c := by simp [henc]
        by_cases hc : c.toNat < 128
        · rw [utf8EncodeChar_ascii hc] at henc
          simp at henc
        · have hlow := not_ascii_of_mem (by omega) hmem
          omega
    · rw [hbs, utf8DecodeChar?_encode] at hdec
      cases hdec

/-- The next character does not depend on what comes from an ASCII byte on. -/
theorem nextChar_append (x : UInt8) (bs : Bytes) {b : UInt8} (h : b.toNat < 128) (rest : Bytes) :
    nextChar x (bs ++ b :: rest) = nextChar x bs := by
  unfold nextChar
  rw [← List.cons_append]
  cases hdec : (x :: bs).toByteArray.utf8DecodeChar? 0 with
  | some c =>
    have hlong := ByteArray.utf8DecodeChar?_append_eq_some hdec (b :: rest).toByteArray
    rw [← List.toByteArray_append] at hlong
    rw [hlong]
  | none =>
    rw [utf8DecodeChar?_append_none hdec h]
    show ('\uFFFD', truncated x (bs ++ b :: rest)) = _
    rw [truncated_append x bs h]

theorem decodeFrom_append {n : ℕ} {bs : Bytes} (hn : n ≤ bs.length) {b : UInt8}
    (h : b.toNat < 128) (rest : Bytes) :
    decodeFrom n (bs ++ b :: rest) = decodeFrom n bs ++ decodeReplace (b :: rest) := by
  induction bs generalizing n with
  | nil =>
    rw [List.length_nil] at hn
    obtain rfl : n = 0 := by omega
    rfl
  | cons x bs ih =>
    rw [List.length_cons] at hn
    cases n with
    | succ n => exact ih (by omega)
    | zero =>
      show (nextChar x (bs ++ b :: rest)).1 ::
        decodeFrom (nextChar x (bs ++ b :: rest)).2 (bs ++ b :: rest) = _
      rw [nextChar_append x bs h, ih (nextChar_le x bs)]
      rfl

/-- Bytes can be cut before an ASCII byte. -/
theorem decodeReplace_append_ascii (bs : Bytes) {b : UInt8} (h : b.toNat < 128) (rest : Bytes) :
    decodeReplace (bs ++ b :: rest) = decodeReplace bs ++ decodeReplace (b :: rest) :=
  decodeFrom_append (Nat.zero_le _) h rest

theorem decodeReplace_cons {c : Char} (h : c.toNat < 128) (bs : Bytes) :
    decodeReplace (UInt8.ofNat c.toNat :: bs) = c :: decodeReplace bs := by
  have hdec := decodeReplace_append c bs
  rwa [utf8EncodeChar_ascii h] at hdec

theorem decodeTokens_append_ascii (acc : Bytes) {b : UInt8} (h : b.toNat < 128) (bs : Bytes)
    (tokens : List Token) :
    decodeTokens (acc ++ b :: bs) tokens = decodeReplace acc ++ decodeTokens (b :: bs) tokens := by
  induction tokens generalizing bs with
  | nil => exact decodeReplace_append_ascii acc h bs
  | cons t tokens ih =>
    cases t with
    | byte x =>
      show decodeTokens (acc ++ b :: bs ++ [x]) tokens = _
      rw [List.append_assoc, List.cons_append, ih]
      rfl
    | char c =>
      show decodeReplace (acc ++ b :: bs) ++ c :: decodeTokens [] tokens = _
      rw [decodeReplace_append_ascii acc h, List.append_assoc]
      rfl

theorem decodeTokens_cons {c : Char} (h : c.toNat < 128) (bs : Bytes) (tokens : List Token) :
    decodeTokens (UInt8.ofNat c.toNat :: bs) tokens = c :: decodeTokens bs tokens := by
  induction tokens generalizing bs with
  | nil => exact decodeReplace_cons h bs
  | cons t tokens ih =>
    cases t with
    | byte x => exact ih (bs ++ [x])
    | char d =>
      show decodeReplace (UInt8.ofNat c.toNat :: bs) ++ d :: decodeTokens [] tokens = _
      rw [decodeReplace_cons h]
      rfl

theorem toNat_ofNat_ascii {c : Char} (h : c.toNat < 128) :
    (UInt8.ofNat c.toNat).toNat = c.toNat := by
  rw [UInt8.toNat_ofNat']
  omega

/-- The decoding of pieces can be cut before an ASCII character. -/
theorem decodeTokens_append (acc : Bytes) (before : List Token) {c : Char} (h : c.toNat < 128)
    (after : List Token) :
    decodeTokens acc (before ++ .byte (UInt8.ofNat c.toNat) :: after) =
      decodeTokens acc before ++ c :: decodeTokens [] after := by
  induction before generalizing acc with
  | nil =>
    show decodeTokens (acc ++ [UInt8.ofNat c.toNat]) after = decodeReplace acc ++ _
    rw [decodeTokens_append_ascii acc (by rw [toNat_ofNat_ascii h]; exact h), decodeTokens_cons h]
  | cons t before ih =>
    cases t with
    | byte x => exact ih (acc ++ [x])
    | char d =>
      show decodeReplace acc ++ d :: decodeTokens [] (before ++ _) = _
      rw [ih, ← List.cons_append, ← List.append_assoc]
      rfl

theorem hexByte_append {c : Char} (h : fromHex c = none) (s rest : UrlText) :
    hexByte (s ++ c :: rest) = hexByte s := by
  cases s with
  | nil =>
    cases rest with
    | nil => rfl
    | cons d rest =>
      show (fromHex c).bind _ = none
      rw [h]
      rfl
  | cons d s =>
    cases s with
    | nil =>
      show (fromHex d).bind (fun x => (fromHex c).bind fun l => some (UInt8.ofNat (16 * x + l))) =
        none
      rw [h]
      cases fromHex d <;> rfl
    | cons e s => rfl

theorem nextToken_append {c : Char} (h : fromHex c = none) (x : Char) (s rest : UrlText) :
    nextToken x (s ++ c :: rest) = nextToken x s := by
  unfold nextToken
  rw [hexByte_append h]

theorem tokensFrom_append {n : ℕ} {s : UrlText} (hn : n ≤ s.length) {c : Char}
    (h : fromHex c = none) (rest : UrlText) :
    tokensFrom n (s ++ c :: rest) = tokensFrom n s ++ tokensFrom 0 (c :: rest) := by
  induction s generalizing n with
  | nil =>
    rw [List.length_nil] at hn
    obtain rfl : n = 0 := by omega
    rfl
  | cons x s ih =>
    rw [List.length_cons] at hn
    cases n with
    | succ n => exact ih (by omega)
    | zero =>
      show (nextToken x (s ++ c :: rest)).1 ::
        tokensFrom (nextToken x (s ++ c :: rest)).2 (s ++ c :: rest) = _
      rw [nextToken_append h, ih (nextToken_le x s)]
      rfl

/-- A character that decoding keeps, and that no escape has. -/
structure Delimiter (c : Char) : Prop where
  ascii : c.toNat < 128
  hex : fromHex c = none
  percent : c ≠ '%'
  plus : c ≠ '+'

/-- Decoding can be cut at a delimiter. -/
theorem unquote_append_cons {c : Char} (h : Delimiter c) (s rest : UrlText) :
    unquote (s ++ c :: rest) = unquote s ++ c :: unquote rest := by
  unfold unquote
  rw [tokensFrom_append (Nat.zero_le _) h.hex, tokensFrom_ascii h.ascii h.percent,
    decodeTokens_append [] _ h.ascii]

theorem unquotePlus_append_cons {c : Char} (h : Delimiter c) (s rest : UrlText) :
    unquotePlus (s ++ c :: rest) = unquotePlus s ++ c :: unquotePlus rest := by
  unfold unquotePlus
  rw [← unquote_append_cons h, replacePlus_append]
  show unquote (replacePlus s ++ (if c = '+' then ' ' else c) :: replacePlus rest) = _
  rw [if_neg h.plus]

/-- Decoding keeps every delimiter. -/
theorem count_le_unquotePlus {c : Char} (h : Delimiter c) (s : UrlText) :
    s.count c ≤ (unquotePlus s).count c := by
  induction hn : s.length using Nat.strongRecOn generalizing s with
  | _ n ih =>
    by_cases hc : c ∈ s
    · obtain ⟨a, b, rfl, ha⟩ := List.eq_append_cons_of_mem hc
      rw [List.length_append, List.length_cons] at hn
      have hb := ih b.length (by omega) b rfl
      rw [unquotePlus_append_cons h, List.count_append, List.count_cons_self, List.count_append,
        List.count_cons_self, List.count_eq_zero_of_not_mem ha]
      omega
    · rw [List.count_eq_zero_of_not_mem hc]
      exact Nat.zero_le _

/-! ## The weight of a text

Each character that decoding gives takes at least one character of the text. A delimiter is given
by itself or by an escape, so that it may weigh nothing. -/

/-- Characters that may weigh nothing. -/
structure Weightless (z : Char → Bool) : Prop where
  ascii : ∀ c, z c = true → c.toNat < 128
  percent : z '%' = false
  plus : z '+' = z ' '

variable {z : Char → Bool}

/-- The number of characters of a text that weigh something. -/
def weight (z : Char → Bool) (s : UrlText) : ℕ := s.countP fun c => !z c

@[simp] theorem weight_nil : weight z [] = 0 := rfl

theorem weight_append (s t : UrlText) : weight z (s ++ t) = weight z s + weight z t :=
  List.countP_append

theorem weight_cons (c : Char) (s : UrlText) :
    weight z (c :: s) = weight z s + if z c then 0 else 1 := by
  unfold weight
  rw [List.countP_cons]
  cases z c <;> rfl

theorem weight_sublist {s t : UrlText} (h : s.Sublist t) : weight z s ≤ weight z t := h.countP_le

/-- Whether a byte is that of a character that weighs nothing. -/
def freeByte (z : Char → Bool) (b : UInt8) : Bool :=
  decide (b.toNat < 128) && z (Char.ofNat b.toNat)

/-- The number of bytes that weigh something. -/
def byteWeight (z : Char → Bool) (bs : Bytes) : ℕ := bs.countP fun b => !freeByte z b

theorem byteWeight_append (bs bs' : Bytes) :
    byteWeight z (bs ++ bs') = byteWeight z bs + byteWeight z bs' := List.countP_append

theorem byteWeight_cons (b : UInt8) (bs : Bytes) :
    byteWeight z (b :: bs) = byteWeight z bs + if freeByte z b then 0 else 1 := by
  unfold byteWeight
  rw [List.countP_cons]
  cases freeByte z b <;> rfl

theorem nextChar_ascii {c : Char} (h : c.toNat < 128) (rest : Bytes) :
    (nextChar (UInt8.ofNat c.toNat) rest).1 = c := by
  have hdec := utf8DecodeChar?_encode c rest
  rw [utf8EncodeChar_ascii h, List.singleton_append] at hdec
  unfold nextChar
  rw [hdec]

theorem free_nextChar {b : UInt8} (h : freeByte z b = true) (rest : Bytes) :
    z (nextChar b rest).1 = true := by
  rw [freeByte, Bool.and_eq_true, decide_eq_true_eq] at h
  have hnat := toNat_ofNat_byte b
  have hnext := nextChar_ascii (c := Char.ofNat b.toNat) (by omega) rest
  rw [hnat, UInt8.ofNat_toNat] at hnext
  rw [hnext]
  exact h.2

theorem weight_decodeFrom_le (n : ℕ) (bs : Bytes) :
    weight z (decodeFrom n bs) ≤ byteWeight z bs := by
  induction bs generalizing n with
  | nil => cases n <;> exact Nat.le_refl 0
  | cons b rest ih =>
    rw [byteWeight_cons]
    cases n with
    | succ n =>
      have hrest := ih n
      show weight z (decodeFrom n rest) ≤ _
      omega
    | zero =>
      have hrest := ih (nextChar b rest).2
      show weight z ((nextChar b rest).1 :: decodeFrom (nextChar b rest).2 rest) ≤ _
      rw [weight_cons]
      by_cases hb : freeByte z b = true
      · rw [if_pos (free_nextChar hb rest), if_pos hb]
        omega
      · rw [if_neg hb]
        split <;> omega

/-- The weight of a piece of a text. -/
def Token.weight (z : Char → Bool) : Token → ℕ
  | .byte b => if freeByte z b then 0 else 1
  | .char c => if z c then 0 else 1

theorem weight_decodeTokens_le (acc : Bytes) (tokens : List Token) :
    weight z (decodeTokens acc tokens) ≤
      byteWeight z acc + (tokens.map (Token.weight z)).sum := by
  induction tokens generalizing acc with
  | nil => exact weight_decodeFrom_le 0 acc
  | cons t rest ih =>
    rw [List.map_cons, List.sum_cons]
    cases t with
    | byte b =>
      have hrest := ih (acc ++ [b])
      have hone : byteWeight z [b] = Token.weight z (.byte b) := by
        rw [byteWeight_cons]
        exact Nat.zero_add _
      rw [byteWeight_append, hone] at hrest
      show weight z (decodeTokens (acc ++ [b]) rest) ≤ _
      omega
    | char c =>
      have hrest := ih []
      have hacc := weight_decodeFrom_le (z := z) 0 acc
      have hnil : byteWeight z [] = 0 := rfl
      show weight z (decodeFrom 0 acc ++ c :: decodeTokens [] rest) ≤ _
      rw [weight_append, weight_cons]
      show _ ≤ byteWeight z acc + ((if z c then 0 else 1) + _)
      omega

theorem Token.weight_le_one (t : Token) : t.weight z ≤ 1 := by
  cases t with
  | byte b =>
    show (if freeByte z b then 0 else 1) ≤ 1
    split <;> omega
  | char c =>
    show (if z c then 0 else 1) ≤ 1
    split <;> omega

theorem weight_nextToken_le (hz : Weightless z) (c : Char) (rest : UrlText) :
    (nextToken c rest).1.weight z ≤ if z c then 0 else 1 := by
  by_cases hc : z c = true
  · have hascii := hz.ascii c hc
    have hpercent : c ≠ '%' := fun e => by
      rw [e, hz.percent] at hc
      cases hc
    have hnext : nextToken c rest = (.byte (UInt8.ofNat c.toNat), 0) := by
      unfold nextToken
      rw [if_neg (by omega), if_neg hpercent]
    have hfree : freeByte z (UInt8.ofNat c.toNat) = true := by
      unfold freeByte
      rw [toNat_ofNat_ascii hascii, Char.ofNat_toNat, hc, Bool.and_true]
      exact decide_eq_true hascii
    rw [hnext, if_pos hc]
    show (if freeByte z (UInt8.ofNat c.toNat) then 0 else 1) ≤ 0
    exact Nat.le_of_eq (if_pos hfree)
  · rw [if_neg hc]
    exact Token.weight_le_one _

theorem weight_tokensFrom_le (hz : Weightless z) (n : ℕ) (s : UrlText) :
    ((tokensFrom n s).map (Token.weight z)).sum ≤ weight z s := by
  induction s generalizing n with
  | nil => cases n <;> exact Nat.le_refl 0
  | cons c rest ih =>
    rw [weight_cons]
    cases n with
    | succ n =>
      have hrest := ih n
      show ((tokensFrom n rest).map (Token.weight z)).sum ≤ _
      omega
    | zero =>
      have hrest := ih (nextToken c rest).2
      have hnext := weight_nextToken_le hz c rest
      show (((nextToken c rest).1 :: tokensFrom (nextToken c rest).2 rest).map
        (Token.weight z)).sum ≤ _
      rw [List.map_cons, List.sum_cons]
      omega

theorem weight_replacePlus (hz : Weightless z) (s : UrlText) :
    weight z (replacePlus s) = weight z s := by
  induction s with
  | nil => rfl
  | cons c s ih =>
    show weight z ((if c = '+' then ' ' else c) :: replacePlus s) = weight z (c :: s)
    rw [weight_cons, weight_cons, ih]
    by_cases hc : c = '+'
    · rw [if_pos hc, hc, hz.plus]
    · rw [if_neg hc]

theorem weight_unquotePlus_le (hz : Weightless z) (s : UrlText) :
    weight z (unquotePlus s) ≤ weight z s := by
  have hdec := weight_decodeTokens_le (z := z) [] (tokensFrom 0 (replacePlus s))
  have htok := weight_tokensFrom_le hz 0 (replacePlus s)
  have hnil : byteWeight z [] = 0 := rfl
  rw [weight_replacePlus hz] at htok
  show weight z (decodeTokens [] (tokensFrom 0 (replacePlus s))) ≤ _
  omega

/-- Every character weighs one. -/
def heavy (_ : Char) : Bool := false

theorem weightless_heavy : Weightless heavy := by
  refine ⟨?_, rfl, rfl⟩
  intro c hc
  cases hc

@[simp] theorem weight_heavy (s : UrlText) : weight heavy s = s.length := by
  unfold weight heavy
  simp

/-- The characters that are counted apart. -/
def light (c : Char) : Bool := c = '=' || c = '/' || c = '?'

theorem weightless_light : Weightless light := by
  refine ⟨?_, rfl, rfl⟩
  intro c hc
  simp only [light, Bool.or_eq_true, decide_eq_true_eq] at hc
  rcases hc with (rfl | rfl) | rfl <;> decide

/-- Decoding makes no text longer. -/
theorem length_unquotePlus_le (s : UrlText) : (unquotePlus s).length ≤ s.length := by
  have h := weight_unquotePlus_le weightless_heavy s
  rwa [weight_heavy, weight_heavy] at h

/-- Decoding that keeps the length keeps the text. -/
theorem unquote_of_length {s : UrlText} (h : s.length ≤ (unquote s).length) : unquote s = s := by
  have hdec := weight_decodeTokens_le (z := heavy) [] (tokensFrom 0 s)
  have hsum : ((tokensFrom 0 s).map (Token.weight heavy)).sum ≤ (tokensFrom 0 s).length := by
    generalize tokensFrom 0 s = tokens
    induction tokens with
    | nil => exact Nat.le_refl 0
    | cons t tokens ih =>
      have ht := Token.weight_le_one (z := heavy) t
      rw [List.map_cons, List.sum_cons, List.length_cons]
      omega
  have hle := length_tokensFrom_le 0 s
  have hnil : byteWeight heavy [] = 0 := rfl
  rw [weight_heavy] at hdec
  have hunquote : unquote s = decodeTokens [] (tokensFrom 0 s) := rfl
  rw [← hunquote] at hdec
  exact decodeTokens_encodeText [] (by omega)

end Notifyr
