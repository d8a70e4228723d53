import Mathlib.Data.List.Basic

/-!
# Base64

The standard encoding of bytes as text (alphabet `A–Z a–z 0–9 + /`, padding `=`).

- `encode`: three bytes become four characters; the last group is padded.
- `decode`: characters outside the alphabet and the padding are skipped, an incomplete group is
  an error.
- `decode_encode`: decoding what was encoded.
-/

namespace Theory.Base64

/-- The sixty-four digits. -/
def alphabet : List Char :=
  "ABCDEFGHIJKLMNOPQRSTUVWXYZabcdefghijklmnopqrstuvwxyz0123456789+/".toList

/-- The padding character. -/
def pad : Char := '='

/-- The character of a digit below 64. -/
def digit (n : Nat) : Char := alphabet.getD n pad

/-- The digit of a character of the alphabet. -/
def value? (c : Char) : Option Nat :=
  if alphabet.idxOf c < 64 then some (alphabet.idxOf c) else none

/-- Encode bytes. -/
def encode : List UInt8 → List Char
  | [] => []
  | [a] => [digit (a.toNat / 4), digit (a.toNat % 4 * 16), pad, pad]
  | [a, b] =>
    [digit (a.toNat / 4), digit (a.toNat % 4 * 16 + b.toNat / 16), digit (b.toNat % 16 * 4), pad]
  | a :: b :: c :: rest =>
    digit (a.toNat / 4) :: digit (a.toNat % 4 * 16 + b.toNat / 16) ::
      digit (b.toNat % 16 * 4 + c.toNat / 64) :: digit (c.toNat % 64) :: encode rest

/-- A byte from its value. -/
def byte (n : Nat) : UInt8 := UInt8.ofNat n

/-- The bytes of a group of four characters, the last ones possibly padding. -/
def group (c₁ c₂ c₃ c₄ : Char) : Option (List UInt8) := do
  let v₁ ← value? c₁
  let v₂ ← value? c₂
  let first := byte (v₁ * 4 + v₂ / 16)
  if c₃ = pad then
    if c₄ = pad then return [first] else none
  else
    let v₃ ← value? c₃
    let second := byte (v₂ % 16 * 16 + v₃ / 4)
    if c₄ = pad then return [first, second]
    else
      let v₄ ← value? c₄
      return [first, second, byte (v₃ % 4 * 64 + v₄)]

/-- Decode groups of four; a group with padding is the last one. -/
def groups : List Char → Option (List UInt8)
  | [] => some []
  | c₁ :: c₂ :: c₃ :: c₄ :: rest => do
    let bytes ← group c₁ c₂ c₃ c₄
    if c₄ = pad then return bytes
    else return bytes ++ (← groups rest)
  | _ => none

/-- Decode text. -/
def decode (cs : List Char) : Option (List UInt8) :=
  groups (cs.filter fun c => (value? c).isSome || c == pad)

/-! ## Digits -/

theorem value?_digit {n : Nat} (h : n < 64) : value? (digit n) = some n := by
  have hall : ∀ i : Fin 64, value? (digit i) = some i.val := by decide +kernel
  exact hall ⟨n, h⟩

theorem value?_pad : value? pad = none := by decide

theorem digit_ne_pad {n : Nat} (h : n < 64) : digit n ≠ pad := by
  intro hpad
  have hv := value?_digit h
  rw [hpad, value?_pad] at hv
  cases hv

/-! ## The round trip -/

/-- Encoded text has nothing to skip. -/
theorem encode_kept (bs : List UInt8) :
    ∀ c ∈ encode bs, ((value? c).isSome || c == pad) = true := by
  have hdigit : ∀ {n}, n < 64 → ((value? (digit n)).isSome || digit n == pad) = true := by
    intro n h
    rw [value?_digit h]
    rfl
  have hpad : ((value? pad).isSome || pad == pad) = true := by
    rw [beq_self_eq_true, Bool.or_true]
  induction bs using encode.induct with
  | case1 => simp [encode]
  | case2 a =>
    have ha := a.toNat_lt
    intro c hc
    simp only [encode, List.mem_cons, List.not_mem_nil, or_false] at hc
    rcases hc with rfl | rfl | rfl | rfl
    · exact hdigit (by omega)
    · exact hdigit (by omega)
    · exact hpad
    · exact hpad
  | case3 a b =>
    have ha := a.toNat_lt
    have hb := b.toNat_lt
    intro c hc
    simp only [encode, List.mem_cons, List.not_mem_nil, or_false] at hc
    rcases hc with rfl | rfl | rfl | rfl
    · exact hdigit (by omega)
    · exact hdigit (by omega)
    · exact hdigit (by omega)
    · exact hpad
  | case4 a b c rest ih =>
    have ha := a.toNat_lt
    have hb := b.toNat_lt
    have hc := c.toNat_lt
    intro x hx
    simp only [encode, List.mem_cons] at hx
    rcases hx with rfl | rfl | rfl | rfl | hx
    · exact hdigit (by omega)
    · exact hdigit (by omega)
    · exact hdigit (by omega)
    · exact hdigit (by omega)
    · exact ih x hx

/-- Putting the digits of a byte together again. -/
theorem byte_eq {n : Nat} {b : UInt8} (h : n = b.toNat) : byte n = b := by
  rw [h]
  exact UInt8.ofNat_toNat

theorem group_one {v₁ v₂ : Nat} (h₁ : v₁ < 64) (h₂ : v₂ < 64) :
    group (digit v₁) (digit v₂) pad pad = some [byte (v₁ * 4 + v₂ / 16)] := by
  simp [group, value?_digit h₁, value?_digit h₂]

theorem group_two {v₁ v₂ v₃ : Nat} (h₁ : v₁ < 64) (h₂ : v₂ < 64) (h₃ : v₃ < 64) :
    group (digit v₁) (digit v₂) (digit v₃) pad =
      some [byte (v₁ * 4 + v₂ / 16), byte (v₂ % 16 * 16 + v₃ / 4)] := by
  simp [group, value?_digit h₁, value?_digit h₂, value?_digit h₃, digit_ne_pad h₃]

theorem group_three {v₁ v₂ v₃ v₄ : Nat} (h₁ : v₁ < 64) (h₂ : v₂ < 64) (h₃ : v₃ < 64)
    (h₄ : v₄ < 64) :
    group (digit v₁) (digit v₂) (digit v₃) (digit v₄) =
      some [byte (v₁ * 4 + v₂ / 16), byte (v₂ % 16 * 16 + v₃ / 4), byte (v₃ % 4 * 64 + v₄)] := by
  simp [group, value?_digit h₁, value?_digit h₂, value?_digit h₃, value?_digit h₄,
    digit_ne_pad h₃, digit_ne_pad h₄]

theorem groups_encode (bs : List UInt8) : groups (encode bs) = some bs := by
  induction bs using encode.induct with
  | case1 => rfl
  | case2 a =>
    have ha := a.toNat_lt
    rw [encode, groups, group_one (by omega) (by omega)]
    show some [byte _] = some [a]
    rw [byte_eq (b := a) (by omega)]
  | case3 a b =>
    have ha := a.toNat_lt
    have hb := b.toNat_lt
    rw [encode, groups, group_two (by omega) (by omega) (by omega)]
    show some [byte _, byte _] = some [a, b]
    rw [byte_eq (b := a) (by omega), byte_eq (b := b) (by omega)]
  | case4 a b c rest ih =>
    have ha := a.toNat_lt
    have hb := b.toNat_lt
    have hc := c.toNat_lt
    have hlast : c.toNat % 64 < 64 := by omega
    rw [encode, groups, group_three (by omega) (by omega) (by omega) hlast, ih]
    simp only [Option.bind_eq_bind, Option.bind_some, if_neg (digit_ne_pad hlast)]
    show some ([byte _, byte _, byte _] ++ rest) = some (a :: b :: c :: rest)
    rw [byte_eq (b := a) (by omega), byte_eq (b := b) (by omega), byte_eq (b := c) (by omega)]
    rfl

/-- **Round trip.** -/
theorem decode_encode (bs : List UInt8) : decode (encode bs) = some bs := by
  unfold decode
  rw [List.filter_eq_self.mpr (encode_kept bs)]
  exact groups_encode bs

end Theory.Base64
