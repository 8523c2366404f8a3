import ShardusNet.Lib.ByteCodec
/-!
# Hexadecimal text

Byte strings as hexadecimal text: `encode` writes two lower-case digits a byte, `decode` reads
digits of either case. `decode_encode` is the round trip, `encode_inj` its consequence, and
`mem_encode` says which characters occur.
-/

namespace Hex
open ByteCodec

/-- The lower-case hexadecimal digit of `n % 16`. -/
def digit (n : ℕ) : Char :=
  if n % 16 < 10 then Char.ofNat (48 + n % 16) else Char.ofNat (87 + n % 16)

/-- The value of a hexadecimal digit of either case. -/
def value (c : Char) : Option ℕ :=
  if '0' ≤ c ∧ c ≤ '9' then some (c.toNat - 48)
  else if 'a' ≤ c ∧ c ≤ 'f' then some (c.toNat - 87)
  else if 'A' ≤ c ∧ c ≤ 'F' then some (c.toNat - 55)
  else none

/-- Two lower-case digits a byte, high digit first. -/
def encode : Bytes → List Char
  | [] => []
  | b :: bs => digit (b.toNat / 16) :: digit b.toNat :: encode bs

/-- The bytes written by pairs of digits. -/
def decode : List Char → Option Bytes
  | [] => some []
  | [_] => none
  | c :: d :: cs => do
    let h ← value c
    let l ← value d
    let bs ← decode cs
    some (UInt8.ofNat (16 * h + l) :: bs)

/-- A digit has its value. -/
lemma value_digit (n) : value (digit n) = some (n % 16) := by
  have h : ∀ m < 16, value (digit m) = some m := by decide
  have e : digit n = digit (n % 16) := by simp [digit]
  rw [e, h _ (Nat.mod_lt n (by decide))]

/-- A digit is one of sixteen characters, none of them special in text. -/
lemma digit_mem (n) : digit n ∈ "0123456789abcdef".toList := by
  have h : ∀ m < 16, digit m ∈ "0123456789abcdef".toList := by decide
  have e : digit n = digit (n % 16) := by simp [digit]
  rw [e]
  exact h _ (Nat.mod_lt n (by decide))

/-- Decoding undoes encoding. -/
lemma decode_encode (bs) : decode (encode bs) = some bs := by
  induction bs with
  | nil => rfl
  | cons b bs ih =>
    have hb : b.toNat < 256 := b.toNat_lt
    have e : UInt8.ofNat (16 * (b.toNat / 16 % 16) + b.toNat % 16) = b := by
      apply UInt8.toNat_inj.mp
      simp
      omega
    simp only [encode, decode, value_digit, ih, Option.bind_eq_bind, Option.bind_some, e]

/-- Byte strings with the same hexadecimal text are equal. -/
lemma encode_inj {bs cs} (e : encode bs = encode cs) : bs = cs := by
  have h := decode_encode bs
  rw [e, decode_encode] at h
  exact (Option.some.inj h).symm

/-- The text of two byte strings in a row. -/
lemma encode_append (bs cs) : encode (bs ++ cs) = encode bs ++ encode cs := by
  induction bs with
  | nil => rfl
  | cons b bs ih => simp only [List.cons_append, encode, ih]

/-- Hexadecimal text is made of lower-case digits. -/
lemma mem_encode {bs c} (h : c ∈ encode bs) : c ∈ "0123456789abcdef".toList := by
  induction bs with
  | nil => cases h
  | cons b bs ih =>
    rcases List.mem_cons.mp h with rfl | h
    · exact digit_mem _
    · rcases List.mem_cons.mp h with rfl | h
      · exact digit_mem _
      · exact ih h

end Hex
