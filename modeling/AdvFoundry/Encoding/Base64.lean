import Mathlib.Data.List.Basic

/-!
# Base64

The encoding of bytes by 64 characters, with padding: three bytes are four
characters, and one or two bytes at the end are filled up with `=`. The decoder
takes nothing but the output of the encoder: the unused bits have to be zero.

`decode_encode`: what was encoded is read back.
-/

namespace AdvFoundry.Base64

/-- The character of six bits. -/
def digit (n : Nat) : Char :=
  if n < 26 then Char.ofNat ('A'.toNat + n)
  else if n < 52 then Char.ofNat ('a'.toNat + (n - 26))
  else if n < 62 then Char.ofNat ('0'.toNat + (n - 52))
  else if n = 62 then '+'
  else '/'

def encode : List UInt8 → List Char
  | [] => []
  | [a] => [digit (a.toNat / 4), digit (a.toNat % 4 * 16), '=', '=']
  | [a, b] =>
    [digit (a.toNat / 4), digit (a.toNat % 4 * 16 + b.toNat / 16), digit (b.toNat % 16 * 4), '=']
  | a :: b :: c :: rest =>
    digit (a.toNat / 4) :: digit (a.toNat % 4 * 16 + b.toNat / 16) ::
      digit (b.toNat % 16 * 4 + c.toNat / 64) :: digit (c.toNat % 64) :: encode rest

/-- The six bits of a character. -/
def digitValue (c : Char) : Option Nat :=
  if 'A' ≤ c ∧ c ≤ 'Z' then some (c.toNat - 'A'.toNat)
  else if 'a' ≤ c ∧ c ≤ 'z' then some (c.toNat - 'a'.toNat + 26)
  else if '0' ≤ c ∧ c ≤ '9' then some (c.toNat - '0'.toNat + 52)
  else if c = '+' then some 62
  else if c = '/' then some 63
  else none

def decode : List Char → Option (List UInt8)
  | [] => some []
  | a :: b :: c :: d :: rest => do
    let x ← digitValue a
    let y ← digitValue b
    if d = '=' then
      if c = '=' then
        if rest = [] ∧ y % 16 = 0 then some [UInt8.ofNat (x * 4 + y / 16)] else none
      else
        let z ← digitValue c
        if rest = [] ∧ z % 4 = 0 then
          some [UInt8.ofNat (x * 4 + y / 16), UInt8.ofNat (y % 16 * 16 + z / 4)]
        else none
    else
      let z ← digitValue c
      let w ← digitValue d
      let bytes ← decode rest
      some (UInt8.ofNat (x * 4 + y / 16) :: UInt8.ofNat (y % 16 * 16 + z / 4) ::
        UInt8.ofNat (z % 4 * 64 + w) :: bytes)
  | _ => none

section Digits

variable {n : Nat}

theorem digitValue_digit (hn : n < 64) : digitValue (digit n) = some n := by
  have hall : ∀ m < 64, digitValue (digit m) = some m := by decide
  exact hall n hn

theorem digit_ne_pad (hn : n < 64) : digit n ≠ '=' := by
  have hall : ∀ m < 64, digit m ≠ '=' := by decide
  exact hall n hn

end Digits

/-- A byte from the bits that two characters hold of it. -/
theorem ofNat_toNat {a : UInt8} {n : Nat} (h : n = a.toNat) : UInt8.ofNat n = a := by
  rw [h, UInt8.ofNat_toNat]

theorem decode_encode (bytes : List UInt8) : decode (encode bytes) = some bytes := by
  induction bytes using encode.induct with
  | case1 => rfl
  | case2 a =>
    have ha := a.toNat_lt
    have hx := digitValue_digit (show a.toNat / 4 < 64 by omega)
    have hy := digitValue_digit (show a.toNat % 4 * 16 < 64 by omega)
    simp only [encode, decode, hx, hy, Option.bind_eq_bind, Option.bind_some]
    rw [if_pos trivial, if_pos trivial, if_pos ⟨trivial, by omega⟩, @ofNat_toNat a _ (by omega)]
  | case3 a b =>
    have ha := a.toNat_lt
    have hb := b.toNat_lt
    have hx := digitValue_digit (show a.toNat / 4 < 64 by omega)
    have hy := digitValue_digit (show a.toNat % 4 * 16 + b.toNat / 16 < 64 by omega)
    have hz := digitValue_digit (show b.toNat % 16 * 4 < 64 by omega)
    have hpad := digit_ne_pad (show b.toNat % 16 * 4 < 64 by omega)
    simp only [encode, decode, hx, hy, hz, Option.bind_eq_bind, Option.bind_some]
    rw [if_pos trivial, if_neg hpad, if_pos ⟨trivial, by omega⟩, @ofNat_toNat a _ (by omega),
      @ofNat_toNat b _ (by omega)]
  | case4 a b c rest ih =>
    have ha := a.toNat_lt
    have hb := b.toNat_lt
    have hc := c.toNat_lt
    have hx := digitValue_digit (show a.toNat / 4 < 64 by omega)
    have hy := digitValue_digit (show a.toNat % 4 * 16 + b.toNat / 16 < 64 by omega)
    have hz := digitValue_digit (show b.toNat % 16 * 4 + c.toNat / 64 < 64 by omega)
    have hw := digitValue_digit (show c.toNat % 64 < 64 by omega)
    have hpad := digit_ne_pad (show c.toNat % 64 < 64 by omega)
    simp only [encode, decode, hx, hy, hz, hw, ih, Option.bind_eq_bind, Option.bind_some]
    rw [if_neg hpad, @ofNat_toNat a _ (by omega), @ofNat_toNat b _ (by omega),
      @ofNat_toNat c _ (by omega)]

end AdvFoundry.Base64
