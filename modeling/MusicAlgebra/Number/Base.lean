/-!
# Digits to a base

Integers may be written to any base up to sixteen.  Letters of either case are the digits from ten
on.
-/

namespace MusicAlgebra.Number

/-- The value of a hexadecimal digit. -/
def hexDigit? (c : Char) : Option Nat :=
  if '0' ≤ c ∧ c ≤ '9' then some (c.toNat - 48)
  else if 'a' ≤ c ∧ c ≤ 'f' then some (c.toNat - 87)
  else if 'A' ≤ c ∧ c ≤ 'F' then some (c.toNat - 55)
  else none

/-- The value of digits to a base, none if there are no digits or others among them. -/
def valueTo? (base : Nat) : List Char → Option Nat
  | [] => none
  | digits =>
    digits.foldlM
      (fun value c => do
        let digit ← hexDigit? c
        if digit < base then some (value * base + digit) else none) 0

/-- The value of decimal digits. -/
def digitsValue (digits : List Char) : Nat :=
  digits.foldl (fun value c => value * 10 + (c.toNat - 48)) 0

/-- Hexadecimal digits of a given number at the front of a text, and what follows them. -/
def readHex? (width : Nat) (s : List Char) : Option (Nat × List Char) :=
  let digits := s.take width
  if digits.length < width then none
  else (valueTo? 16 digits).map fun value => (value, s.drop width)

example : valueTo? 16 "1fF".toList = some 511 := by decide +kernel

example : readHex? 4 "00e9x".toList = some (233, ['x']) := by decide +kernel

end MusicAlgebra.Number
