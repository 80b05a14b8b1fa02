/-
Module: DagSelect.Text.Numeral
Purpose: Decimal numerals with a range. A numeral is one optional sign and at least one ASCII digit;
  leading zeros are allowed, and a value outside the range is refused rather than wrapped.
Main exports: readDigits?, readNat?, readInt?
-/
import DagSelect.Power

namespace DagSelect.Text

/-- The value of a run of digits, most significant first. -/
def digitsValue (digits : List Char) : Nat :=
  digits.foldl (fun value c => 10 * value + (c.toNat - '0'.toNat)) 0

/-- A non-empty run of digits and nothing else. -/
def readDigits? (text : List Char) : Option Nat :=
  if text.isEmpty || !text.all Char.isDigit then none else some (digitsValue text)

/-- An unsigned numeral below `bound`. A plus sign is allowed and a minus sign is not. -/
def readNat? (bound : Nat) (text : List Char) : Option Nat :=
  let digits := match text with
    | '+' :: rest => rest
    | _ => text
  (readDigits? digits).filter fun value => decide (value < bound)

/-- The signed numerals of `bits` bits: from `-2 ^ (bits - 1)` to `2 ^ (bits - 1) - 1`. -/
def readInt? (bits : Nat) (text : List Char) : Option Int :=
  let value : Option Int := match text with
    | '+' :: rest => (readDigits? rest).map Int.ofNat
    | '-' :: rest => (readDigits? rest).map fun magnitude => -Int.ofNat magnitude
    | _ => (readDigits? text).map Int.ofNat
  let limit := Int.ofNat (twoPow (bits - 1))
  value.filter fun value => decide (-limit ≤ value ∧ value < limit)

end DagSelect.Text
