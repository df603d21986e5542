import AsmAssist.Text.Quoted

/- Integers as text: decimal writing, and reading of digits in a base with the bounds of a
   64-bit word. -/

namespace AsmAssist.Decimal

def ofNat (n : Nat) : Bytes := (Nat.toDigits 10 n).map Char.toUInt8

def ofInt (n : Int) : Bytes :=
  if n < 0 then '-'.toUInt8 :: ofNat n.natAbs else ofNat n.natAbs

/-- Writes the sign of a positive number too. -/
def signed (n : Int) : Bytes := if n < 0 then ofInt n else '+'.toUInt8 :: ofInt n

inductive ReadError where
  | malformed
  | outOfRange
deriving DecidableEq, Repr

def wordBound : Nat := Nat.pow 2 64

/-- Reads digits from the left. Leaving the bound is noticed at the digit that leaves it, before
    anything is known of the digits after it. -/
def readDigits (base : Nat) : Nat → Bytes → Except ReadError Nat
  | n, [] => .ok n
  | n, b :: rest =>
      match Ascii.digitValue? b with
      | none => .error .malformed
      | some d =>
          if base ≤ d then .error .malformed
          else if wordBound ≤ n * base + d then .error .outOfRange
          else readDigits base (n * base + d) rest

/-- An unsigned number below `2 ^ 64`; there must be a digit. -/
def readWord (base : Nat) (digits : Bytes) : Except ReadError Nat :=
  if digits.isEmpty then .error .malformed else readDigits base 0 digits

def minInt64 : Int := -Int.pow 2 63

def maxInt64 : Int := Int.pow 2 63 - 1

/-- An optional sign and decimal digits, within the range of a signed 64-bit word. -/
def readInt (s : Bytes) : Except ReadError Int64 :=
  let (negative, digits) :=
    match s with
    | b :: rest =>
        if b == '-'.toUInt8 then (true, rest)
        else if b == '+'.toUInt8 then (false, rest)
        else (false, s)
    | [] => (false, s)
  match readWord 10 digits with
  | .error e => .error e
  | .ok n =>
      let value : Int := if negative then -n else n
      if minInt64 ≤ value && value ≤ maxInt64 then .ok (Int64.ofInt value)
      else .error .outOfRange

def ReadError.message : ReadError → String
  | .malformed => "invalid syntax"
  | .outOfRange => "value out of range"

/-- The complaint about a text that should have been a decimal integer. -/
def complaint (s : Bytes) (e : ReadError) : Bytes :=
  .ofString "strconv.Atoi: parsing " ++ Quoted.text s ++ .ofString ": "
    ++ .ofString e.message

end AsmAssist.Decimal
