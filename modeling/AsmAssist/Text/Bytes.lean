import AsmAssist.Sequence

/- Byte strings and the ASCII classes by which source text is read. -/

namespace AsmAssist

/-- Source text is bytes: nothing promises that it is valid UTF-8. -/
abbrev Bytes := List UInt8

namespace Bytes

def ofString (s : String) : Bytes := s.toUTF8.data.toList

def join (sep : Bytes) : List Bytes → Bytes
  | [] => []
  | [piece] => piece
  | piece :: pieces => piece ++ sep ++ join sep pieces

/-- The rest after a leading text, if the text leads. -/
def dropLead? : Bytes → Bytes → Option Bytes
  | [], rest => some rest
  | _ :: _, [] => none
  | p :: ps, b :: rest => if p == b then dropLead? ps rest else none

def endsWith (s tail : Bytes) : Bool := tail.reverse.isPrefixOf s.reverse

/-- The text before and after the first separator, if there is one. -/
def cut? (sep : UInt8) : Bytes → Option (Bytes × Bytes)
  | [] => none
  | b :: rest =>
      if b == sep then some ([], rest)
      else (cut? sep rest).map fun (before, after) => (b :: before, after)

end Bytes

namespace Ascii

def within (lo hi : Char) (b : UInt8) : Bool := lo.toUInt8 ≤ b && b ≤ hi.toUInt8

def isDigit (b : UInt8) : Bool := within '0' '9' b

def isBinaryDigit (b : UInt8) : Bool := b == '0'.toUInt8 || b == '1'.toUInt8

def isHexDigit (b : UInt8) : Bool := isDigit b || within 'a' 'f' b || within 'A' 'F' b

def isLetter (b : UInt8) : Bool := within 'a' 'z' b || within 'A' 'Z' b

def isUnderscore (b : UInt8) : Bool := b == '_'.toUInt8

/-- Letters, digits and the underscore: what a word is made of. -/
def isWord (b : UInt8) : Bool := isLetter b || isDigit b || isUnderscore b

/-- Equality with a lower-case letter in either case. -/
def isLetterOf (lower : Char) (b : UInt8) : Bool :=
  b == lower.toUInt8 || b == lower.toUpper.toUInt8

/-- Value of a digit in any base up to 36. -/
def digitValue? (b : UInt8) : Option Nat :=
  if isDigit b then some (b.toNat - 48)
  else if within 'a' 'z' b then some (b.toNat - 87)
  else if within 'A' 'Z' b then some (b.toNat - 55)
  else none

end Ascii

end AsmAssist
