/- Kinds of tokens. The first group comes from the scanner, `number` to `shiftedRegister` from
   folding, and `mnemonic` marks the word that names an instruction. -/

namespace AsmAssist

inductive Kind where
  | unknown
  | space
  | shift
  | leftParen
  | rightParen
  | leftBracket
  | rightBracket
  | comma
  | colon
  | wordOperator
  | sumOperator
  | quoted
  | hexDigits
  | binaryDigits
  | decimalDigits
  | register
  | word
  | number
  | label
  | shiftedRegister
  | mnemonic
  | unnamed (code : Int)
deriving DecidableEq, Repr

namespace Kind

/-- The named kinds in the order of their codes, from 0, with their names. -/
def named : List (Kind × String) :=
  [(unknown, "UNKNOWN"), (space, "SPACE"), (shift, "SHIFT"), (leftParen, "("),
    (rightParen, ")"), (leftBracket, "["), (rightBracket, "]"), (comma, ","), (colon, ":"),
    (wordOperator, "OPL"), (sumOperator, "OP"), (quoted, "STR"), (hexDigits, "LIT_HEX"),
    (binaryDigits, "LIT_BIN"), (decimalDigits, "LIT_DEC"), (register, "REG"), (word, "IDENT"),
    (number, "NUM"), (label, "LABEL"), (shiftedRegister, "SHREG"), (mnemonic, "INSTR")]

def ofCode (code : Int) : Kind :=
  if code < 0 then unnamed code
  else ((named[code.toNat]?).map (·.1)).getD (unnamed code)

def name : Kind → String
  | unnamed code => "TokenType(" ++ toString code ++ ")"
  | kind => ((named.find? (·.1 == kind)).map (·.2)).getD ""

/-- Hidden tokens are consumed and then left out of a scanned line. -/
def isHidden (kind : Kind) : Bool :=
  kind == space || kind == leftBracket || kind == rightBracket

end Kind

end AsmAssist
