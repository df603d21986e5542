import AsmAssist.Token.Basic

/- Where in its operands an instruction line is: how many separators it has, what it ends in and
   which operand form that selects. -/

namespace AsmAssist

inductive Form where
  | register
  | immediate
deriving DecidableEq, Repr

namespace Form

/-- The place of the form's signature in a help text. -/
def index : Form → Nat
  | register => 0
  | immediate => 1

def ofIndex (n : Int) : Form := if n = 0 then register else immediate

def name : Form → String
  | register => "register"
  | immediate => "immediate"

end Form

namespace Operand

/-- Separators and operators stand between operands. -/
def isSeparator (kind : Kind) : Bool :=
  Sequence.holds [.leftParen, .rightParen, .leftBracket, .rightBracket, .comma, .colon,
    .sumOperator, .wordOperator] kind

def isRegisterLike (kind : Kind) : Bool := Sequence.holds [.register, .shiftedRegister] kind

structure Analysis where
  arguments : Nat
  last : Kind
  form : Form
  activeParameter : Nat
deriving DecidableEq, Repr

def separators (tokens : List Token) : Nat := (tokens.filter (isSeparator ·.kind)).length

/-- The kind of the last token that is no separator. -/
def lastKind (tokens : List Token) : Kind :=
  ((tokens.filter (fun t => !isSeparator t.kind)).getLast?.map (·.kind)).getD .unknown

/-- Analyses the tokens after a mnemonic. The register form needs exactly `registerArity`
    separators and a register at the end. The active parameter is the number of separators, kept
    below `arity` in 64-bit arithmetic. -/
def analyze (tokens : List Token) (arity registerArity : Int64) : Analysis where
  arguments := separators tokens
  last := lastKind tokens
  form :=
    if (separators tokens : Int) = registerArity.toInt && isRegisterLike (lastKind tokens)
    then .register else .immediate
  activeParameter := (min (separators tokens : Int) (arity - 1).toInt).toNat

end Operand

end AsmAssist
