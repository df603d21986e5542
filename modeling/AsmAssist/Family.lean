import AsmAssist.Operand
import AsmAssist.Pattern.Match
import AsmAssist.Pattern.Reader
import AsmAssist.Template

/- Instruction families: mnemonics that share operand forms, and the help text for a line. -/

namespace AsmAssist

structure Parameter where
  label : Bytes
  doc : Bytes
deriving DecidableEq, Repr

/-- One operand form. The label may hold the slots for the mnemonic, the assignment sign and the
    operator. -/
structure Signature where
  label : Bytes
  doc : Bytes
  parameters : List Parameter
deriving DecidableEq, Repr

/-- `mnemonics` is a pattern for whole mnemonics in either case; `operators` gives the infix
    operator of upper-case mnemonics that are written as assignments. -/
structure Family where
  name : Bytes
  mnemonics : Bytes
  arity : Int64
  registerArity : Int64
  operators : List (Bytes × Bytes)
  register : Signature
  immediate : Signature
deriving DecidableEq, Repr

inductive FamilyFault where
  | pattern (error : Pattern.CompileError)
  | arity (arity : Int64)
deriving DecidableEq, Repr

structure FamilyError where
  name : Bytes
  fault : FamilyFault
deriving DecidableEq, Repr

def FamilyFault.message : FamilyFault → Bytes
  | .pattern e => e.message
  | .arity n => .ofString "arity must be positive, got " ++ Decimal.ofInt n.toInt

def FamilyError.message (e : FamilyError) : Bytes :=
  .ofString "family " ++ e.name ++ .ofString ": " ++ e.fault.message

namespace Signature

def blank : Signature := ⟨[], [], []⟩

def render (slots : List Template.Slot) (s : Signature) : Signature :=
  { s with label := Template.fill slots s.label }

end Signature

/-- The operand forms of an instruction, and where in them its line is. -/
structure Help where
  signatures : List Signature
  analysis : Operand.Analysis
deriving DecidableEq, Repr

def Help.activeSignature (h : Help) : Nat := h.analysis.form.index

def Help.activeParameter (h : Help) : Nat := h.analysis.activeParameter

namespace Family

def blank : Family := ⟨[], [], 0, 0, [], .blank, .blank⟩

/-- The text of the pattern that a whole mnemonic has to match. -/
def patternText (f : Family) : Bytes :=
  .ofString "(?i)^(?:" ++ f.mnemonics ++ .ofString ")$"

def patternIn (limits : Pattern.Limits) (f : Family) : Except Pattern.CompileError Pattern :=
  Pattern.compile limits f.patternText

def pattern (f : Family) : Except Pattern.CompileError Pattern := f.patternIn .standard

def check (f : Family) : Except FamilyError Unit :=
  match f.pattern with
  | .error e => .error ⟨f.name, .pattern e⟩
  | .ok _ => if f.arity < 1 then .error ⟨f.name, .arity f.arity⟩ else .ok ()

/-- The first family that cannot be used is reported. -/
def checkAll : List Family → Except FamilyError Unit
  | [] => .ok ()
  | f :: fs =>
      match f.check with
      | .error e => .error e
      | .ok _ => checkAll fs

def acceptsIn (limits : Pattern.Limits) (f : Family) (mnemonic : Bytes) : Bool :=
  match f.patternIn limits with
  | .error _ => false
  | .ok p => p.isIn mnemonic

/-- The first family that accepts the mnemonic. One whose pattern cannot be used is passed over. -/
def findIn? (limits : Pattern.Limits) (families : List Family) (mnemonic : Bytes) :
    Option Family :=
  families.find? (·.acceptsIn limits mnemonic)

def find? : List Family → Bytes → Option Family := findIn? .standard

/-- The operator of a mnemonic, in whatever case it is written. -/
def operator? (f : Family) (mnemonic : Bytes) : Option Bytes :=
  (f.operators.find? (·.1 == mnemonic.toUpper)).map (·.2)

/-- An instruction with an operator is written as an assignment, any other with commas. -/
def slots (f : Family) (mnemonic : Bytes) : List Template.Slot :=
  let (assign, op) :=
    match f.operator? mnemonic with
    | some symbol => (Bytes.ofString " <-", Bytes.ofString " " ++ symbol)
    | none => (Bytes.ofString ",", Bytes.ofString ",")
  [(.ofString "{mnemonic}", mnemonic.toUpper), (.ofString "{assign}", assign),
    (.ofString "{op}", op)]

/-- Help for the operand tokens of a mnemonic: the register form, then the immediate form. -/
def help (f : Family) (mnemonic : Bytes) (operands : List Token) : Help where
  signatures := [f.register.render (f.slots mnemonic), f.immediate.render (f.slots mnemonic)]
  analysis := Operand.analyze operands f.arity f.registerArity

end Family

end AsmAssist
