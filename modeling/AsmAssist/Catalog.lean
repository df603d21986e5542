import AsmAssist.Config.Store
import AsmAssist.Family

/- The description of an instruction set, gathered from the layers of a configuration. -/

namespace AsmAssist

structure Instruction where
  name : Bytes
  usage : Bytes
  detail : Bytes
deriving DecidableEq, Repr

structure Condition where
  suffix : Bytes
  flags : Bytes
  description : Bytes
deriving DecidableEq, Repr

structure Register where
  name : Bytes
  detail : Bytes
deriving DecidableEq, Repr

open Config

def Parameter.ofValue : Decoder Parameter := fun v => do
  let fs ← Decoder.fields v
  some ⟨← Decoder.field "label" .text [] fs, ← Decoder.field "doc" .text [] fs⟩

def Signature.ofValue : Decoder Signature := fun v => do
  let fs ← Decoder.fields v
  some ⟨← Decoder.field "label" .text [] fs, ← Decoder.field "doc" .text [] fs,
    ← Decoder.field "parameters" (.list Parameter.ofValue) [] fs⟩

def Family.ofValue : Decoder Family := fun v => do
  let fs ← Decoder.fields v
  some {
    name := ← Decoder.field "name" .text [] fs
    mnemonics := ← Decoder.field "mnemonics" .text [] fs
    arity := ← Decoder.field "arity" .int 0 fs
    registerArity := ← Decoder.field "registerArity" .int 0 fs
    operators := ← Decoder.field "operators" .table [] fs
    register := ← Decoder.field "register" Signature.ofValue .blank fs
    immediate := ← Decoder.field "immediate" Signature.ofValue .blank fs }

def Instruction.ofValue : Decoder Instruction := fun v => do
  let fs ← Decoder.fields v
  some ⟨← Decoder.field "name" .text [] fs, ← Decoder.field "syntax" .text [] fs,
    ← Decoder.field "detail" .text [] fs⟩

def Condition.ofValue : Decoder Condition := fun v => do
  let fs ← Decoder.fields v
  some ⟨← Decoder.field "suffix" .text [] fs, ← Decoder.field "flags" .text [] fs,
    ← Decoder.field "description" .text [] fs⟩

def Register.ofValue : Decoder Register := fun v => do
  let fs ← Decoder.fields v
  some ⟨← Decoder.field "name" .text [] fs, ← Decoder.field "detail" .text [] fs⟩

/-- A branch that is taken under a condition. -/
def Condition.branch (c : Condition) : Instruction :=
  let name := .ofString "B" ++ c.suffix
  ⟨name, name ++ .ofString " imm",
    .ofString "Branch if " ++ c.description ++ .ofString " to PC+imm. Checks flag: " ++ c.flags
      ++ .ofString "."⟩

/-- A branch that is taken under a condition and leaves the return address. -/
def Condition.branchAndLink (c : Condition) : Instruction :=
  let name := .ofString "B" ++ c.suffix ++ .ofString "L"
  ⟨name, name ++ .ofString " imm",
    .ofString "Branch if " ++ c.description
      ++ .ofString " to PC+imm, then set LR to return address. Checks flag: " ++ c.flags
      ++ .ofString "."⟩

def Register.general (n : Nat) : Register :=
  ⟨.ofString "r" ++ Decimal.ofNat n, .ofString "General purpose register"⟩

structure Catalog where
  families : List Family
  instructions : List Instruction
  conditions : List Condition
  registers : List Register
deriving DecidableEq, Repr

inductive CatalogError where
  | lookup (error : LookupError)
  | family (error : FamilyError)
deriving DecidableEq, Repr

def CatalogError.message : CatalogError → Bytes
  | lookup e => e.message
  | family e => e.message

namespace Catalog

/-- Every instruction, the branches of all conditions included. -/
def mnemonics (c : Catalog) : List Instruction :=
  c.instructions ++ c.conditions.map Condition.branch ++ c.conditions.map Condition.branchAndLink

/-- All layers contribute instructions; of one name, in whatever case, the first counts. -/
def mergeInstructions (layers : List (List Instruction)) : List Instruction :=
  Sequence.firstByKey (·.name.toUpper) layers.flatten

def withGeneral (named : List Register) (count : Int64) : List Register :=
  named ++ (List.range count.toInt.toNat).map Register.general

def readFamilies (l : Loader) : Except CatalogError (List Family) :=
  match l.first (.list Family.ofValue) [] (.ofString "families") with
  | .error e => .error (.lookup e)
  | .ok fs =>
      match Family.checkAll fs with
      | .error e => .error (.family e)
      | .ok _ => .ok fs

def readInstructions (l : Loader) : Except LookupError (List Instruction) :=
  match eachOf id (l.all (.list Instruction.ofValue) (.ofString "instructions")) with
  | .error e => .error e
  | .ok layers => .ok (mergeInstructions layers)

def readRegisters (l : Loader) : Except LookupError (List Register) := do
  let named ← l.first (.list Register.ofValue) [] (.ofString "registers")
  let count ← l.first .int 0 (.ofString "generalRegisters")
  .ok (withGeneral named count)

/-- The catalog of a configuration. Its parts are looked up in the order in which they stand
    here, and the first that fails is reported. -/
def build (l : Loader) : Except CatalogError Catalog := do
  let families ← readFamilies l
  let instructions ← (readInstructions l).mapError .lookup
  let conditions ←
    (l.first (.list Condition.ofValue) [] (.ofString "conditions")).mapError .lookup
  let registers ← (readRegisters l).mapError .lookup
  .ok ⟨families, instructions, conditions, registers⟩

end Catalog

end AsmAssist
