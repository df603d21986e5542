import AsmAssist.Catalog
import AsmAssist.Config.Writer

/- The configuration that comes with the program: what a configuration may hold, and the
   instruction set that is used where no file says otherwise. -/

namespace AsmAssist.Defaults

open Config

/-- What a configuration may hold. -/
def schema : Bytes := Bytes.join (.ofString "\n") (List.map Bytes.ofString [
  "families?: [...\x7b",
  "  name: string",
  "  mnemonics: string",
  "  arity: int & >=1",
  "  registerArity: int & >=0",
  "  operators?: \x7b[string]: string\x7d",
  "  register: \x7b",
  "    label: string",
  "    doc: string | *\"\"",
  "    parameters: [...\x7blabel: string, doc: string | *\"\"\x7d]",
  "  \x7d",
  "  immediate: \x7b",
  "    label: string",
  "    doc: string | *\"\"",
  "    parameters: [...\x7blabel: string, doc: string | *\"\"\x7d]",
  "  \x7d",
  "\x7d]",
  "instructions?: [...\x7b",
  "  name: string",
  "  syntax: string",
  "  detail: string",
  "\x7d]",
  "conditions?: [...\x7b",
  "  suffix: string",
  "  flags: string",
  "  description: string",
  "\x7d]",
  "registers?: [...\x7b",
  "  name: string",
  "  detail: string",
  "\x7d]",
  "generalRegisters?: int & >=0"])

def register (name detail : String) : Register := ⟨.ofString name, .ofString detail⟩

def registers : List Register :=
  [register "sp" "Stack pointer",
    register "lr" "Link register",
    register "pc" "Program counter"]

def generalRegisters : Nat := 13

def instruction (name usage detail : String) : Instruction :=
  ⟨.ofString name, .ofString usage, .ofString detail⟩

def instructions : List Instruction :=
  [instruction "LDR" "LDR Rd, [Rm + Rn/imm]" "Loads value from memory at address into register.",
    instruction "STR" "STR Rd, [Rm + Rn/imm]" "Stores value from register into memory at address.",
    instruction "MOV" "MOV Rd, Rn/imm" "Moves data between registers.",
    instruction "ADD" "ADD Rd, Rm, Rn/imm" "Performs addition.",
    instruction "ADDC" "ADDC Rd, Rm, Rn/imm" "Performs addition + carry.",
    instruction "SUB" "SUB Rd, Rm, Rn/imm" "Performs subtraction with Rm as minuend.",
    instruction "SUBC" "SUBC Rd, Rm, Rn/imm" "Performs subtraction with Rm as minuend - carry.",
    instruction "RSUB" "RSUB Rd, Rm, Rn/imm" "Performs subtraction with Rm as subtrahend.",
    instruction "RSUBC" "RSUBC Rd, Rm, Rn/imm"
      "Performs subtraction with Rm as subtrahend - carry.",
    instruction "MUL" "MUL Rd, Rm, Rn/imm" "Performs unsigned multiplication.",
    instruction "AND" "AND Rd, Rm, Rn/imm" "Performs bitwise AND.",
    instruction "OR" "OR Rd, Rm, Rn/imm" "Performs bitwise OR.",
    instruction "BIC" "BIC Rd, Rm, Rn/imm" "Clears the bits in Rn/imm from Rm.",
    instruction "XOR" "XOR Rd, Rm, Rn/imm" "Performs bitwise XOR.",
    instruction "CMP" "CMP Rm, Rn/imm"
      "Performs subtraction with Rm as minuend, discarding the result.",
    instruction "TST" "TST Rm, Rn/imm" "Performs bitwise AND, discarding the result."]

def condition (suffix flags description : String) : Condition :=
  ⟨.ofString suffix, .ofString flags, .ofString description⟩

def conditions : List Condition :=
  [condition "EQ" "Z" "equal/zero",
    condition "NE" "!Z" "not equal/not zero",
    condition "CS" "C" "carry set",
    condition "NC" "!C" "no carry",
    condition "SS" "N" "sign set/negative",
    condition "NS" "!N" "no sign/positive",
    condition "OV" "V" "overflow",
    condition "NV" "!V" "no overflow",
    condition "AB" "C & !Z" "unsigned above",
    condition "BE" "!C | Z" "unsigned below or equal",
    condition "GE" "!(N^V)" "signed >=",
    condition "LT" "N^V" "signed <",
    condition "GT" "!Z & !(N^V)" "signed >",
    condition "LE" "Z | (N^V)" "signed <="]

def signature (label doc : String) (parameters : List (String × String)) : Signature :=
  ⟨.ofString label, .ofString doc,
    parameters.map fun (label, doc) => ⟨.ofString label, .ofString doc⟩⟩

def arithmetic : Family where
  name := .ofString "alu"
  mnemonics := .ofString "addc?|r?subc?|mul|and|bic|x?or"
  arity := 3
  registerArity := 2
  operators := [("ADD", "+"), ("SUB", "-"), ("MUL", "*"),
    ("AND", "&"), ("OR", "|"), ("XOR", "^")].map
      fun (name, symbol) => (.ofString name, .ofString symbol)
  register := signature "{mnemonic} Rd{assign} Rm{op} Rn"
    "Operate on Rm and Rn, placing the result in Rd"
    [("Rd", "Destination register"),
     ("Rm", "First operand register"),
     ("Rn", "Second operand register")]
  immediate := signature "{mnemonic} Rd{assign} Rm{op} imm"
    "Operate on Rm and an immediate value, placing the result in Rd"
    [("Rd", "Destination register"),
     ("Rm", "First operand register"),
     ("imm", "Second operand (16-bit immediate value)")]

def load : Family where
  name := .ofString "ldr"
  mnemonics := .ofString "ldr"
  arity := 3
  registerArity := 2
  operators := []
  register := signature "LDR Rd <- [Rm + sh(Rn)]"
    "Loads the value at address Rm + sh(Rn) into Rd"
    [("Rd", "Destination register"),
     ("Rm", "Address base register"),
     ("sh(Rn)", "Address offset register")]
  immediate := signature "LDR Rd <- [Rm + imm]"
    "Loads the value at address Rm + imm into Rd"
    [("Rd", "Destination register"),
     ("Rm", "Address base register"),
     ("imm", "Address offset (16-bit immediate value)")]

def store : Family where
  name := .ofString "str"
  mnemonics := .ofString "str"
  arity := 3
  registerArity := 1
  operators := []
  register := signature "STR [Rm + sh(Rn)] <- Rd"
    "Stores the value in Rd to address Rm + sh(Rn)"
    [("Rm", "Address base register"),
     ("sh(Rn)", "Address offset register"),
     ("Rd", "Destination register")]
  immediate := signature "STR [Rm + imm] <- Rd"
    "Stores the value in Rd to address Rm + imm"
    [("Rm", "Address base register"),
     ("imm", "Address offset (16-bit immediate value)"),
     ("Rd", "Destination register")]

def move : Family where
  name := .ofString "mov"
  mnemonics := .ofString "mov"
  arity := 2
  registerArity := 1
  operators := []
  register := signature "MOV Rd, sh(Rn)"
    "Move the value from Rn to Rd"
    [("Rd", "Destination register"),
     ("Rn", "Source register")]
  immediate := signature "MOV Rd, imm"
    "Move the immediate value specified to Rd"
    [("Rd", "Destination register"),
     ("imm", "Source 16-bit immediate value")]

def comparison : Family where
  name := .ofString "cmp"
  mnemonics := .ofString "cmp"
  arity := 2
  registerArity := 1
  operators := []
  register := signature "CMP Rm, sh(Rn)"
    "Compares Rm and Rn"
    [("Rm", "Minuend in comparison"),
     ("Rn", "Subtrahend in comparison")]
  immediate := signature "CMP Rm, imm"
    "Compares Rm and imm"
    [("Rm", "Minuend in comparison"),
     ("imm", "16-bit immediate subtrahend")]

def bitTest : Family where
  name := .ofString "tst"
  mnemonics := .ofString "tst"
  arity := 2
  registerArity := 1
  operators := []
  register := signature "TST Rm, sh(Rn)"
    "Tests bit set in Rm from Rn mask"
    [("Rm", "Register 1"),
     ("Rn", "Register 2")]
  immediate := signature "TST Rm, imm"
    "Tests bit set in Rm from imm mask"
    [("Rm", "Register 1"),
     ("imm", "16-bit immediate value")]

def families : List Family := [arithmetic, load, store, move, comparison, bitTest]

/- The data as configuration text. -/

def writeParameter (p : Parameter) : Bytes :=
  Writer.record [("label", Writer.text p.label), ("doc", Writer.text p.doc)]

def writeSignature (s : Signature) : Bytes :=
  Writer.record [("label", Writer.text s.label), ("doc", Writer.text s.doc),
    ("parameters", Writer.list (s.parameters.map writeParameter))]

def writeFamily (f : Family) : Bytes :=
  Writer.record [("name", Writer.text f.name), ("mnemonics", Writer.text f.mnemonics),
    ("arity", Decimal.ofInt f.arity.toInt),
    ("registerArity", Decimal.ofInt f.registerArity.toInt),
    ("operators", Writer.table f.operators), ("register", writeSignature f.register),
    ("immediate", writeSignature f.immediate)]

def writeInstruction (i : Instruction) : Bytes :=
  Writer.record [("name", Writer.text i.name), ("syntax", Writer.text i.usage),
    ("detail", Writer.text i.detail)]

def writeCondition (c : Condition) : Bytes :=
  Writer.record [("suffix", Writer.text c.suffix), ("flags", Writer.text c.flags),
    ("description", Writer.text c.description)]

def writeRegister (r : Register) : Bytes :=
  Writer.record [("name", Writer.text r.name), ("detail", Writer.text r.detail)]

/-- The built-in layer, below all files. -/
def source : Source where
  name := .ofString "defaults.cue"
  content := Writer.document [
    ("registers", Writer.list (registers.map writeRegister)),
    ("generalRegisters", Decimal.ofNat generalRegisters),
    ("instructions", Writer.list (instructions.map writeInstruction)),
    ("conditions", Writer.list (conditions.map writeCondition)),
    ("families", Writer.list (families.map writeFamily))]

end AsmAssist.Defaults
