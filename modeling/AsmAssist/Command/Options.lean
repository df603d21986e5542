import AsmAssist.Text.Bytes

/- Options before the command: `-name value` or `-name=value`, with one hyphen or two. Options end
   at the first argument that is none, or after two hyphens alone. -/

namespace AsmAssist.Command

structure Options where
  configs : List Bytes
  level : Bytes
  rest : List Bytes
deriving DecidableEq, Repr

/-- Why the usage is shown instead. -/
inductive OptionError where
  | help
  | malformed (argument : Bytes)
  | unknown (name : Bytes)
  | noValue (name : Bytes)
deriving DecidableEq, Repr

/-- Asking for help is no fault and has no message. -/
def OptionError.message? : OptionError → Option Bytes
  | help => none
  | malformed argument => some (.ofString "bad flag syntax: " ++ argument)
  | unknown name => some (.ofString "flag provided but not defined: -" ++ name)
  | noValue name => some (.ofString "flag needs an argument: -" ++ name)

namespace Options

def hyphen : UInt8 := '-'.toUInt8

def equals : UInt8 := '='.toUInt8

inductive Reading where
  | positional
  | terminator
  | malformed
  | option (name : Bytes) (value : Option Bytes)
deriving DecidableEq, Repr

/-- The name before the first equality sign and the value after it; the name has at least one
    byte. -/
def named (body : Bytes) : Reading :=
  match body with
  | [] => .malformed
  | b :: rest =>
      if b == hyphen || b == equals then .malformed
      else match Bytes.cut? equals rest with
        | some (name, value) => .option (b :: name) (some value)
        | none => .option body none

/-- A single hyphen is an argument like any other. -/
def classify (argument : Bytes) : Reading :=
  match argument with
  | a :: b :: rest =>
      if a != hyphen then .positional
      else if b != hyphen then named (b :: rest)
      else if rest.isEmpty then .terminator
      else named rest
  | _ => .positional

/-- Sets an option; of several levels the last counts, configurations add up. -/
def set? (o : Options) (name value : Bytes) : Option Options :=
  if name == .ofString "config" then some { o with configs := o.configs ++ [value] }
  else if name == .ofString "log" then some { o with level := value }
  else none

def isKnown (name : Bytes) : Bool := name == .ofString "config" || name == .ofString "log"

def isHelp (name : Bytes) : Bool := name == .ofString "help" || name == .ofString "h"

/-- Reads options from the front. An option without a value takes the next argument, whatever it
    looks like. -/
def readFrom (o : Options) : List Bytes → Except OptionError Options
  | [] => .ok { o with rest := [] }
  | argument :: rest =>
      match classify argument with
      | .positional => .ok { o with rest := argument :: rest }
      | .terminator => .ok { o with rest }
      | .malformed => .error (.malformed argument)
      | .option name value =>
          if isHelp name then .error .help
          else if !isKnown name then .error (.unknown name)
          else
            match value, rest with
            | some v, rest => readFrom ((o.set? name v).getD o) rest
            | none, v :: rest => readFrom ((o.set? name v).getD o) rest
            | none, [] => .error (.noValue name)

/-- The options of a command line. The level is warn unless one is given. -/
def read (arguments : List Bytes) : Except OptionError Options :=
  readFrom ⟨[], .ofString "warn", []⟩ arguments

end Options

end AsmAssist.Command
