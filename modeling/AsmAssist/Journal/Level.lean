import AsmAssist.Text.Case
import AsmAssist.Text.Decimal

/- Severity levels: four named marks and every integer around them. -/

namespace AsmAssist.Journal

/-- A severity; the named levels are -4, 0, 4 and 8. -/
structure Level where
  rank : Int64
deriving DecidableEq, Repr

namespace Level

def debug : Level := ⟨-4⟩

def info : Level := ⟨0⟩

def warn : Level := ⟨4⟩

def error : Level := ⟨8⟩

inductive Fault where
  | unknownName
  | offset (text : Bytes) (error : Decimal.ReadError)
deriving DecidableEq, Repr

structure ReadError where
  text : Bytes
  fault : Fault
deriving DecidableEq, Repr

def ReadError.message (e : ReadError) : Bytes :=
  let cause := match e.fault with
    | .unknownName => Bytes.ofString "unknown name"
    | .offset text error => Decimal.complaint text error
  .ofString "slog: level string " ++ Quoted.text e.text ++ .ofString ": " ++ cause

def ofName? (name : Bytes) : Option Level :=
  let upper := name.toUpper
  if upper == .ofString "DEBUG" then some debug
  else if upper == .ofString "INFO" then some info
  else if upper == .ofString "WARN" then some warn
  else if upper == .ofString "ERROR" then some error
  else none

def isSign (b : UInt8) : Bool := b == '+'.toUInt8 || b == '-'.toUInt8

/-- Reads a name in any case with an optional signed offset. The offset is read before the name
    is looked up, and is added in 64-bit arithmetic. -/
def read (text : Bytes) : Except ReadError Level :=
  let name := text.takeWhile (fun b => !isSign b)
  let offset := text.drop name.length
  let amount : Except ReadError Int64 :=
    if offset.isEmpty then .ok 0
    else match Decimal.readInt offset with
      | .ok n => .ok n
      | .error e => .error ⟨text, .offset offset e⟩
  match amount with
  | .error e => .error e
  | .ok n =>
      match ofName? name with
      | some level => .ok ⟨level.rank + n⟩
      | none => .error ⟨text, .unknownName⟩

/-- The name of the mark at or below the level, with the distance from it. -/
def name (l : Level) : Bytes :=
  let written (mark : String) (distance : Int) : Bytes :=
    .ofString mark ++ (if distance = 0 then [] else Decimal.signed distance)
  let rank := l.rank.toInt
  if rank < 0 then written "DEBUG" (rank + 4)
  else if rank < 4 then written "INFO" rank
  else if rank < 8 then written "WARN" (rank - 4)
  else written "ERROR" (rank - 8)

end Level

end AsmAssist.Journal
