import AsmAssist.Text.Bytes

/- Lines of a document. A line feed ends a line and takes one carriage return before it along;
   a final line feed leaves an empty last line. -/

namespace AsmAssist.Lines

def lineFeed : UInt8 := 10

def carriageReturn : UInt8 := 13

/-- A terminated line without one carriage return at its end. -/
def dropReturn (line : Bytes) : Bytes :=
  if line.getLast? == some carriageReturn then line.dropLast else line

/-- Only the last piece is unterminated, so only the last piece keeps its carriage return. -/
def ofPieces : List Bytes → List Bytes
  | [] => []
  | [last] => [last]
  | piece :: pieces => dropReturn piece :: ofPieces pieces

def of (s : Bytes) : List Bytes := ofPieces (Sequence.splitOn lineFeed s)

def numbered (s : Bytes) : List (Nat × Bytes) := (of s).zipIdx.map fun (line, i) => (i, line)

/-- What a consumer sees that stops after `limit` lines; it always sees the first. -/
def upTo (limit : Int) (s : Bytes) : List (Nat × Bytes) := (numbered s).take (max 1 limit.toNat)

/-- The line with the given number, empty when there is none. -/
def line (s : Bytes) (number : Int) : Bytes :=
  if number < 0 then [] else ((of s)[number.toNat]?).getD []

end AsmAssist.Lines
