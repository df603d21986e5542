import AsmAssist.Text.Lines

/- Standard input read line by line, with a bound on the length of a line. -/

namespace AsmAssist.Command.Input

/-- The bytes that a line may have, its line feed included. -/
def lineLimit : Nat := 65536

def tooLong : Bytes := .ofString "bufio.Scanner: token too long"

/-- Lines up to the first that is too long, and whether there is one. An unterminated last piece
    is a line unless it is empty, and loses its carriage return too. -/
def linesOf : List Bytes → List Bytes × Bool
  | [] => ([], false)
  | [last] =>
      if last.isEmpty then ([], false)
      else if lineLimit ≤ last.length then ([], true)
      else ([Lines.dropReturn last], false)
  | piece :: pieces =>
      if lineLimit ≤ piece.length then ([], true)
      else
        let (lines, long) := linesOf pieces
        (Lines.dropReturn piece :: lines, long)

def lines (input : Bytes) : List Bytes × Bool := linesOf (Sequence.splitOn Lines.lineFeed input)

end AsmAssist.Command.Input
