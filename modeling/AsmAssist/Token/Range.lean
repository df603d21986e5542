import AsmAssist.Text.Decimal

/- Places in a document: lines and columns count from 0, and columns count characters. -/

namespace AsmAssist

structure Position where
  line : Int
  column : Int
deriving DecidableEq, Repr

/-- A stretch of one line, from its first column to the column after its last. -/
structure Range where
  start : Position
  stop : Position
deriving DecidableEq, Repr

namespace Position

def origin : Position := ⟨0, 0⟩

def moveRight (p : Position) (columns : Int) : Position := ⟨p.line, p.column + columns⟩

def render (p : Position) : Bytes :=
  Decimal.ofInt p.line ++ .ofString ":" ++ Decimal.ofInt p.column

end Position

namespace Range

def zero : Range := ⟨.origin, .origin⟩

/-- A cursor touches a range at both of its ends. -/
def covers (r : Range) (column : Int) : Bool :=
  r.start.column ≤ column && column ≤ r.stop.column

def moveRight (r : Range) (columns : Int) : Range :=
  ⟨r.start.moveRight columns, r.stop.moveRight columns⟩

def render (r : Range) : Bytes := r.start.render ++ .ofString "-" ++ r.stop.render

end Range

end AsmAssist
