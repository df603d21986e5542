import AsmAssist.Config.Lexeme
import AsmAssist.Config.Value

/- Paths into a value: `name`, `"any text"` and `[index]` steps, joined by points. -/

namespace AsmAssist.Config

inductive Step where
  | field (label : Label)
  | index (n : Nat)
deriving DecidableEq, Repr

abbrev Path := List Step

namespace Path

/-- A step by an integer or a text, as it stands in brackets. -/
def literal? : Lexeme → Option Step
  | .number n => if n.isFloat then none else some (.index n.coefficient.toNat)
  | .text s _ => some (.field (.plain s))
  | _ => none

/-- A step by a word; hidden fields cannot be reached. -/
def word? (name : List Char) : Option Step :=
  match Label.ofWord name with
  | .hidden _ => none
  | label => some (.field label)

def steps? : List Lexeme → Option Path
  | [] => some []
  | [.mark .lineEnd] => some []
  | .mark .dot :: .word name :: rest => do some ((← word? name) :: (← steps? rest))
  | .mark .dot :: .text s false :: rest => do some (.field (.plain s) :: (← steps? rest))
  | .mark .leftBracket :: x :: .mark .rightBracket :: rest => do
      some ((← literal? x) :: (← steps? rest))
  | _ => none

/-- Words that are values of their own and name no field when they come first. -/
def isValueWord (name : List Char) : Bool :=
  ["null".toList, "true".toList, "false".toList].contains name

/-- The path that a text spells. The empty text is the path to the whole value, a text that is
    no path has none. -/
def read? (text : Bytes) : Option Path :=
  if text.isEmpty then some []
  else match Lexeme.read? text with
    | some (.word name :: rest) =>
        if isValueWord name then none else do some ((← word? name) :: (← steps? rest))
    | some (x :: rest) => do some ((← literal? x) :: (← steps? rest))
    | _ => none

end Path

/-- What stands at a place in a value: nothing, something that has no value, or a value. -/
inductive Finding where
  | absent
  | erroneous
  | value (v : Value)

def Finding.value? : Finding → Option Value
  | value v => some v
  | _ => none

namespace Value

/-- One step into a value. Only what is present can be reached, and a choice has nothing to
    step into. -/
def step? (v : Value) (s : Step) : Option Value :=
  match v, s with
  | record fields _ _ _, .field label =>
      (fields.find? fun f => f.label == label && f.presence == .regular).map (·.value)
  | list items _, .index n => items[n]?
  | _, _ => none

/-- What stands at the end of a path. A conflict and what is not resolved have no value. -/
def find (v : Value) : Path → Finding
  | [] => if v.isConflict || v.isUnresolved then .erroneous else .value v
  | s :: rest =>
      match v.step? s with
      | some inner => inner.find rest
      | none => .absent

/-- What stands at the path that a text spells. -/
def findAt (path : Bytes) (v : Value) : Finding :=
  match Path.read? path with
  | some steps => v.find steps
  | none => .absent

end Value

end AsmAssist.Config
