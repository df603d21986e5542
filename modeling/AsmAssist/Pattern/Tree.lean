import AsmAssist.Pattern.Class

/- Patterns as trees. -/

namespace AsmAssist

namespace Pattern

/-- Conditions on a place between two characters. -/
inductive Assertion where
  | textStart
  | textEnd
  | lineStart
  | lineEnd
  | wordEdge
  | noWordEdge
deriving DecidableEq, Repr

end Pattern

inductive Pattern where
  | empty
  | text (codes : List Nat) (folds : Bool)
  | oneOf (set : Pattern.CharClass)
  | assertion (condition : Pattern.Assertion)
  | group (body : Pattern)
  | seq (first second : Pattern)
  | alt (first second : Pattern)
  | star (body : Pattern)
  | plus (body : Pattern)
  | optional (body : Pattern)
  | repeated (body : Pattern) (least : Nat) (most : Option Nat)
deriving Repr

namespace Pattern

def anyChar : Pattern := .oneOf ⟨[.single 0 0x10FFFF], false, false⟩

def anyButNewline : Pattern := .oneOf ⟨[.single 10 10], false, true⟩

/-- What a tree of joined patterns is a part of; joins of one kind form a single level. -/
inductive Join where
  | none
  | seq
  | alt
deriving DecidableEq

/-- Levels of nesting below a join. -/
def heightUnder : Join → Pattern → Nat
  | .seq, .seq p q => max (heightUnder .seq p) (heightUnder .seq q)
  | .alt, .alt p q => max (heightUnder .alt p) (heightUnder .alt q)
  | _, .seq p q => max (heightUnder .seq p) (heightUnder .seq q) + 1
  | _, .alt p q => max (heightUnder .alt p) (heightUnder .alt q) + 1
  | _, .group p => heightUnder .none p + 1
  | _, .star p => heightUnder .none p + 1
  | _, .plus p => heightUnder .none p + 1
  | _, .optional p => heightUnder .none p + 1
  | _, .repeated p _ _ => heightUnder .none p + 1
  | _, _ => 1

def height (p : Pattern) : Nat := heightUnder .none p

/-- The counts along every path of nested counted repetitions multiply to at most `budget`. -/
def countsWithin : Nat → Pattern → Bool
  | budget, .repeated p least most =>
      let count := most.getD least
      if most = some 0 then true
      else if budget < count then false
      else countsWithin (if count = 0 then budget else budget / count) p
  | budget, .group p => countsWithin budget p
  | budget, .seq p q => countsWithin budget p && countsWithin budget q
  | budget, .alt p q => countsWithin budget p && countsWithin budget q
  | budget, .star p => countsWithin budget p
  | budget, .plus p => countsWithin budget p
  | budget, .optional p => countsWithin budget p
  | _, _ => true

/-- Joins items in sequence; neighbouring texts that fold alike become one text. -/
def sequence : List Pattern → Pattern
  | [] => .empty
  | [p] => p
  | p :: rest =>
      match p, sequence rest with
      | .text a folds, .text b folds' =>
          if folds = folds' then .text (a ++ b) folds else .seq (.text a folds) (.text b folds')
      | .text a folds, .seq (.text b folds') q =>
          if folds = folds' then .seq (.text (a ++ b) folds) q
          else .seq (.text a folds) (.seq (.text b folds') q)
      | p, q => .seq p q

def choice : List Pattern → Pattern
  | [] => .empty
  | [p] => p
  | p :: rest => .alt p (choice rest)

end Pattern

end AsmAssist
