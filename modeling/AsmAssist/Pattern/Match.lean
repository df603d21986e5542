import AsmAssist.Pattern.Tree

/- Matching: the places of a text that a pattern leads to from a set of places. -/

namespace AsmAssist.Pattern

/-- The text between whose characters patterns lead. -/
abbrev Input := Array Nat

def isWordCode (n : Option Nat) : Bool :=
  match n with
  | some n => n < 0x80 && Ascii.isWord (UInt8.ofNat n)
  | none => false

def before? (input : Input) (i : Nat) : Option Nat := if i = 0 then none else input[i - 1]?

def Assertion.holds (input : Input) (i : Nat) : Assertion → Bool
  | .textStart => i == 0
  | .textEnd => i == input.size
  | .lineStart => i == 0 || before? input i == some 10
  | .lineEnd => i == input.size || input[i]? == some 10
  | .wordEdge => isWordCode (before? input i) != isWordCode input[i]?
  | .noWordEdge => isWordCode (before? input i) == isWordCode input[i]?

/-- A set of places as a list without repetitions. -/
def union (xs ys : List Nat) : List Nat := xs ++ ys.filter (fun y => !xs.contains y)

/-- The places after one accepted character. -/
def advance (input : Input) (accepts : Nat → Bool) (places : List Nat) : List Nat :=
  places.filterMap fun i =>
    match input[i]? with
    | some n => if accepts n then some (i + 1) else none
    | none => none

/-- Adds the places that `lead` reaches until none is new, at most `fuel` times. -/
def closure (lead : List Nat → List Nat) : Nat → List Nat → List Nat
  | 0, places => places
  | fuel + 1, places =>
      let fresh := (lead places).filter fun i => !places.contains i
      if fresh.isEmpty then places else closure lead fuel (places ++ fresh.eraseDups)

def times (lead : List Nat → List Nat) : Nat → List Nat → List Nat
  | 0, places => places
  | n + 1, places => times lead n (lead places)

def upTo (lead : List Nat → List Nat) : Nat → List Nat → List Nat
  | 0, places => places
  | n + 1, places =>
      let next := lead places
      if next.isEmpty then places else union places (upTo lead n next)

def acceptsCode (folds : Bool) (code n : Nat) : Bool :=
  if folds then Case.fold code == Case.fold n else code == n

/-- The places that the pattern leads to from the given ones. -/
def lead (input : Input) : Pattern → List Nat → List Nat
  | .empty => fun places => places
  | .text codes folds => fun places =>
      codes.foldl (fun reached code => advance input (acceptsCode folds code) reached) places
  | .oneOf set => advance input set.accepts
  | .assertion condition => fun places => places.filter fun i => condition.holds input i
  | .group p => lead input p
  | .seq p q => fun places => lead input q (lead input p places)
  | .alt p q => fun places => union (lead input p places) (lead input q places)
  | .star p => closure (lead input p) (input.size + 1)
  | .plus p => fun places => closure (lead input p) (input.size + 1) (lead input p places)
  | .optional p => fun places => union places (lead input p places)
  | .repeated p least most => fun places =>
      let reached := times (lead input p) least places
      match most with
      | none => closure (lead input p) (input.size + 1) reached
      | some most => upTo (lead input p) (most - least) reached

/-- Some part of the text, wherever it starts, matches. -/
def isIn (p : Pattern) (text : Bytes) : Bool :=
  let input : Input := (text.runes.map Char.toNat).toArray
  !(lead input p (List.range (input.size + 1))).isEmpty

end AsmAssist.Pattern
