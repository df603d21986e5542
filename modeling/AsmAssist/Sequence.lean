/- Searches and cuts on lists: the leftmost hit, the leftmost window, cuts at a separator. -/

namespace AsmAssist.Sequence

variable {α β ε : Type}

def firstIndex? (hit : α → Bool) : List α → Option Nat
  | [] => none
  | x :: xs => if hit x then some 0 else (firstIndex? hit xs).map (· + 1)

/-- Membership is the presence of a first index. -/
def holds [BEq α] (xs : List α) (a : α) : Bool :=
  (firstIndex? (· == a) xs).isSome

/-- An array was read at a place that it does not have. -/
structure Fault where
  place : Nat

def elementAt (xs : Array α) (i : Nat) : Except Fault α :=
  match xs[i]? with
  | some x => .ok x
  | none => .error ⟨i⟩

/-- Every element of the pattern is hit by the element at the same offset from place `i`. The first
    miss ends the comparison, and so does a place that cannot be read. -/
def hitsAt (hit : α → β → Bool) (read : Nat → Except ε α) (i : Nat) : List β → Except ε Bool
  | [] => return true
  | p :: ps => do
      let x ← read i
      if hit x p then hitsAt hit read (i + 1) ps else return false

/-- The first of the given number of places, from place `i` on, at which the pattern is hit. -/
def searchFrom (hit : α → β → Bool) (pattern : List β) (read : Nat → Except ε α) (i : Nat) :
    Nat → Except ε (Option Nat)
  | 0 => return none
  | places + 1 => do
      if ← hitsAt hit read i pattern then return some i
      else searchFrom hit pattern read (i + 1) places

/-- The places to try are those from which a window as wide as the pattern does not reach over the
    end. The empty pattern has no window. -/
def search (hit : α → β → Bool) (pattern : List β) (read : Nat → Except ε α) (length : Nat) :
    Except ε (Option Nat) :=
  if pattern.isEmpty then return none
  else searchFrom hit pattern read 0 (length + 1 - pattern.length)

/-- Leftmost window that matches a nonempty pattern. -/
def window? (hit : α → β → Bool) (pattern : List β) (xs : List α) : Option Nat :=
  let elements := xs.toArray
  match search hit pattern (elementAt elements) elements.size with
  | .ok found => found
  -- Never taken: no place outside of the array is read.
  | .error _ => none

def enumerate (xs : List α) : List Nat × List α :=
  (List.range xs.length, xs)

/-- The pieces between separators; there is one more piece than there are separators. -/
def splitOn [BEq α] (sep : α) : List α → List (List α)
  | [] => [[]]
  | x :: xs =>
      match splitOn sep xs with
      | [] => [[]]
      | piece :: pieces => if x == sep then [] :: piece :: pieces else (x :: piece) :: pieces

def firstByKey {κ : Type} [BEq κ] (key : α → κ) (xs : List α) : List α :=
  (xs.foldl
    (fun (kept : List α × List κ) x =>
      if kept.2.contains (key x) then kept else (x :: kept.1, key x :: kept.2))
    ([], [])).1.reverse

end AsmAssist.Sequence
