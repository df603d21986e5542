import AsmAssist.Config.Expr

/- Values of a configuration. They are ordered from the value that admits everything down to the
   conflict that admits nothing, with data in between. -/

namespace AsmAssist.Config

structure Field (α : Type) where
  label : Label
  presence : Presence
  value : α

/-- A marked alternative is a default. -/
structure Marked (α : Type) where
  isDefault : Bool
  value : α

/-- A value. `range` admits the scalars of its kinds within its bounds, and any record or list if
    it has those kinds. A record asks `each` of all its plain fields, and has only plain fields
    that all its closers list. A list may go on with items that `rest` admits. -/
inductive Value where
  | conflict
  | unresolved
  | scalar (s : Scalar)
  | range (kinds : List Kind) (bounds : List Bound)
  | record (fields : List (Field Value)) (each : Option Value) (closers : List (List Bytes))
      (isOpen : Bool)
  | list (items : List Value) (rest : Option Value)
  | choice (alternatives : List (Marked Value))

namespace Value

/-- The value that admits everything. -/
def top : Value := range Kind.all []

def isConflict : Value → Bool
  | conflict => true
  | _ => false

def isUnresolved : Value → Bool
  | unresolved => true
  | _ => false

mutual

def depth : Value → Nat
  | conflict => 0
  | unresolved => 0
  | scalar _ => 0
  | range _ _ => 0
  | record fields each _ _ => max (depthOfFields fields) (depthOfOption each) + 1
  | list items rest => max (depthOfList items) (depthOfOption rest) + 1
  | choice alternatives => depthOfAlternatives alternatives + 1

def depthOfFields : List (Field Value) → Nat
  | [] => 0
  | ⟨_, _, v⟩ :: rest => max v.depth (depthOfFields rest)

def depthOfOption : Option Value → Nat
  | none => 0
  | some v => v.depth

def depthOfList : List Value → Nat
  | [] => 0
  | v :: rest => max v.depth (depthOfList rest)

def depthOfAlternatives : List (Marked Value) → Nat
  | [] => 0
  | ⟨_, v⟩ :: rest => max v.depth (depthOfAlternatives rest)

end

mutual

/-- Sameness by structure, with scalars compared by value. -/
def same : Value → Value → Bool
  | conflict, conflict => true
  | unresolved, unresolved => true
  | scalar a, scalar b => a.same b
  | range ks bs, range ks' bs' => ks == ks' && bs == bs'
  | record fs each closers o, record fs' each' closers' o' =>
      sameFields fs fs' && sameOption each each' && closers == closers' && o == o'
  | list items rest, list items' rest' => sameList items items' && sameOption rest rest'
  | choice as, choice bs => sameAlternatives as bs
  | _, _ => false

def sameFields : List (Field Value) → List (Field Value) → Bool
  | [], [] => true
  | ⟨l, p, v⟩ :: rest, ⟨l', p', v'⟩ :: rest' =>
      l == l' && p == p' && same v v' && sameFields rest rest'
  | _, _ => false

def sameOption : Option Value → Option Value → Bool
  | none, none => true
  | some v, some v' => same v v'
  | _, _ => false

def sameList : List Value → List Value → Bool
  | [], [] => true
  | v :: rest, v' :: rest' => same v v' && sameList rest rest'
  | _, _ => false

def sameAlternatives : List (Marked Value) → List (Marked Value) → Bool
  | [], [] => true
  | ⟨d, v⟩ :: rest, ⟨d', v'⟩ :: rest' => d == d' && same v v' && sameAlternatives rest rest'
  | _, _ => false

end

/-- The alternatives of a value; a value that is no choice is its own only one. -/
def alternatives : Value → List (Marked Value)
  | choice as => as
  | v => [⟨false, v⟩]

/-- Adds an alternative unless it is a conflict. One that is there already keeps its place and
    is a default if either is. -/
def addAlternative (kept : List (Marked Value)) (new : Marked Value) : List (Marked Value) :=
  if new.value.isConflict then kept
  else if kept.any fun old => old.value.same new.value then
    kept.map fun old =>
      if old.value.same new.value then { old with isDefault := old.isDefault || new.isDefault }
      else old
  else kept ++ [new]

/-- A choice between alternatives: a conflict if none is left, no choice if one is. -/
def ofAlternatives (as : List (Marked Value)) : Value :=
  match as.foldl addAlternative [] with
  | [] => conflict
  | [a] => a.value
  | kept => choice kept

/-- A marked value passes its mark on to its alternatives, unless some of them are marked. -/
def markAll (isDefault : Bool) (v : Value) : List (Marked Value) :=
  let as := v.alternatives
  if isDefault && !as.any (·.isDefault) then as.map fun a => { a with isDefault := true } else as

/-- What a value stands for when data is asked of it: the only default of a choice. -/
def settled (v : Value) : Value :=
  match v with
  | choice as =>
      match as.filter (·.isDefault) with
      | [a] => a.value
      | _ => v
  | _ => v

/-- The labels of plain fields, whether they are present or not. -/
def plainNames (fields : List (Field Value)) : List Bytes :=
  fields.filterMap (·.label.plain?)

/-- A field that makes the record fail when it fails. -/
def isBinding (f : Field Value) : Bool := f.presence != .optional

/-- A present plain field that some closer does not list. -/
def isStranger (closers : List (List Bytes)) (f : Field Value) : Bool :=
  match f.label.plain? with
  | some name => f.presence == .regular && !closers.all (·.contains name)
  | none => false

/-- A record, or the conflict that one of its fields makes of it. -/
def checkedRecord (fields : List (Field Value)) (each : Option Value)
    (closers : List (List Bytes)) (isOpen : Bool) : Value :=
  if fields.any fun f => (isBinding f && f.value.isConflict) || isStranger closers f
  then conflict
  else record fields each closers isOpen

def checkedList (items : List Value) (rest : Option Value) : Value :=
  if items.any isConflict then conflict else list items rest

/-- The fields of a record that is open to every name need no closer. -/
def closersOf (fields : List (Field Value)) (each : Option Value) (isOpen : Bool) :
    List (List Bytes) :=
  if isOpen || each.isSome then [] else [plainNames fields]

/-- Closes a record at its top level. Nothing else can be closed. -/
def close : Value → Value
  | record fields each closers isOpen =>
      record fields each (closersOf fields each isOpen ++ closers) isOpen
  | unresolved => unresolved
  | _ => conflict

mutual

def closeAll : Value → Value
  | conflict => conflict
  | unresolved => unresolved
  | scalar s => scalar s
  | range kinds bounds => range kinds bounds
  | record fields each closers isOpen =>
      record (closeFields fields) (closeOption each)
        (closersOf fields each isOpen ++ closers) isOpen
  | list items rest => list (closeList items) (closeOption rest)
  | choice alternatives => choice (closeAlternatives alternatives)

def closeFields : List (Field Value) → List (Field Value)
  | [] => []
  | ⟨l, p, v⟩ :: rest => ⟨l, p, closeAll v⟩ :: closeFields rest

def closeOption : Option Value → Option Value
  | none => none
  | some v => some (closeAll v)

def closeList : List Value → List Value
  | [] => []
  | v :: rest => closeAll v :: closeList rest

def closeAlternatives : List (Marked Value) → List (Marked Value)
  | [] => []
  | ⟨d, v⟩ :: rest => ⟨d, closeAll v⟩ :: closeAlternatives rest

end

end Value

end AsmAssist.Config
