import AsmAssist.Config.Scalar

/- Expressions of a configuration text, and which names they leave without a meaning. -/

namespace AsmAssist.Config

/-- How a field is named. Hidden fields and definitions are no data of the configuration. -/
inductive Label where
  | plain (name : Bytes)
  | hidden (name : Bytes)
  | definition (name : Bytes)
deriving DecidableEq, Repr

namespace Label

/-- A label written as a word: a leading underscore hides it, a hash sign defines it. -/
def ofWord (name : List Char) : Label :=
  match name with
  | '_' :: _ => hidden (.ofRunes name)
  | '#' :: _ => definition (.ofRunes name)
  | _ => plain (.ofRunes name)

def plain? : Label → Option Bytes
  | plain name => some name
  | _ => none

def isPlain (l : Label) : Bool := l.plain?.isSome

def isDefinition : Label → Bool
  | definition _ => true
  | hidden (a :: b :: _) => a == '_'.toUInt8 && b == '#'.toUInt8
  | _ => false

end Label

/-- Whether a field is there, may be there, or has to be there in the end. -/
inductive Presence where
  | regular
  | optional
  | required
deriving DecidableEq, Repr

/-- A field declared twice is as present as either declaration makes it. -/
def Presence.join : Presence → Presence → Presence
  | regular, _ | _, regular => regular
  | required, _ | _, required => required
  | optional, optional => optional

mutual

/-- An expression. A struct carries the place where it stands, which tells it from every other
    struct of its text. -/
inductive Expr where
  | bottom
  | scalar (s : Scalar)
  | name (name : List Char)
  | signed (negative : Bool) (e : Expr)
  | bound (c : Comparison) (e : Expr)
  | both (a b : Expr)
  | choice (alternatives : List Alternative)
  | select (e : Expr) (label : Label)
  | close (e : Expr)
  | list (items : List Expr) (rest : Option Expr)
  | struct (place : Nat) (declarations : List Declaration)

/-- One side of a disjunction; a default is preferred when nothing else decides. -/
inductive Alternative where
  | mk (isDefault : Bool) (e : Expr)

/-- A declaration of a struct: a field, a value for every plain field, an embedded value, or
    leave for fields of any other name. Only a field whose label is a word can be referred to. -/
inductive Declaration where
  | field (label : Label) (isWord : Bool) (presence : Presence) (e : Expr)
  | each (e : Expr)
  | embed (e : Expr)
  | open

end

namespace Declaration

def label? : Declaration → Option Label
  | field label _ _ _ => some label
  | _ => none

/-- The label under which other expressions can refer to the declaration. -/
def target? : Declaration → Option Label
  | field label true _ _ => some label
  | _ => none

def isOpen : Declaration → Bool
  | .open => true
  | _ => false

def presence? (l : Label) : Declaration → Option Presence
  | field label _ presence _ => if label = l then some presence else none
  | _ => none

def value? (l : Label) : Declaration → Option Expr
  | field label _ _ e => if label = l then some e else none
  | _ => none

end Declaration

namespace Expr

/-- The kinds that a name stands for when no field has it. -/
def predeclared? (name : List Char) : Option (List Kind) :=
  match String.ofList name with
  | "_" => some Kind.all
  | "string" => some [.text]
  | "bytes" => some [.bytes]
  | "bool" => some [.bool]
  | "int" => some [.int]
  | "float" => some [.float]
  | "number" => some Kind.numeric
  | _ => none

mutual

/-- Every name stands for a field of an enclosing struct or is predeclared. `scope` holds the
    labels in reach. -/
def isScoped (scope : List Label) : Expr → Bool
  | bottom => true
  | scalar _ => true
  | name n => scope.contains (.ofWord n) || (predeclared? n).isSome
  | signed _ e => isScoped scope e
  | bound _ e => isScoped scope e
  | both a b => isScoped scope a && isScoped scope b
  | choice alternatives => areScopedAlternatives scope alternatives
  | select e _ => isScoped scope e
  | close e => isScoped scope e
  | list items rest => areScoped scope items && isScopedRest scope rest
  | struct _ declarations =>
      areScopedDeclarations (declarations.filterMap Declaration.target? ++ scope) declarations

def areScoped (scope : List Label) : List Expr → Bool
  | [] => true
  | e :: es => isScoped scope e && areScoped scope es

def isScopedRest (scope : List Label) : Option Expr → Bool
  | none => true
  | some e => isScoped scope e

def areScopedAlternatives (scope : List Label) : List Alternative → Bool
  | [] => true
  | .mk _ e :: rest => isScoped scope e && areScopedAlternatives scope rest

def areScopedDeclarations (scope : List Label) : List Declaration → Bool
  | [] => true
  | .field _ _ _ e :: rest => isScoped scope e && areScopedDeclarations scope rest
  | .each e :: rest => isScoped scope e && areScopedDeclarations scope rest
  | .embed e :: rest => isScoped scope e && areScopedDeclarations scope rest
  | .open :: rest => areScopedDeclarations scope rest

end

end Expr

end AsmAssist.Config
