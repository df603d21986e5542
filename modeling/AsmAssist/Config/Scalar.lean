import AsmAssist.Text.Rune

/- Scalars of a configuration: null, booleans, exact decimal numbers, texts and byte strings, with
   the kinds they belong to and the order within a kind. -/

namespace AsmAssist.Config

inductive Kind where
  | null
  | bool
  | int
  | float
  | text
  | bytes
  | record
  | list
deriving DecidableEq, Repr

namespace Kind

def all : List Kind := [null, bool, int, float, text, bytes, record, list]

def numeric : List Kind := [int, float]

end Kind

/-- The number `coefficient * 10 ^ exponent`. A float is never an integer, whatever its value. -/
structure Number where
  coefficient : Int
  exponent : Int
  isFloat : Bool
deriving DecidableEq, Repr

namespace Number

def ofInt (n : Int) : Number := ⟨n, 0, false⟩

def negate (n : Number) : Number := { n with coefficient := -n.coefficient }

/-- The coefficient at an exponent not above the number's own. -/
def scaledTo (exponent : Int) (n : Number) : Int :=
  n.coefficient * Int.pow 10 (n.exponent - exponent).toNat

/-- Both numbers as coefficients of one power of ten. -/
def aligned (a b : Number) : Int × Int :=
  let exponent := min a.exponent b.exponent
  (a.scaledTo exponent, b.scaledTo exponent)

def order (a b : Number) : Ordering :=
  let (x, y) := aligned a b
  compare x y

def kind (n : Number) : Kind := if n.isFloat then .float else .int

end Number

inductive Scalar where
  | null
  | bool (b : Bool)
  | number (n : Number)
  | text (s : Bytes)
  | bytes (s : Bytes)
deriving DecidableEq, Repr

namespace Scalar

def kind : Scalar → Kind
  | null => .null
  | bool _ => .bool
  | number n => n.kind
  | text _ => .text
  | bytes _ => .bytes

def bytesOrder : Bytes → Bytes → Ordering
  | [], [] => .eq
  | [], _ :: _ => .lt
  | _ :: _, [] => .gt
  | a :: as, b :: bs => (compare a b).then (bytesOrder as bs)

/-- The order of two scalars that can be compared: numbers of either kind, texts, byte strings. -/
def order? : Scalar → Scalar → Option Ordering
  | number a, number b => some (a.order b)
  | text a, text b => some (bytesOrder a b)
  | bytes a, bytes b => some (bytesOrder a b)
  | _, _ => none

/-- Numbers are the same by kind and value, so 1.0 is 1.00 and is not 1. -/
def same (a b : Scalar) : Bool :=
  a.kind == b.kind && (order? a b).getD (if a == b then .eq else .lt) == .eq

end Scalar

inductive Comparison where
  | less
  | atMost
  | greater
  | atLeast
  | notEqual
deriving DecidableEq, Repr

def Comparison.admits : Comparison → Ordering → Bool
  | less, o => o == .lt
  | atMost, o => o != .gt
  | greater, o => o == .gt
  | atLeast, o => o != .lt
  | notEqual, o => o != .eq

structure Bound where
  comparison : Comparison
  limit : Scalar
deriving DecidableEq, Repr

namespace Bound

/-- The kinds that a bound leaves: those of its limit, and every kind but null when the limit is
    null itself. -/
def kinds (b : Bound) : List Kind :=
  match b.limit with
  | .number _ => Kind.numeric
  | .null => Kind.all.filter (· != .null)
  | limit => [limit.kind]

def admits (b : Bound) (s : Scalar) : Bool :=
  match s.order? b.limit with
  | some o => b.comparison.admits o
  | none => b.comparison == .notEqual && !s.same b.limit

def isLower (b : Bound) : Bool := b.comparison == .greater || b.comparison == .atLeast

def isUpper (b : Bound) : Bool := b.comparison == .less || b.comparison == .atMost

end Bound

/-- What a lower and an upper bound leave together. -/
inductive Gap where
  | wide
  | point (s : Scalar)
  | empty
deriving DecidableEq, Repr

namespace Gap

/-- Numbers between two bounds. Among integers alone, bounds one or two apart can leave a single
    number. -/
def ofNumbers (integersOnly : Bool) (lower upper : Comparison) (lo hi : Number) : Gap :=
  let (x, y) := lo.aligned hi
  let unit : Int := Int.pow 10 (-(min lo.exponent hi.exponent)).toNat
  let distance := y - x
  if distance < 0 then empty
  else if distance = 0 then
    if lower == .atLeast && upper == .atMost then point (.number lo) else empty
  else if integersOnly && distance = unit then
    if lower == .atLeast && upper == .less then point (.number lo)
    else if lower == .greater && upper == .atMost then point (.number hi)
    else wide
  else if integersOnly && distance = 2 * unit && lower == .greater && upper == .less then
    point (.number { lo with coefficient := lo.coefficient + unit })
  else wide

def between (kinds : List Kind) (lower upper : Bound) : Gap :=
  match lower.limit, upper.limit with
  | .number lo, .number hi =>
      ofNumbers (kinds == [.int]) lower.comparison upper.comparison lo hi
  | lo, hi =>
      match lo.order? hi with
      | some .lt => wide
      | some .eq =>
          if lower.comparison == .atLeast && upper.comparison == .atMost then point lo else empty
      | some .gt => empty
      | none => wide

end Gap

end AsmAssist.Config
