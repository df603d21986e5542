import AsmAssist.Config.Value
import AsmAssist.Text.Case
import AsmAssist.Text.Decimal

/- Data of known shape, taken from values. A choice counts as its default. -/

namespace AsmAssist.Config

/-- Takes data of a shape from a value, if the value has the shape. -/
abbrev Decoder (α : Type) := Value → Option α

namespace Decoder

def text : Decoder Bytes := fun v =>
  match v.settled with
  | .scalar (.text s) => some s
  | _ => none

def int : Decoder Int64 := fun v =>
  match v.settled with
  | .scalar (.number n) =>
      if !n.isFloat && Decimal.minInt64 ≤ n.coefficient && n.coefficient ≤ Decimal.maxInt64
      then some (Int64.ofInt n.coefficient) else none
  | _ => none

def bool : Decoder Bool := fun v =>
  match v.settled with
  | .scalar (.bool b) => some b
  | _ => none

/-- Values that hold no data where a collection is asked for: null and what is not decided. -/
def isVoid (v : Value) : Bool :=
  match v.settled with
  | .scalar .null => true
  | .range _ _ => true
  | .choice _ => true
  | _ => false

def list {α : Type} (item : Decoder α) : Decoder (List α) := fun v =>
  if isVoid v then some []
  else match v.settled with
    | .list items _ => items.mapM item
    | _ => none

/-- The plain fields that are present, in order. -/
def fields : Decoder (List (Bytes × Value)) := fun v =>
  match v.settled with
  | .record fs _ _ _ =>
      some (fs.filterMap fun f =>
        if f.presence == .regular then f.label.plain?.map (·, f.value) else none)
  | _ => none

def table : Decoder (List (Bytes × Bytes)) := fun v =>
  if isVoid v then some []
  else do (← fields v).mapM fun (name, value) => do some (name, ← text value)

/-- The field of a name, in whatever case it is written. Of several spellings the last counts, but
    all have to have the shape; without any the field is `missing`. -/
def field {α : Type} (name : String) (shape : Decoder α) (missing : α)
    (fs : List (Bytes × Value)) : Option α :=
  (fs.filter fun f => f.1.sameFold (.ofString name)).foldlM (fun _ f => shape f.2) missing

end Decoder

end AsmAssist.Config
