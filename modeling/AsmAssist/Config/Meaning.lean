import AsmAssist.Config.Meet
import AsmAssist.Config.Reader

/- The value of an expression. A name stands for the field of the nearest enclosing struct that
   declares it, and the value of a field is the meet of all its declarations there. -/

namespace AsmAssist.Config

/-- A struct whose fields are in reach. The frames after it enclose it. -/
structure Frame where
  place : Nat
  declarations : List Declaration

namespace Frame

/-- A name reaches the fields whose labels are words. -/
def declares (l : Label) (f : Frame) : Bool :=
  f.declarations.any fun d => d.target? == some l

def labels (f : Frame) : List Label :=
  Sequence.firstByKey id (f.declarations.filterMap Declaration.label?)

def presence (l : Label) (f : Frame) : Presence :=
  (f.declarations.filterMap (Declaration.presence? l)).foldl Presence.join .optional

def values (l : Label) (f : Frame) : List Expr := f.declarations.filterMap (Declaration.value? l)

end Frame

/-- The fields under evaluation: those whose own value is asked for, and those around them. -/
structure Trail where
  near : List (Nat × Label)
  around : List (Nat × Label)

namespace Trail

def start : Trail := ⟨[], []⟩

def visit (t : Trail) (place : Nat) (l : Label) : Trail :=
  { t with near := (place, l) :: t.near }

/-- Inside a struct or a list, the fields so far are around what is evaluated. -/
def inside (t : Trail) : Trail := ⟨[], t.near ++ t.around⟩

end Trail

namespace Value

/-- A record that gets an embedded record takes its fields into those that closers allow. -/
def welcome (names : List Bytes) : Value → Value
  | record fields each closers isOpen => record fields each (closers.map (names ++ ·)) isOpen
  | v => v

/-- A record without plain fields is whatever is embedded in it. -/
def embed (own embedded : Value) : Value :=
  match own with
  | record fields each _ _ =>
      match embedded with
      | record _ _ _ _ => own.meet (embedded.welcome (plainNames fields))
      | _ =>
          if (plainNames fields).isEmpty && each.isNone then embedded else own.meet embedded
  | _ => own.meet embedded

def meetAll (vs : List Value) : Value := vs.foldl meet top

/-- A field of a record; a missing field may still come. -/
def select (l : Label) (v : Value) : Value :=
  match v.settled with
  | record fields _ _ _ =>
      match fields.find? fun f => f.label == l && f.presence == .regular with
      | some f => f.value
      | none => unresolved
  | conflict => conflict
  | unresolved => unresolved
  | range kinds _ => if kinds.contains .record then unresolved else conflict
  | _ => conflict

def withSign (negative : Bool) (v : Value) : Value :=
  match v.settled with
  | scalar (.number n) => scalar (.number (if negative then n.negate else n))
  | unresolved => unresolved
  | range kinds _ => if kinds.any Kind.numeric.contains then unresolved else conflict
  | _ => conflict

/-- Every scalar can be excluded; only numbers, texts and byte strings can bound from a side. -/
def bounding (c : Comparison) (v : Value) : Value :=
  match v.settled with
  | scalar s => if c == .notEqual || (s.order? s).isSome then ofBound ⟨c, s⟩ else conflict
  | unresolved => unresolved
  | range _ _ => unresolved
  | _ => conflict

end Value

namespace Expr

mutual

/-- The value of an expression among the frames in reach. Fields are followed through names, so
    the fuel has to cover a chain of fields as well as nested expressions. -/
def evaluate : Nat → List Frame → Trail → Expr → Value
  | 0, _, _, _ => .conflict
  | fuel + 1, frames, trail, e =>
      match e with
      | bottom => .conflict
      | scalar s => .scalar s
      | name n =>
          match predeclared? n, frames.dropWhile (fun f => !f.declares (.ofWord n)) with
          | _, frame :: outer => refer fuel frame outer trail (.ofWord n)
          | some kinds, [] => .range kinds []
          | none, [] => .conflict
      | signed negative e => (evaluate fuel frames trail e).withSign negative
      | bound c e => (evaluate fuel frames trail e).bounding c
      | both a b => (evaluate fuel frames trail a).meet (evaluate fuel frames trail b)
      | choice alternatives =>
          .ofAlternatives (alternatives.flatMap fun (.mk isDefault e) =>
            (evaluate fuel frames trail e).markAll isDefault)
      | select e l => (evaluate fuel frames trail e).select l
      | close e => (evaluate fuel frames trail e).close
      | list items rest =>
          Value.checkedList (items.map (evaluate fuel frames trail.inside))
            (rest.map (evaluate fuel frames trail.inside))
      | struct place declarations =>
          evaluateStruct fuel ⟨place, declarations⟩ frames trail.inside

/-- A name of a field. A field that is asked for while its own value is sought adds nothing to
    it; one that would hold itself has no value. -/
def refer : Nat → Frame → List Frame → Trail → Label → Value
  | 0, _, _, _, _ => .conflict
  | fuel + 1, frame, outer, trail, l =>
      if trail.near.contains (frame.place, l) then .top
      else if trail.around.contains (frame.place, l) then .conflict
      else if frame.presence l == .regular then evaluateField fuel frame outer trail l
      else .unresolved

/-- The value of a field: the meet of its declarations, closed if it is a definition. -/
def evaluateField : Nat → Frame → List Frame → Trail → Label → Value
  | 0, _, _, _, _ => .conflict
  | fuel + 1, frame, outer, trail, l =>
      let trail := trail.visit frame.place l
      let v := Value.meetAll ((frame.values l).map (evaluate fuel (frame :: outer) trail))
      if l.isDefinition then v.closeAll else v

/-- The record of the fields, asked of each what is asked of all, with the embedded values met
    into it. -/
def evaluateStruct : Nat → Frame → List Frame → Trail → Value
  | 0, _, _, _ => .conflict
  | fuel + 1, frame, outer, trail =>
      let frames := frame :: outer
      let each := (frame.declarations.filterMap fun d => match d with
        | .each e => some e
        | _ => none).map (evaluate fuel frames trail)
      let demand := if each.isEmpty then none else some (Value.meetAll each)
      let fields := frame.labels.map fun l =>
        Value.ask .meet demand ⟨l, frame.presence l, evaluateField fuel frame outer trail l⟩
      let own := Value.checkedRecord fields demand [] (frame.declarations.any (·.isOpen))
      (frame.declarations.filterMap fun d => match d with
        | .embed e => some e
        | _ => none).foldl (fun v e => v.embed (evaluate fuel frames trail e)) own

end

end Expr

/-- The value of a text: none if the text is no configuration or its parts conflict. A chain of
    evaluations visits no field twice, and a text has no more fields and no deeper expressions
    than bytes. -/
def compile? (source : Bytes) : Option Value := do
  let e ← Expr.read? source
  let size := source.length + 2
  let v := e.evaluate (4 * (size * size)) [] .start
  if v.isConflict || v.isUnresolved then none else some v

end AsmAssist.Config
