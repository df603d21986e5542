import AsmAssist.Config.Value

/- The meet of two values admits what both admit. -/

namespace AsmAssist.Config.Value

/-- A range, narrowed where its bounds leave one scalar or none. -/
def ofRange (kinds : List Kind) (bounds : List Bound) : Value :=
  if kinds.isEmpty then conflict
  else
    let gaps := (bounds.filter (·.isLower)).flatMap fun lower =>
      (bounds.filter (·.isUpper)).map fun upper => Gap.between kinds lower upper
    if gaps.contains .empty then conflict
    else
      match gaps.findSome? fun g => match g with | .point s => some s | _ => none with
      | some s =>
          if kinds.contains s.kind && bounds.all (·.admits s) then scalar s else conflict
      | none => range kinds bounds

def ofBound (b : Bound) : Value := range b.kinds [b]

/-- An alternative of the meet is a default if it is made of defaults, where a value without any
    prefers none of its alternatives. -/
def meetsDefault (as bs : List (Marked Value)) (a b : Marked Value) : Bool :=
  let preferred (all : List (Marked Value)) (x : Marked Value) : Bool :=
    x.isDefault || !all.any (·.isDefault)
  (as.any (·.isDefault) || bs.any (·.isDefault)) && preferred as a && preferred bs b

def meetOption (meet : Value → Value → Value) : Option Value → Option Value → Option Value
  | none, b => b
  | a, none => a
  | some a, some b => some (meet a b)

/-- Items of two lists, met one by one; past its end a list goes on with its rest, if it has one. -/
def meetItems (meet : Value → Value → Value) (rest rest' : Option Value) :
    List Value → List Value → List Value
  | [], [] => []
  | a :: as, b :: bs => meet a b :: meetItems meet rest rest' as bs
  | a :: as, [] => (a :: as).map fun x => match rest' with | some r => meet x r | none => conflict
  | [], b :: bs => (b :: bs).map fun x => match rest with | some r => meet r x | none => conflict

/-- Asks the common demand of a record of one field. -/
def ask (meet : Value → Value → Value) (each : Option Value) (f : Field Value) : Field Value :=
  match each with
  | some v => if f.label.isPlain then { f with value := meet f.value v } else f
  | none => f

/-- The fields of both records, those of the first in front. -/
def meetFields (meet : Value → Value → Value) (fs gs : List (Field Value)) : List (Field Value) :=
  let common := fs.map fun f =>
    match gs.find? (·.label == f.label) with
    | some g => { f with presence := f.presence.join g.presence, value := meet f.value g.value }
    | none => f
  common ++ gs.filter fun g => !fs.any (·.label == g.label)

/-- The meet, for values whose depth the fuel covers. -/
def meetWithin : Nat → Value → Value → Value
  | 0, _, _ => conflict
  | fuel + 1, a, b =>
      match a, b with
      | conflict, _ | _, conflict => conflict
      | choice as, b =>
          let bs := b.alternatives
          ofAlternatives (as.flatMap fun x => bs.flatMap fun y =>
            ((meetWithin fuel x.value y.value).alternatives.map fun z =>
              ⟨meetsDefault as bs x y, z.value⟩))
      | a, choice bs =>
          ofAlternatives (bs.flatMap fun y =>
            ((meetWithin fuel a y.value).alternatives.map fun z => ⟨y.isDefault, z.value⟩))
      | unresolved, _ | _, unresolved => unresolved
      | scalar s, scalar t => if s.same t then scalar s else conflict
      | scalar s, range kinds bounds | range kinds bounds, scalar s =>
          if kinds.contains s.kind && bounds.all (·.admits s) then scalar s else conflict
      | range ks bs, range ks' bs' =>
          ofRange (ks.filter ks'.contains) (bs ++ bs'.filter fun b => !bs.contains b)
      | record fs each closers o, record gs each' closers' o' =>
          let meet := meetWithin fuel
          checkedRecord ((meetFields meet fs gs).map fun f => ask meet each' (ask meet each f))
            (meetOption meet each each') (closers ++ closers') (o || o')
      | record fs each closers o, range kinds _ | range kinds _, record fs each closers o =>
          if kinds.contains .record then record fs each closers o else conflict
      | list items rest, list items' rest' =>
          let meet := meetWithin fuel
          checkedList (meetItems meet rest rest' items items')
            (match rest, rest' with
              | some r, some r' => some (meet r r')
              | _, _ => none)
      | list items rest, range kinds _ | range kinds _, list items rest =>
          if kinds.contains .list then list items rest else conflict
      | _, _ => conflict

/-- The meet of two values. A step goes down in at least one of them, and a value met in passing
    is no deeper than the two it came from. -/
def meet (a b : Value) : Value := meetWithin (2 * (a.depth + b.depth) + 2) a b

end AsmAssist.Config.Value
