import AsmAssist.Pattern.Tree

/- Reading of patterns. The reader goes from left to right with a stack of open groups and stops
   at the first fault; only a missing parenthesis is noticed at the end. A text is compiled if it is
   UTF-8, can be read and is within the limits of the matcher. -/

namespace AsmAssist.Pattern

inductive Fault where
  | badClassRange
  | badEscape
  | badGroupName
  | badGroupFlag
  | nestedRepetition
  | badCount
  | missingBracket
  | missingParen
  | missingRepetitionArgument
  | trailingBackslash
  | unexpectedParen
deriving DecidableEq, Repr

def Fault.message : Fault → String
  | .badClassRange => "invalid character class range"
  | .badEscape => "invalid escape sequence"
  | .badGroupName => "invalid named capture"
  | .badGroupFlag => "invalid or unsupported Perl syntax"
  | .nestedRepetition => "invalid nested repetition operator"
  | .badCount => "invalid repeat count"
  | .missingBracket => "missing closing ]"
  | .missingParen => "missing closing )"
  | .missingRepetitionArgument => "missing argument to repetition operator"
  | .trailingBackslash => "trailing backslash at end of expression"
  | .unexpectedParen => "unexpected )"

structure ReadError where
  fault : Fault
  text : List Char
deriving DecidableEq, Repr

namespace Reader

abbrev Text := List Char

abbrev Result (α : Type) := Except ReadError α

/-- The text from one place up to a later one, both given by what follows them. -/
def upTo (here later : Text) : Text := here.take (here.length - later.length)

/-- Settings that hold for the rest of a group. -/
structure Flags where
  folds : Bool
  multiline : Bool
  dotAll : Bool
  swapGreed : Bool
deriving DecidableEq, Repr

def Flags.initial : Flags := ⟨false, false, false, false⟩

/-- An open group: how it closes, its finished alternatives and the items of the current one,
    both with the last first. -/
structure Level where
  captures : Bool
  outer : Flags
  alternatives : List Pattern
  items : List Pattern

def Level.opened (captures : Bool) (outer : Flags) : Level := ⟨captures, outer, [], []⟩

def Level.push (level : Level) (p : Pattern) : Level := { level with items := p :: level.items }

def Level.finishAlternative (level : Level) : Level :=
  { level with
    alternatives := sequence level.items.reverse :: level.alternatives
    items := [] }

def Level.body (level : Level) : Pattern := choice level.finishAlternative.alternatives.reverse

/-- The innermost open group, the groups around it and the settings in force. -/
structure State where
  flags : Flags
  level : Level
  enclosing : List Level

def State.initial : State := ⟨.initial, .opened false .initial, []⟩

def State.push (s : State) (p : Pattern) : State := { s with level := s.level.push p }

def State.literal (s : State) (code : Nat) : State := s.push (.text [code] s.flags.folds)

def isOctal (c : Char) : Bool := '0' ≤ c && c ≤ '7'

def hexValue? (c : Char) : Option Nat :=
  if c.isDigit then some (c.toNat - 48)
  else if 'a' ≤ c && c ≤ 'f' then some (c.toNat - 87)
  else if 'A' ≤ c && c ≤ 'F' then some (c.toNat - 55)
  else none

/-- Hexadecimal digits up to a closing brace. A fault reports the text after the character at
    which it was noticed. -/
def bracedHex : Nat → Nat → Text → Except Text (Nat × Text)
  | _, _, [] => .error []
  | n, seen, c :: rest =>
      if c == '\x7d' then
        if seen = 0 then .error rest else .ok (n, rest)
      else
        match hexValue? c with
        | none => .error rest
        | some d =>
            if 0x10FFFF < n * 16 + d then .error rest else bracedHex (n * 16 + d) (seen + 1) rest

/-- The code point of an escape, which starts with a backslash. -/
def escape (here : Text) : Result (Nat × Text) :=
  match here.tail with
  | [] => .error ⟨.trailingBackslash, []⟩
  | c :: rest =>
      let bad (later : Text) : Result (Nat × Text) := .error ⟨.badEscape, upTo here later⟩
      let octal : Result (Nat × Text) :=
        let more := (rest.take 2).takeWhile isOctal
        .ok (more.foldl (fun n d => n * 8 + (d.toNat - 48)) (c.toNat - 48), rest.drop more.length)
      if c == '0' then octal
      else if isOctal c then
        if (rest.head?.map isOctal).getD false then octal else bad rest
      else if c == 'x' then
        match rest with
        | [] => bad rest
        | '\x7b' :: digits =>
            match bracedHex 0 0 digits with
            | .ok found => .ok found
            | .error later => bad later
        | [_] => bad []
        | a :: b :: later =>
            match hexValue? a, hexValue? b with
            | some x, some y => .ok (x * 16 + y, later)
            | _, _ => bad later
      else if c == 'a' then .ok (7, rest)
      else if c == 'f' then .ok (12, rest)
      else if c == 'n' then .ok (10, rest)
      else if c == 'r' then .ok (13, rest)
      else if c == 't' then .ok (9, rest)
      else if c == 'v' then .ok (11, rest)
      else if c.toNat < 0x80 && !c.isAlphanum then .ok (c.toNat, rest)
      else bad rest

/-- Text before the first occurrence of a character, and the text after it. -/
def cutAt (stop : Char) : Text → Option (Text × Text)
  | [] => none
  | c :: rest =>
      if c == stop then some ([], rest)
      else (cutAt stop rest).map fun (inside, later) => (c :: inside, later)

/-- Text before the first occurrence of two characters in a row, and the text after them. -/
def cutAtPair (a b : Char) : Text → Option (Text × Text)
  | [] => none
  | c :: rest =>
      match c == a, rest with
      | true, d :: later =>
          if d == b then some ([], later)
          else (cutAtPair a b rest).map fun (inside, after) => (c :: inside, after)
      | _, _ => (cutAtPair a b rest).map fun (inside, after) => (c :: inside, after)

/-- A named set after a backslash and `p` or `P`. -/
def propertyClass (here : Text) (negated : Bool) (name : Text) : Result (ClassItem × Text) :=
  let (whole, plain, later) :=
    match name with
    | '\x7b' :: inner =>
        match cutAt '\x7d' inner with
        | some (plain, later) => (upTo here later, plain, later)
        | none => (here, ['\x7b'], [])
    | c :: later => (upTo here later, [c], later)
    | [] => (here, [], [])
  let (flip, plain) :=
    match plain with
    | '^' :: rest => (!negated, rest)
    | _ => (negated, plain)
  match CharClass.property? plain with
  | some item => .ok (item.negateIf flip, later)
  | none => .error ⟨.badClassRange, whole⟩

/-- A set given by an escape, if the text starts with one. -/
def escapedSet? (here : Text) : Option (Result (ClassItem × Text)) :=
  match here with
  | '\\' :: 'p' :: name => some (propertyClass here false name)
  | '\\' :: 'P' :: name => some (propertyClass here true name)
  | '\\' :: c :: later => (CharClass.escaped? c).map fun item => .ok (item, later)
  | _ => none

/-- A bracketed name inside a class, if the text starts with one. -/
def bracketedName? (here : Text) : Option (Result (ClassItem × Text)) :=
  match here with
  | '[' :: ':' :: inner =>
      (cutAtPair ':' ']' inner).map fun (name, later) =>
        match CharClass.bracketed? name with
        | some item => .ok (item, later)
        | none => .error ⟨.badClassRange, upTo here later⟩
  | _ => none

def classChar (whole here : Text) : Result (Nat × Text) :=
  match here with
  | [] => .error ⟨.missingBracket, whole⟩
  | '\\' :: _ => escape here
  | c :: rest => .ok (c.toNat, rest)

def classRange (whole here : Text) : Result (ClassItem × Text) := do
  let (lo, rest) ← classChar whole here
  match rest with
  | '-' :: c :: more =>
      if c == ']' then .ok (.single lo lo, rest)
      else
        let (hi, later) ← classChar whole (c :: more)
        if hi < lo then .error ⟨.badClassRange, upTo here later⟩
        else .ok (.single lo hi, later)
  | _ => .ok (.single lo lo, rest)

def classItem (whole here : Text) : Result (ClassItem × Text) :=
  match bracketedName? here with
  | some result => result
  | none =>
      match escapedSet? here with
      | some result => result
      | none => classRange whole here

/-- Members up to the closing bracket, which may stand first as a member itself. -/
def classItems (whole : Text) : Nat → Bool → List ClassItem → Text →
    Result (List ClassItem × Text)
  | 0, _, _, _ => .error ⟨.missingBracket, whole⟩
  | fuel + 1, isFirst, items, here =>
      match isFirst, here with
      | false, ']' :: rest => .ok (items.reverse, rest)
      | _, _ => do
          let (item, rest) ← classItem whole here
          classItems whole fuel false (item :: items) rest

def charClass (folds : Bool) (here : Text) : Result (CharClass × Text) := do
  let (negated, inner) :=
    match here.tail with
    | '^' :: rest => (true, rest)
    | rest => (false, rest)
  let (items, rest) ← classItems here (inner.length + 1) true [] inner
  .ok (⟨items, folds, negated⟩, rest)

/-- Digits of a count, without leading zeros. A count of ten digits or more is no number. -/
def count? (here : Text) : Option (Option Nat × Text) :=
  let digits := here.takeWhile Char.isDigit
  match digits with
  | [] => none
  | '0' :: _ :: _ => none
  | _ =>
      let value := if digits.length ≤ 9 then
          some (digits.foldl (fun n d => n * 10 + (d.toNat - 48)) 0) else none
      some (value, here.drop digits.length)

structure Bounds where
  least : Option Nat
  most : Option (Option Nat)

/-- Bounds in braces; a brace that opens none stands for itself. -/
def bounds? (here : Text) : Option (Bounds × Text) := do
  let (least, rest) ← count? here.tail
  match rest with
  | ',' :: '\x7d' :: later => some (⟨least, none⟩, later)
  | ',' :: more =>
      let (most, rest) ← count? more
      match rest with
      | '\x7d' :: later => some (⟨least, some most⟩, later)
      | _ => none
  | '\x7d' :: later => some (⟨least, some least⟩, later)
  | _ => none

def countLimit : Nat := 1000

/-- Bounds with counts up to the limit, the least not above the most. -/
def Bounds.check? (b : Bounds) : Option (Nat × Option Nat) :=
  match b.least, b.most with
  | some least, none => if least ≤ countLimit then some (least, none) else none
  | some least, some (some most) =>
      if least ≤ countLimit && most ≤ countLimit && least ≤ most then some (least, some most)
      else none
  | _, _ => none

/-- Applies a repetition to the last item. `here` is the text from its operator, `after` the text
    behind it, `last` the text from the operator directly before it, if there was one. -/
def repeatLast (s : State) (wrap : Pattern → Pattern) (here after : Text) (last : Option Text) :
    Result (State × Text) :=
  let later :=
    match after with
    | '?' :: rest => rest
    | _ => after
  match last with
  | some operator => .error ⟨.nestedRepetition, upTo operator later⟩
  | none =>
      match s.level.items with
      | [] => .error ⟨.missingRepetitionArgument, upTo here later⟩
      | p :: items =>
          let body := wrap p
          let counted := match body with
            | .repeated _ least most => 2 ≤ least || 2 ≤ most.getD 0
            | _ => false
          if counted && !body.countsWithin countLimit then .error ⟨.badCount, upTo here later⟩
          else .ok ({ s with level := { s.level with items := body :: items } }, later)

def isNameChar (c : Char) : Bool := c == '_' || c.isAlphanum

/-- The name of a group that keeps what it matches. -/
def groupName (here inner : Text) : Result Text :=
  match cutAt '>' inner with
  | none => .error ⟨.badGroupName, here⟩
  | some (name, later) =>
      if !name.isEmpty && name.all isNameChar then .ok later
      else .error ⟨.badGroupName, upTo here later⟩

/-- How a group without a name starts: the settings after it, whether it opens a level and the
    text behind it. -/
structure GroupStart where
  flags : Flags
  opens : Bool
  later : Text

/-- Flag letters up to a colon or a parenthesis. After a minus sign letters clear their flags,
    and there has to be one. -/
def groupFlags (here : Text) : Flags → Bool → Bool → Text → Result GroupStart
  | _, _, _, [] => .error ⟨.badGroupFlag, here⟩
  | flags, clears, sawFlag, c :: rest =>
      let bad : Result GroupStart := .error ⟨.badGroupFlag, upTo here rest⟩
      match c with
      | 'i' => groupFlags here { flags with folds := !clears } clears true rest
      | 'm' => groupFlags here { flags with multiline := !clears } clears true rest
      | 's' => groupFlags here { flags with dotAll := !clears } clears true rest
      | 'U' => groupFlags here { flags with swapGreed := !clears } clears true rest
      | '-' => if clears then bad else groupFlags here flags true false rest
      | ':' => if clears && !sawFlag then bad else .ok ⟨flags, true, rest⟩
      | ')' => if clears && !sawFlag then bad else .ok ⟨flags, false, rest⟩
      | _ => bad

def State.openLevel (s : State) (captures : Bool) : State :=
  ⟨s.flags, .opened captures s.flags, s.level :: s.enclosing⟩

def openGroup (s : State) (here : Text) : Result (State × Text) :=
  match here with
  | '(' :: '?' :: 'P' :: '<' :: inner => do
      let later ← groupName here inner
      .ok (s.openLevel true, later)
  | '(' :: '?' :: '<' :: inner => do
      let later ← groupName here inner
      .ok (s.openLevel true, later)
  | '(' :: '?' :: inner => do
      let start ← groupFlags here s.flags false false inner
      let s := if start.opens then s.openLevel false else s
      .ok ({ s with flags := start.flags }, start.later)
  | _ => .ok (s.openLevel true, here.tail)

/-- Closes the innermost group and restores the settings around it. -/
def closeGroup (whole : Text) (s : State) : Result State :=
  match s.enclosing with
  | [] => .error ⟨.unexpectedParen, whole⟩
  | outer :: enclosing =>
      let body := s.level.body
      .ok ⟨s.level.outer, outer.push (if s.level.captures then .group body else body), enclosing⟩

def backslash (s : State) (here : Text) : Result (State × Text) :=
  match here with
  | '\\' :: 'A' :: rest => .ok (s.push (.assertion .textStart), rest)
  | '\\' :: 'b' :: rest => .ok (s.push (.assertion .wordEdge), rest)
  | '\\' :: 'B' :: rest => .ok (s.push (.assertion .noWordEdge), rest)
  | '\\' :: 'C' :: rest => .error ⟨.badEscape, upTo here rest⟩
  | '\\' :: 'z' :: rest => .ok (s.push (.assertion .textEnd), rest)
  | '\\' :: 'Q' :: rest =>
      let (quoted, later) := (cutAtPair '\\' 'E' rest).getD (rest, [])
      .ok (quoted.foldl (fun s c => s.literal c.toNat) s, later)
  | _ =>
      match escapedSet? here with
      | some result => do
          let (item, rest) ← result
          .ok (s.push (.oneOf ⟨[item], s.flags.folds, false⟩), rest)
      | none => do
          let (code, rest) ← escape here
          .ok (s.literal code, rest)

/-- The state after one element, the text behind it, and the text from the element if it was a
    repetition. -/
structure Step where
  state : State
  rest : Text
  repetition : Option Text

def Step.plain (result : State × Text) : Step := ⟨result.1, result.2, none⟩

def step (whole : Text) (s : State) (last : Option Text) (here : Text) : Result Step :=
  let repetition (wrap : Pattern → Pattern) (after : Text) : Result Step := do
    let (s, rest) ← repeatLast s wrap here after last
    .ok ⟨s, rest, some here⟩
  match here with
  | [] => .ok ⟨s, [], none⟩
  | c :: rest =>
      match c with
      | '(' => do .ok (.plain (← openGroup s here))
      | '|' => .ok ⟨{ s with level := s.level.finishAlternative }, rest, none⟩
      | ')' => do .ok ⟨← closeGroup whole s, rest, none⟩
      | '^' =>
          let condition := if s.flags.multiline then Assertion.lineStart else .textStart
          .ok ⟨s.push (.assertion condition), rest, none⟩
      | '$' =>
          let condition := if s.flags.multiline then Assertion.lineEnd else .textEnd
          .ok ⟨s.push (.assertion condition), rest, none⟩
      | '.' =>
          .ok ⟨s.push (if s.flags.dotAll then anyChar else anyButNewline), rest, none⟩
      | '[' => do
          let (set, later) ← charClass s.flags.folds here
          .ok ⟨s.push (.oneOf set), later, none⟩
      | '*' => repetition .star rest
      | '+' => repetition .plus rest
      | '?' => repetition .optional rest
      | '\x7b' =>
          match bounds? here with
          | none => .ok ⟨s.literal c.toNat, rest, none⟩
          | some (bounds, after) =>
              match bounds.check? with
              | none => .error ⟨.badCount, upTo here after⟩
              | some (least, most) => repetition (.repeated · least most) after
      | '\\' => do .ok (.plain (← backslash s here))
      | _ => .ok ⟨s.literal c.toNat, rest, none⟩

/-- Reads elements to the end of the text. Every element takes a character, so the length of the
    text is fuel enough. -/
def loop (whole : Text) : Nat → State → Option Text → Text → Result State
  | 0, s, _, _ => .ok s
  | _, s, _, [] => .ok s
  | fuel + 1, s, last, here => do
      let next ← step whole s last here
      loop whole fuel next.state next.repetition next.rest

end Reader

def read (text : List Char) : Except ReadError Pattern := do
  let s ← Reader.loop text text.length .initial none text
  match s.enclosing with
  | _ :: _ => .error ⟨.missingParen, text⟩
  | [] => .ok s.level.body

/-- Why a pattern that can be read is refused all the same. -/
inductive Excess where
  | tooLarge
  | tooDeep
deriving DecidableEq, Repr

def Excess.message : Excess → String
  | .tooLarge => "expression too large"
  | .tooDeep => "expression nests too deeply"

/-- How much a matcher takes is its own affair; a text over its limits has an excess. -/
structure Limits where
  excess? : List Char → Option Excess

def depthLimit : Nat := 1000

/-- The depth of the tree is bounded, and nothing else is. -/
def Limits.standard : Limits where
  excess? text :=
    match read text with
    | .ok p => if depthLimit < p.height then some .tooDeep else none
    | .error _ => none

inductive CompileError where
  | stray (rest : Bytes)
  | excess (kind : Excess) (whole : Bytes)
  | unreadable (error : ReadError)
deriving DecidableEq, Repr

namespace CompileError

def reason : CompileError → String
  | stray _ => "invalid UTF-8"
  | excess kind _ => kind.message
  | unreadable e => e.fault.message

/-- The part of the text that is at fault. -/
def quoted : CompileError → Bytes
  | stray rest => rest
  | excess _ whole => whole
  | unreadable e => .ofRunes e.text

def message (e : CompileError) : Bytes :=
  .ofString "error parsing regexp: " ++ .ofString e.reason ++ .ofString ": `" ++ e.quoted
    ++ .ofString "`"

end CompileError

def compile (limits : Limits) (text : Bytes) : Except CompileError Pattern :=
  if text.isUtf8 then
    match limits.excess? text.runes with
    | some excess => .error (.excess excess text)
    | none =>
        match read text.runes with
        | .ok p => .ok p
        | .error e => .error (.unreadable e)
  else .error (.stray text.fromStray)

end AsmAssist.Pattern
