import AsmAssist.Text.Case
import AsmAssist.Text.Script

/- Character classes of patterns: sets of code points given by runs, by name or by exclusion.
   Under case folding a set grows by the case variants of its members before it is negated. -/

namespace AsmAssist.Pattern

/-- A member of a class: a set of runs, or all but it. -/
structure ClassItem where
  runs : List Run
  negated : Bool
deriving Repr

structure CharClass where
  items : List ClassItem
  folds : Bool
  negated : Bool
deriving Repr

namespace ClassItem

def single (lo hi : Nat) : ClassItem := ⟨[⟨lo, hi, 1⟩], false⟩

def negateIf (item : ClassItem) (flip : Bool) : ClassItem :=
  { item with negated := item.negated != flip }

def accepts (folds : Bool) (item : ClassItem) (n : Nat) : Bool :=
  let members := if folds then Case.variants n else [n]
  (members.any fun m => item.runs.any (·.holds m)) != item.negated

end ClassItem

def CharClass.accepts (c : CharClass) (n : Nat) : Bool :=
  (c.items.any fun item => item.accepts c.folds n) != c.negated

namespace CharClass

def range (lo hi : Char) : Run := ⟨lo.toNat, hi.toNat, 1⟩

def digits : List Run := [range '0' '9']

def words : List Run := [range '0' '9', range 'A' 'Z', range '_' '_', range 'a' 'z']

/-- The sets of the escapes with a letter; the capital letter excludes the set. -/
def escaped? (letter : Char) : Option ClassItem :=
  match letter with
  | 'd' => some ⟨digits, false⟩
  | 'D' => some ⟨digits, true⟩
  | 's' => some ⟨[range '\t' '\n', range '\x0c' '\r', range ' ' ' '], false⟩
  | 'S' => some ⟨[range '\t' '\n', range '\x0c' '\r', range ' ' ' '], true⟩
  | 'w' => some ⟨words, false⟩
  | 'W' => some ⟨words, true⟩
  | _ => none

def letters : List Run := [range 'A' 'Z', range 'a' 'z']

/-- The sets of bracketed names such as `[:alpha:]`. -/
def bracketed : List (String × List Run) :=
  [("alnum", digits ++ letters),
    ("alpha", letters),
    ("ascii", [⟨0, 0x7F, 1⟩]),
    ("blank", [range '\t' '\t', range ' ' ' ']),
    ("cntrl", [⟨0, 0x1F, 1⟩, ⟨0x7F, 0x7F, 1⟩]),
    ("digit", digits),
    ("graph", [range '!' '~']),
    ("lower", [range 'a' 'z']),
    ("print", [range ' ' '~']),
    ("punct", [range '!' '/', range ':' '@', ⟨0x5B, 0x60, 1⟩, ⟨0x7B, 0x7E, 1⟩]),
    ("space", [range '\t' '\r', range ' ' ' ']),
    ("upper", [range 'A' 'Z']),
    ("word", words),
    ("xdigit", [range '0' '9', range 'A' 'F', range 'a' 'f'])]

def bracketed? (name : List Char) : Option ClassItem :=
  let (negated, plain) :=
    match name with
    | '^' :: rest => (true, rest)
    | _ => (false, name)
  (bracketed.find? fun (n, _) => n.toList == plain).map fun (_, runs) => ⟨runs, negated⟩

/-- Long names of the general categories and their groups. -/
def longNames : List (String × String) :=
  [("other", "C"), ("control", "Cc"), ("cntrl", "Cc"), ("format", "Cf"), ("unassigned", "Cn"),
    ("privateuse", "Co"), ("surrogate", "Cs"), ("letter", "L"), ("casedletter", "LC"),
    ("lowercaseletter", "Ll"), ("modifierletter", "Lm"), ("otherletter", "Lo"),
    ("titlecaseletter", "Lt"), ("uppercaseletter", "Lu"), ("mark", "M"), ("combiningmark", "M"),
    ("spacingmark", "Mc"), ("enclosingmark", "Me"), ("nonspacingmark", "Mn"), ("number", "N"),
    ("decimalnumber", "Nd"), ("digit", "Nd"), ("letternumber", "Nl"), ("othernumber", "No"),
    ("punctuation", "P"), ("punct", "P"), ("connectorpunctuation", "Pc"),
    ("dashpunctuation", "Pd"), ("closepunctuation", "Pe"), ("finalpunctuation", "Pf"),
    ("initialpunctuation", "Pi"), ("otherpunctuation", "Po"), ("openpunctuation", "Ps"),
    ("symbol", "S"), ("currencysymbol", "Sc"), ("modifiersymbol", "Sk"), ("mathsymbol", "Sm"),
    ("othersymbol", "So"), ("separator", "Z"), ("lineseparator", "Zl"),
    ("paragraphseparator", "Zp"), ("spaceseparator", "Zs")]

/-- Names are compared without case, blanks, underscores and hyphens. -/
def canonical (name : List Char) : List Char :=
  (name.filter fun c => c != ' ' && c != '_' && c != '-').map Char.toLower

/-- The runs of all categories whose code starts with `start`. -/
def categoryRuns (start : List Char) : List Run :=
  (Category.runs.filter fun (c, _) => start.isPrefixOf (canonical c.code.toList)).flatMap (·.2)

/-- A category, a group of categories or a script by its name. -/
def property? (name : List Char) : Option ClassItem :=
  let plain := canonical name
  let code := match longNames.find? fun (n, _) => n.toList == plain with
    | some (_, short) => canonical short.toList
    | none => plain
  if code == "any".toList then some ⟨[⟨0, 0x10FFFF, 1⟩], false⟩
  else if code == "assigned".toList then some ⟨categoryRuns [], false⟩
  else if code == "ascii".toList then some ⟨[⟨0, 0x7F, 1⟩], false⟩
  else if code == "cn".toList then some ⟨categoryRuns [], true⟩
  else if code == "c".toList then
    some ⟨['l', 'm', 'n', 'p', 's', 'z'].flatMap fun c => categoryRuns [c], true⟩
  else if code == "lc".toList then
    some ⟨[['l', 'u'], ['l', 'l'], ['l', 't']].flatMap categoryRuns, false⟩
  else if ['l', 'm', 'n', 'p', 's', 'z'].any (code == [·]) then some ⟨categoryRuns code, false⟩
  else if Category.runs.any (fun (c, _) => canonical c.code.toList == code) then
    some ⟨categoryRuns code, false⟩
  else
    (Script.table.find? fun (n, _) => canonical n.toList == plain).map fun (_, runs) =>
      ⟨Run.readAll runs, false⟩

end CharClass

end AsmAssist.Pattern
