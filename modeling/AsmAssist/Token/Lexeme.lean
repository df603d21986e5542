import AsmAssist.Text.Blank
import AsmAssist.Token.Kind
import AsmAssist.Text.Rune

/- Lexical rules. A rule looks at the start of a text and says how many bytes its lexeme has and
   which value the token carries; the first rule of the list that matches wins. -/

namespace AsmAssist.Lexeme

/-- A lexeme at the start of a text: its length in bytes and the value of its token. -/
structure Cut where
  length : Nat
  value : Bytes
deriving DecidableEq, Repr

structure Rule where
  kind : Kind
  cut? : Bytes → Option Cut

/-- A lexeme that is its own value; an empty one is no lexeme. -/
def whole (s : Bytes) (length : Nat) : Option Cut :=
  if length = 0 then none else some ⟨length, s.take length⟩

/-- Bytes of the gap characters at the start of a text. The first `skip` bytes belong to a gap
    character already seen. -/
def gapLength : Nat → Bytes → Nat
  | _, [] => 0
  | skip + 1, _ :: rest => gapLength skip rest + 1
  | 0, b :: rest =>
      let (c, more) := Rune.lead b rest
      if Blank.isGap c then gapLength more rest + 1 else 0

def gap (s : Bytes) : Option Cut := whole s (gapLength 0 s)

/-- The first of the given spellings that starts the text. -/
def spelling (spellings : List Bytes) (s : Bytes) : Option Cut :=
  match spellings.find? (·.isPrefixOf s) with
  | some text => whole s text.length
  | none => none

def spellings (texts : List String) : Bytes → Option Cut := spelling (texts.map Bytes.ofString)

/-- Length of a quoted body up to its closing quote, the quote included. A backslash takes the
    byte after it along. -/
def closing? (quote : UInt8) : Bytes → Option Nat
  | [] => none
  | b :: rest =>
      if b == '\\'.toUInt8 then
        match rest with
        | [] => none
        | _ :: rest => (closing? quote rest).map (· + 2)
      else if b == quote then some 1
      else (closing? quote rest).map (· + 1)

/-- A literal in single or double quotes; its value is what stands between them, escapes kept. -/
def quotation (s : Bytes) : Option Cut :=
  match s with
  | [] => none
  | quote :: rest =>
      if quote == '"'.toUInt8 || quote == '\''.toUInt8 then
        (closing? quote rest).map fun n => ⟨n + 1, rest.take (n - 1)⟩
      else none

def marked (letter : Char) (isDigit : UInt8 → Bool) (s : Bytes) : Option Cut :=
  match s with
  | zero :: mark :: rest =>
      let digits := rest.takeWhile isDigit
      if zero == '0'.toUInt8 && Ascii.isLetterOf letter mark && !digits.isEmpty then
        some ⟨digits.length + 2, digits⟩
      else none
  | _ => none

/-- Digits before a closing letter, which is no digit itself. -/
def closed (letter : Char) (isDigit : UInt8 → Bool) (s : Bytes) : Option Cut :=
  let digits := s.takeWhile isDigit
  match s.drop digits.length with
  | last :: _ =>
      if Ascii.isLetterOf letter last && !digits.isEmpty then some ⟨digits.length + 1, digits⟩
      else none
  | [] => none

def hexDigit (b : UInt8) : Bool := Ascii.isHexDigit b || Ascii.isUnderscore b

def binaryDigit (b : UInt8) : Bool := Ascii.isBinaryDigit b || Ascii.isUnderscore b

def run (inClass : UInt8 → Bool) (s : Bytes) : Option Cut := whole s (s.takeWhile inClass).length

/-- `r` and one or two digits, `pc` or `lr`, in either case. -/
def registerName (s : Bytes) : Option Cut :=
  match s with
  | first :: second :: rest =>
      if Ascii.isLetterOf 'r' first && Ascii.isDigit second then
        whole s (2 + ((rest.take 1).takeWhile Ascii.isDigit).length)
      else if Ascii.isLetterOf 'p' first && Ascii.isLetterOf 'c' second then whole s 2
      else if Ascii.isLetterOf 'l' first && Ascii.isLetterOf 'r' second then whole s 2
      else none
  | _ => none

/-- The rules in the order in which they are tried. -/
def rules : List Rule :=
  [⟨.space, gap⟩,
    ⟨.shift, spellings ["shr", "shl", "ror", "shx"]⟩,
    ⟨.leftParen, spellings ["("]⟩,
    ⟨.rightParen, spellings [")"]⟩,
    ⟨.leftBracket, spellings ["["]⟩,
    ⟨.rightBracket, spellings ["]"]⟩,
    ⟨.comma, spellings [",", "<-"]⟩,
    ⟨.colon, spellings [":"]⟩,
    ⟨.wordOperator, spellings ["&", "|", "*", "^"]⟩,
    ⟨.sumOperator, spellings ["+", "-"]⟩,
    ⟨.quoted, quotation⟩,
    ⟨.hexDigits, marked 'x' hexDigit⟩,
    ⟨.hexDigits, closed 'h' hexDigit⟩,
    ⟨.binaryDigits, marked 'b' binaryDigit⟩,
    ⟨.binaryDigits, closed 'b' binaryDigit⟩,
    ⟨.decimalDigits, run Ascii.isDigit⟩,
    ⟨.register, registerName⟩,
    ⟨.word, run Ascii.isWord⟩]

def first? (s : Bytes) : Option (Kind × Cut) :=
  rules.findSome? fun rule => (rule.cut? s).map (rule.kind, ·)

end AsmAssist.Lexeme
