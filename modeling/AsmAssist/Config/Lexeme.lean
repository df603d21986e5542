import AsmAssist.Config.Scalar
import AsmAssist.Text.Category

/- Lexemes of a configuration text. A line end after a lexeme that can end a declaration
   separates as a comma does. -/

namespace AsmAssist.Config

/-- Marks with a meaning of their own. A line end is a mark where it separates. -/
inductive Mark where
  | comma
  | lineEnd
  | colon
  | question
  | bang
  | dot
  | ellipsis
  | leftBrace
  | rightBrace
  | leftBracket
  | rightBracket
  | leftParen
  | rightParen
  | ampersand
  | bar
  | star
  | plus
  | minus
  | comparison (c : Comparison)
  | bottom
deriving DecidableEq, Repr

inductive Lexeme where
  | mark (m : Mark)
  | word (name : List Char)
  | number (n : Number)
  | text (s : Bytes) (lines : Bool)
  | bytes (s : Bytes)
deriving DecidableEq, Repr

namespace Lexeme

/-- A lexeme after which a line end separates declarations. -/
def endsLine : Lexeme → Bool
  | mark m => [.rightBrace, .rightBracket, .rightParen, .ellipsis, .question, .bottom].contains m
  | _ => true

def isLetter (c : Char) : Bool := c == '_' || c == '$' || Category.isLetter c.toNat

def isWordPart (c : Char) : Bool := isLetter c || Category.isDecimalDigit c.toNat

/-- A name with an optional hash sign, which an underscore may precede. -/
def word? (cs : List Char) : Option (Lexeme × List Char) :=
  let lead := match cs with
    | '#' :: _ => 1
    | '_' :: '#' :: _ => 2
    | _ => 0
  match cs.drop lead with
  | c :: rest =>
      if isLetter c then
        let tail := rest.takeWhile isWordPart
        some (word (cs.take lead ++ c :: tail), rest.drop tail.length)
      else none
  | [] => none

/- Numbers. -/

def digitValue (c : Char) : Nat := ((Ascii.digitValue? c.toUInt8).getD 99)

def isDigitOf (base : Nat) (c : Char) : Bool := c.toNat < 0x80 && digitValue c < base

/-- Separators stand singly and between digits or before the first. -/
def isSpaced : List Char → Bool
  | [] => true
  | ['_'] => false
  | '_' :: '_' :: _ => false
  | _ :: rest => isSpaced rest

/-- The digits of a base at the start of a text, without their separators. -/
def digits? (base : Nat) (cs : List Char) : Option (List Char × List Char) :=
  let run := cs.takeWhile fun c => isDigitOf base c || c == '_'
  if isSpaced run then some (run.filter (· != '_'), cs.drop run.length) else none

def ofDigits (base : Nat) (ds : List Char) : Nat :=
  ds.foldl (fun n c => n * base + digitValue c) 0

/-- An integer in another base, after its two-character mark. -/
def based? (base : Nat) (cs : List Char) : Option (Lexeme × List Char) :=
  match digits? base cs with
  | some (d :: ds, rest) => some (number (.ofInt (ofDigits base (d :: ds))), rest)
  | _ => none

/-- Exponents stay within bounds in which values can be written out. -/
def exponentLimit : Nat := 100000

def exponent? (cs : List Char) : Option (Int × List Char) :=
  let (negative, body) := match cs with
    | '-' :: rest => (true, rest)
    | '+' :: rest => (false, rest)
    | _ => (false, cs)
  match digits? 10 body with
  | some (d :: ds, rest) =>
      let n := ofDigits 10 (d :: ds)
      if n ≤ exponentLimit then some (if negative then -n else n, rest) else none
  | _ => none

/-- The places after a point; two points are no point. -/
def places? (cs : List Char) : Option (Option (List Char) × List Char) :=
  match cs with
  | '.' :: '.' :: _ => some (none, cs)
  | '.' :: rest => (digits? 10 rest).map fun (ds, rest') => (some ds, rest')
  | _ => some (none, cs)

def isExponentMark (c : Char) : Bool := c == 'e' || c == 'E'

/-- A decimal number: an integer has no leading zero, no places and no exponent. -/
def decimal? (cs : List Char) : Option (Lexeme × List Char) := do
  let (whole, rest) ← digits? 10 cs
  let (places, rest) ← places? rest
  let (exponent, rest) ← match rest with
    | c :: after =>
        if isExponentMark c then (exponent? after).map fun (e, r) => (some e, r)
        else some (none, rest)
    | [] => some (none, rest)
  match places, exponent with
  | none, none =>
      if whole.length > 1 && whole.head? == some '0' then none
      else some (number (.ofInt (ofDigits 10 whole)), rest)
  | _, _ =>
      let ds := places.getD []
      some (number ⟨ofDigits 10 (whole ++ ds), exponent.getD 0 - ds.length, true⟩, rest)

def number? (cs : List Char) : Option (Lexeme × List Char) :=
  match cs with
  | '0' :: 'x' :: rest | '0' :: 'X' :: rest => based? 16 rest
  | '0' :: 'b' :: rest => based? 2 rest
  | '0' :: 'o' :: rest => based? 8 rest
  | _ => decimal? cs

/- Quoted texts. -/

def letterEscape? (quote c : Char) : Option Char :=
  match c with
  | 'a' => some '\x07'
  | 'b' => some '\x08'
  | 'f' => some '\x0c'
  | 'n' => some '\n'
  | 'r' => some '\r'
  | 't' => some '\t'
  | 'v' => some '\x0b'
  | '/' => some '/'
  | '\\' => some '\\'
  | _ => if c == quote then some c else none

def code? (base width : Nat) (cs : List Char) : Option (Nat × List Char) :=
  let ds := cs.take width
  if ds.length == width && ds.all (isDigitOf base) then some (ofDigits base ds, cs.drop width)
  else none

/-- The character of a code; surrogates and codes beyond the last character are none. -/
def character? (n : Nat) : Option Bytes :=
  if n.isValidChar then some (Rune.encode (Char.ofNat n)) else none

def byte? (n : Nat) : Option Bytes := if n < 256 then some [UInt8.ofNat n] else none

/-- The bytes of an escape, from the character after the backslash. Single bytes by number exist
    in byte strings only. -/
def escape? (quote : Char) (cs : List Char) : Option (Bytes × List Char) :=
  match cs with
  | [] => none
  | 'u' :: rest => do
      let (n, rest) ← code? 16 4 rest
      some (← character? n, rest)
  | 'U' :: rest => do
      let (n, rest) ← code? 16 8 rest
      some (← character? n, rest)
  | c :: rest =>
      match letterEscape? quote c with
      | some d => some (Rune.encode d, rest)
      | none =>
          if quote != '\'' then none
          else if c == 'x' then do
            let (n, rest) ← code? 16 2 rest
            some (← byte? n, rest)
          else do
            let (n, rest) ← code? 8 3 (c :: rest)
            some (← byte? n, rest)

/-- Replaces the escapes of a text. Every step takes a character, so the fuel is its length. -/
def unescape? (quote : Char) : Nat → List Char → Option Bytes
  | _, [] => some []
  | 0, _ :: _ => none
  | fuel + 1, '\\' :: rest => do
      let (bs, rest) ← escape? quote rest
      some (bs ++ (← unescape? quote fuel rest))
  | fuel + 1, c :: rest => do some (Rune.encode c ++ (← unescape? quote fuel rest))

/-- The raw text before the closing mark and the text after it. A backslash takes the character
    after it along. -/
def enclosed? (closing : List Char) : List Char → Option (List Char × List Char)
  | [] => none
  | '\\' :: c :: rest =>
      (enclosed? closing rest).map fun (body, after) => ('\\' :: c :: body, after)
  | c :: rest =>
      if closing.isPrefixOf (c :: rest) then some ([], (c :: rest).drop closing.length)
      else (enclosed? closing rest).map fun (body, after) => (c :: body, after)

def shortText? (quote : Char) (cs : List Char) : Option (Bytes × List Char) := do
  let (body, rest) ← enclosed? [quote] cs
  if body.contains '\n' then none
  else some (← unescape? quote body.length body, rest)

def dropReturn (line : List Char) : List Char :=
  if line.getLast? == some '\r' then line.dropLast else line

/-- A line without the indentation; only an empty line may lack it. -/
def unindent? (indent line : List Char) : Option (List Char) :=
  if line.isEmpty then some []
  else if indent.isPrefixOf line then some (line.drop indent.length)
  else none

/-- A text on several lines, from after its opening quotes: the first line holds nothing, the
    blanks before the closing quotes are the indentation of every line, and the last line end
    belongs to the quotes. -/
def longText? (quote : Char) (cs : List Char) : Option (Bytes × List Char) := do
  let (body, rest) ← enclosed? [quote, quote, quote] cs
  match (Sequence.splitOn '\n' body).map dropReturn with
  | [] :: line :: lines =>
      let all := line :: lines
      let indent := all.getLast?.getD []
      if !indent.all (fun c => c == ' ' || c == '\t') then none
      else
        let texts ← all.dropLast.mapM (unindent? indent)
        let joined := List.intercalate ['\n'] texts
        some (← unescape? quote joined.length joined, rest)
  | _ => none

def quoted? (cs : List Char) : Option (Lexeme × List Char) :=
  match cs with
  | '"' :: '"' :: '"' :: rest => (longText? '"' rest).map fun (s, r) => (text s true, r)
  | '"' :: rest => (shortText? '"' rest).map fun (s, r) => (text s false, r)
  | '\'' :: '\'' :: '\'' :: rest => (longText? '\'' rest).map fun (s, r) => (bytes s, r)
  | '\'' :: rest => (shortText? '\'' rest).map fun (s, r) => (bytes s, r)
  | _ => none

/- Marks. -/

/-- Spellings of marks; a spelling stands before its own beginnings. -/
def marks : List (List Char × Mark) :=
  [("...".toList, .ellipsis), ("_|_".toList, .bottom), ("<=".toList, .comparison .atMost),
    (">=".toList, .comparison .atLeast), ("!=".toList, .comparison .notEqual),
    ("<".toList, .comparison .less), (">".toList, .comparison .greater), ([','], .comma),
    ([':'], .colon), (['?'], .question), (['!'], .bang), (['.'], .dot),
    (['\x7b'], .leftBrace), (['\x7d'], .rightBrace), (['['], .leftBracket),
    ([']'], .rightBracket), (['('], .leftParen), ([')'], .rightParen), (['&'], .ampersand),
    (['|'], .bar), (['*'], .star), (['+'], .plus), (['-'], .minus)]

def mark? (cs : List Char) : Option (Lexeme × List Char) :=
  (marks.find? fun (spelling, _) => spelling.isPrefixOf cs).map fun (spelling, m) =>
    (mark m, cs.drop spelling.length)

/-- The bottom mark looks like a word at first. -/
def startsBottom (cs : List Char) : Bool := "_|_".toList.isPrefixOf cs

/-- A number may start with its point. -/
def startsNumber : List Char → Bool
  | '.' :: c :: _ => isDigitOf 10 c
  | c :: _ => isDigitOf 10 c
  | [] => false

/-- The lexeme at the start of a text that does not start with a blank. -/
def first? (cs : List Char) : Option (Lexeme × List Char) :=
  if startsNumber cs then number? cs
  else if startsBottom cs then mark? cs
  else match word? cs with
    | some found => some found
    | none =>
        match quoted? cs with
        | some found => some found
        | none =>
            match cs with
            | '"' :: _ | '\'' :: _ => none
            | _ => mark? cs

/-- Reads lexemes; `pending` says that a line end would separate. Every step takes a character,
    so the fuel is the length of the text and one more. -/
def readFrom : Nat → Bool → List Char → Option (List Lexeme)
  | 0, _, _ => none
  | _ + 1, pending, [] => some (if pending then [mark .lineEnd] else [])
  | fuel + 1, pending, '\n' :: rest => do
      let after ← readFrom fuel false rest
      some (if pending then mark .lineEnd :: after else after)
  | fuel + 1, pending, '/' :: '/' :: rest =>
      readFrom fuel pending (rest.dropWhile (· != '\n'))
  | fuel + 1, pending, c :: rest =>
      if c == ' ' || c == '\t' || c == '\r' then readFrom fuel pending rest
      else do
        let (x, rest) ← first? (c :: rest)
        some (x :: (← readFrom fuel x.endsLine rest))

/-- The characters of a text that may stand in a configuration: all of it is characters, a byte
    order mark stands at its start only and NUL nowhere. -/
def characters? (source : Bytes) : Option (List Char) :=
  let cs := match source.runes with
    | '\uFEFF' :: rest => rest
    | cs => cs
  if source.isUtf8 && !cs.contains '\x00' && !cs.contains '\uFEFF' then some cs else none

/-- The lexemes of a text; none if some of it is no lexeme. -/
def read? (source : Bytes) : Option (List Lexeme) := do
  let cs ← characters? source
  readFrom (cs.length + 1) false cs

end Lexeme

end AsmAssist.Config
