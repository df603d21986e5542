import AsmAssist.Journal.Level
import AsmAssist.Text.Blank

/- Log lines: `level=L msg=M key=value ...`, with quotes around texts that would not stand as one
   word. -/

namespace AsmAssist.Journal

inductive Value where
  | text (text : Bytes)
  | integer (n : Int)
  | boolean (b : Bool)
  | nothing
  | texts (items : List Bytes)
deriving DecidableEq, Repr

structure Attribute where
  key : Bytes
  value : Value
deriving DecidableEq, Repr

/-- A backslash and the delete character need no quotes. -/
def asciiNeedsQuotes (c : Char) : Bool :=
  c.toNat < 0x20 || c == ' ' || c == '=' || c == '"'

def glyphNeedsQuotes (g : Glyph) : Bool :=
  if g.rune.toNat < 0x80 then asciiNeedsQuotes g.rune
  else g.rune == Rune.replacement || Blank.isSpace g.rune || !Category.isPrintable g.rune

def needsQuotes (s : Bytes) : Bool := s.isEmpty || s.glyphs.any glyphNeedsQuotes

def word (s : Bytes) : Bytes := if needsQuotes s then Quoted.text s else s

/-- A key behind the names of its groups. The two parts are judged apart, so an empty key is
    quoted in a group too. -/
def qualifiedKey (groups : List Bytes) (key : Bytes) : Bytes :=
  let lead := groups.flatMap fun group => group ++ Bytes.ofString "."
  if lead.isEmpty then word key
  else if needsQuotes lead || needsQuotes key then Quoted.text (lead ++ key)
  else lead ++ key

def Value.render : Value → Bytes
  | .text s => word s
  | .integer n => Decimal.ofInt n
  | .boolean b => .ofString (if b then "true" else "false")
  | .nothing => word (.ofString "<nil>")
  | .texts items => word (.ofString "[" ++ Bytes.join [0x20] items ++ .ofString "]")

/-- An attribute without key and value is none. -/
def Attribute.isBlank (a : Attribute) : Bool := a.key.isEmpty && a.value == .nothing

/-- Attributes as they follow the message, each after a blank. -/
def renderAttributes (groups : List Bytes) (attributes : List Attribute) : Bytes :=
  (attributes.filter fun a => !a.isBlank).flatMap fun a =>
    Bytes.ofString " " ++ qualifiedKey groups a.key ++ Bytes.ofString "=" ++ a.value.render

def renderHead (level : Level) (message : Bytes) : Bytes :=
  .ofString "level=" ++ level.name ++ .ofString " msg=" ++ word message

/-- A name as a field of the system journal: upper-case letters and digits, an underscore for
    every other character. -/
def fieldName (s : Bytes) : Bytes :=
  s.toUpper.runes.map fun c =>
    if ('A' ≤ c && c ≤ 'Z') || ('0' ≤ c && c ≤ '9') then c.toUInt8 else '_'.toUInt8

end AsmAssist.Journal
