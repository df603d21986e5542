import AsmAssist.Text.Category
import AsmAssist.Text.Rune

/- Quoted text for messages: printable characters as they are, the rest escaped, so that the
   quoted form of every byte string is valid text on one line. -/

namespace AsmAssist.Quoted

def hexDigit (n : Nat) : Char := if n < 10 then Char.ofNat (48 + n) else Char.ofNat (87 + n)

/-- Lower-case hexadecimal digits, as many as asked for. -/
def hex (width n : Nat) : List Char :=
  ((List.range width).map fun i => hexDigit (n / Nat.pow 16 i % 16)).reverse

def shortEscape? (c : Char) : Option Char :=
  match c.toNat with
  | 7 => some 'a'
  | 8 => some 'b'
  | 9 => some 't'
  | 10 => some 'n'
  | 11 => some 'v'
  | 12 => some 'f'
  | 13 => some 'r'
  | _ => none

def escape (quote c : Char) : List Char :=
  if c == quote || c == '\\' then ['\\', c]
  else if Category.isPrintable c then [c]
  else
    match shortEscape? c with
    | some e => ['\\', e]
    | none =>
        if c.toNat < 0x80 then '\\' :: 'x' :: hex 2 c.toNat
        else if c.toNat < 0x10000 then '\\' :: 'u' :: hex 4 c.toNat
        else '\\' :: 'U' :: hex 8 c.toNat

/-- A stray byte is written by its value. -/
def escapeGlyph (g : Glyph) : List Char :=
  if g.isStray then '\\' :: 'x' :: hex 2 ((g.bytes.head?.map (·.toNat)).getD 0)
  else escape '"' g.rune

def text (s : Bytes) : Bytes :=
  Bytes.ofRunes ('"' :: s.glyphs.flatMap escapeGlyph ++ ['"'])

def char (c : Char) : Bytes := Bytes.ofRunes ('\'' :: escape '\'' c ++ ['\''])

end AsmAssist.Quoted
