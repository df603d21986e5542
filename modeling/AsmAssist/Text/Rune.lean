import AsmAssist.Text.Bytes

/- Characters of a byte string. A byte that starts no valid UTF-8 sequence stands for itself and
   reads as the replacement character, so every byte string has characters and they cover it. -/

namespace AsmAssist

structure Glyph where
  rune : Char
  bytes : Bytes
deriving DecidableEq, Repr

namespace Rune

def replacement : Char := '\uFFFD'

def isTail (b : UInt8) : Bool := 0x80 ≤ b && b ≤ 0xBF

/-- Second bytes are narrowed after E0, ED, F0 and F4: no overlong forms, no surrogates,
    nothing above 10FFFF. -/
def startsThree (b b1 : UInt8) : Bool :=
  (b == 0xE0 && 0xA0 ≤ b1 && b1 ≤ 0xBF)
    || (b == 0xED && 0x80 ≤ b1 && b1 ≤ 0x9F)
    || (0xE1 ≤ b && b ≤ 0xEF && b != 0xED && isTail b1)

def startsFour (b b1 : UInt8) : Bool :=
  (b == 0xF0 && 0x90 ≤ b1 && b1 ≤ 0xBF)
    || (b == 0xF4 && 0x80 ≤ b1 && b1 ≤ 0x8F)
    || (0xF1 ≤ b && b ≤ 0xF3 && isTail b1)

def payload (b : UInt8) (size : Nat) : Nat := b.toNat % size

/-- The character that starts at `b`, and how many of the bytes after `b` belong to it. -/
def lead (b : UInt8) (rest : Bytes) : Char × Nat :=
  if b < 0x80 then (Char.ofNat b.toNat, 0)
  else
    match rest with
    | [] => (replacement, 0)
    | b1 :: rest1 =>
        if 0xC2 ≤ b && b ≤ 0xDF && isTail b1 then
          (Char.ofNat (payload b 32 * 64 + payload b1 64), 1)
        else
          match rest1 with
          | [] => (replacement, 0)
          | b2 :: rest2 =>
              if startsThree b b1 && isTail b2 then
                (Char.ofNat ((payload b 16 * 64 + payload b1 64) * 64 + payload b2 64), 2)
              else
                match rest2 with
                | [] => (replacement, 0)
                | b3 :: _ =>
                    if startsFour b b1 && isTail b2 && isTail b3 then
                      (Char.ofNat (((payload b 8 * 64 + payload b1 64) * 64
                        + payload b2 64) * 64 + payload b3 64), 3)
                    else (replacement, 0)

/-- Characters after the first `skip` bytes, which belong to a character already read. -/
def glyphsAfter : Nat → Bytes → List Glyph
  | _, [] => []
  | skip + 1, _ :: rest => glyphsAfter skip rest
  | 0, b :: rest =>
      let (c, more) := lead b rest
      ⟨c, b :: rest.take more⟩ :: glyphsAfter more rest

def encode (c : Char) : Bytes := String.utf8EncodeChar c

end Rune

/-- A byte that is no character stands alone. -/
def Glyph.isStray (g : Glyph) : Bool := g.rune == Rune.replacement && g.bytes.length == 1

namespace Bytes

def glyphs (s : Bytes) : List Glyph := Rune.glyphsAfter 0 s

def runes (s : Bytes) : List Char := s.glyphs.map Glyph.rune

/-- The width of a text in columns. -/
def runeCount (s : Bytes) : Nat := s.glyphs.length

/-- The first `n` characters; a negative `n` takes none, a large one all. -/
def takeRunes (n : Int) (s : Bytes) : Bytes := (s.glyphs.take n.toNat).flatMap Glyph.bytes

def ofRunes (cs : List Char) : Bytes := cs.flatMap Rune.encode

/-- Every byte belongs to a valid UTF-8 sequence. -/
def isUtf8 (s : Bytes) : Bool := s.glyphs.all (fun g => !g.isStray)

/-- The text from its first stray byte on. -/
def fromStray (s : Bytes) : Bytes := (s.glyphs.dropWhile fun g => !g.isStray).flatMap Glyph.bytes

end Bytes

end AsmAssist
