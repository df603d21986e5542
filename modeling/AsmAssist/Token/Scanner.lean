import AsmAssist.Token.Basic
import AsmAssist.Token.Lexeme

/- The scanner of a line: a cursor that hands out one token at a time. It stops for good at the
   end of the line or at a character that starts no lexeme, and then it no longer moves. -/

namespace AsmAssist

/-- No lexeme starts at this place. -/
structure ScanError where
  position : Position
  rune : Char
deriving DecidableEq, Repr

/-- What is wrong, wherever it is. -/
def ScanError.reason (e : ScanError) : Bytes :=
  .ofString "unexpected character " ++ Quoted.char e.rune

def ScanError.message (e : ScanError) : Bytes :=
  .ofString "syntaxerror: " ++ e.position.render ++ .ofString ": " ++ e.reason

/-- A cursor: the text not consumed yet and the place where it starts. -/
structure Scanner where
  rest : Bytes
  position : Position
deriving DecidableEq, Repr

namespace Scanner

def start (line : Bytes) (lineNumber : Int) : Scanner := ⟨line, ⟨lineNumber, 0⟩⟩

inductive Step where
  | token (token : Token)
  | failure (error : ScanError)
  | finished

/-- One step: only a token moves the cursor. -/
def next (s : Scanner) : Step × Scanner :=
  match s.rest with
  | [] => (.finished, s)
  | b :: more =>
      match Lexeme.first? s.rest with
      | none => (.failure ⟨s.position, (Rune.lead b more).1⟩, s)
      | some (kind, cut) =>
          let stop := s.position.moveRight (Bytes.runeCount (s.rest.take cut.length))
          (.token ⟨kind, .raw cut.value, ⟨s.position, stop⟩⟩, ⟨s.rest.drop cut.length, stop⟩)

/-- An entry of a token sequence: a token, or the error that ends the sequence. -/
abbrev Entry := Except ScanError Token

/-- The entries up to the end of the sequence, at most `limit` of them. -/
def take : Nat → Scanner → List Entry × Scanner
  | 0, s => ([], s)
  | limit + 1, s =>
      match s.next with
      | (.finished, s') => ([], s')
      | (.failure e, s') => ([.error e], s')
      | (.token t, s') =>
          let (entries, s'') := take limit s'
          (.ok t :: entries, s'')

/-- All entries: a token takes at least one byte, so no sequence is longer than the text and
    one error. -/
def drain (s : Scanner) : List Entry × Scanner := s.take (s.rest.length + 1)

inductive Request where
  | next
  | tokens (limit : Nat)
  | remaining

inductive Reply where
  | step (step : Step)
  | entries (entries : List Entry)
  | remaining (rest : Bytes)

/-- Answers a request; a limit of 0 is no limit. -/
def serve (s : Scanner) : Request → Reply × Scanner
  | .next =>
      let (step, s') := s.next
      (.step step, s')
  | .tokens 0 =>
      let (entries, s') := s.drain
      (.entries entries, s')
  | .tokens limit =>
      let (entries, s') := s.take limit
      (.entries entries, s')
  | .remaining => (.remaining s.rest, s)

def serveAll (s : Scanner) : List Request → List Reply
  | [] => []
  | request :: requests =>
      let (reply, s') := s.serve request
      reply :: serveAll s' requests

end Scanner

/-- The visible tokens of a line, and the error that stopped the scanner, if one did. -/
structure Scan where
  tokens : List Token
  error : Option ScanError

namespace Scan

/-- Leaves hidden tokens out of a sequence of entries. -/
def ofEntries : List Scanner.Entry → Scan
  | [] => ⟨[], none⟩
  | .error e :: _ => ⟨[], some e⟩
  | .ok t :: entries =>
      let rest := ofEntries entries
      ⟨if t.kind.isHidden then rest.tokens else t :: rest.tokens, rest.error⟩

def line (text : Bytes) (lineNumber : Int) : Scan :=
  ofEntries (Scanner.start text lineNumber).drain.1

end Scan

end AsmAssist
