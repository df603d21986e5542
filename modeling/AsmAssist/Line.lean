import AsmAssist.Token.Folding
import AsmAssist.Token.Scanner

/- Readings of one line of source. -/

namespace AsmAssist.Line

/-- Folds the tokens of a line that was understood to its end. A line with a character that
    starts no lexeme gives the scanned tokens before it, unfolded. -/
def tokenize (text : Bytes) (lineNumber : Int) : List Token :=
  let scan := Scan.line text lineNumber
  match scan.error with
  | none => Folding.reduce scan.tokens
  | some _ => scan.tokens

def dropLabels (tokens : List Token) : List Token := tokens.dropWhile (·.kind == .label)

def markMnemonic : List Token → List Token
  | [] => []
  | first :: rest => { first with kind := .mnemonic } :: rest

/-- The tokens after the leading labels, the first of them marked as the mnemonic. -/
def instruction (text : Bytes) (lineNumber : Int) : List Token :=
  markMnemonic (dropLabels (tokenize text lineNumber))

def operands (text : Bytes) (lineNumber : Int) : List Token := (instruction text lineNumber).tail

end AsmAssist.Line
