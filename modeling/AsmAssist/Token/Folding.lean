import AsmAssist.Token.Basic

/- Folding of scanned tokens into readings: digits into numbers, a word and a colon into a label,
   a register with a shift and a number into a shifted register. Each step applies the first rule
   that matches anywhere, at its leftmost place, until no rule matches. -/

namespace AsmAssist.Folding

structure Rule where
  kind : Kind
  pattern : List Kind
  payload : List Token → Payload Token

/-- Underscores group digits and count for nothing. -/
def readNumeral (base : Nat) (parts : List Token) : Numeral Token :=
  let digits := ((parts.head?.map Token.text).getD []).filter (fun b => !Ascii.isUnderscore b)
  match Decimal.readWord base digits with
  | .ok value => ⟨parts, base, UInt64.ofNat value, true⟩
  | .error _ => ⟨parts, base, 0, false⟩

def numberOf (base : Nat) (parts : List Token) : Payload Token := .number (readNumeral base parts)

def labelOf (parts : List Token) : Payload Token :=
  .label parts ((parts.head?.map Token.text).getD [])

def shiftedOf (parts : List Token) : Payload Token :=
  .shifted parts ((parts[0]?.map Token.text).getD []) ((parts[1]?.map Token.text).getD [])
    ((parts[2]?.map (·.payload.numeral)).getD .zero)

def digitsRule (kind : Kind) (base : Nat) : Rule := ⟨.number, [kind], numberOf base⟩

def labelRule : Rule := ⟨.label, [.word, .colon], labelOf⟩

def shiftedRule : Rule := ⟨.shiftedRegister, [.register, .shift, .number], shiftedOf⟩

/-- The rules by falling priority. -/
def rules : List Rule :=
  [digitsRule .hexDigits 16, digitsRule .decimalDigits 10, digitsRule .binaryDigits 2, labelRule,
    shiftedRule]

/-- The range from the start of the first part to the end of the last. -/
def span (parts : List Token) : Range :=
  match parts.head?, parts.getLast? with
  | some first, some last => ⟨first.range.start, last.range.stop⟩
  | _, _ => .zero

def Rule.fold (rule : Rule) (parts : List Token) : Token :=
  ⟨rule.kind, rule.payload parts, span parts⟩

def Rule.applyAt (rule : Rule) (tokens : List Token) (i : Nat) : List Token :=
  let window := tokens.drop i
  tokens.take i ++ rule.fold (window.take rule.pattern.length)
    :: window.drop rule.pattern.length

def Rule.apply? (rule : Rule) (tokens : List Token) : Option (List Token) :=
  (Sequence.window? (fun token kind => token.kind == kind) rule.pattern tokens).map
    (rule.applyAt tokens)

def step? (tokens : List Token) : Option (List Token) :=
  rules.findSome? fun rule => rule.apply? tokens

def iterate : Nat → List Token → List Token
  | 0, tokens => tokens
  | fuel + 1, tokens =>
      match step? tokens with
      | none => tokens
      | some tokens' => iterate fuel tokens'

def isLiteral (t : Token) : Bool :=
  t.kind == .hexDigits || t.kind == .decimalDigits || t.kind == .binaryDigits

/-- Every step lowers this number: a literal is folded once, every other fold shortens the list. -/
def weight (tokens : List Token) : Nat := tokens.length + (tokens.filter isLiteral).length

def reduce (tokens : List Token) : List Token := iterate (weight tokens) tokens

end AsmAssist.Folding
