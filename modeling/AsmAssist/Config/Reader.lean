import AsmAssist.Config.Expr
import AsmAssist.Config.Lexeme

/- Reading of expressions from lexemes. Alternatives bind weaker than conjunctions, conjunctions
   weaker than signs and bounds, and those weaker than a selected field. -/

namespace AsmAssist.Config

/-- A reader takes lexemes from the front and gives up on what it cannot read. -/
abbrev Reading := StateT (List Lexeme) Option

namespace Reading

def accept (m : Mark) : Reading Bool := do
  match ← get with
  | .mark n :: rest => if m = n then set rest; return true else return false
  | _ => return false

def expect (m : Mark) : Reading Unit := do
  if ← accept m then return () else failure

/-- Takes what separates declarations and items: a comma or a line end. -/
def acceptSeparator : Reading Bool := do
  if ← accept .comma then return true else accept .lineEnd

def comesNext (m : Mark) : Reading Bool := do
  match ← get with
  | .mark n :: _ => return m = n
  | _ => return false

/-- The number of lexemes left, which no two places of a text share. -/
def place : Reading Nat := do return (← get).length

/-- The label of a field and whether it is a word, if one is written next with the colon after
    it. A label cannot span lines. -/
def label? (lexemes : List Lexeme) : Option ((Label × Bool × Presence) × List Lexeme) :=
  let named : Option ((Label × Bool) × List Lexeme) :=
    match lexemes with
    | .word name :: rest => some ((.ofWord name, true), rest)
    | .text s false :: rest => some ((.plain s, false), rest)
    | _ => none
  match named with
  | some ((label, isWord), .mark .colon :: rest) => some ((label, isWord, .regular), rest)
  | some ((label, isWord), .mark .question :: .mark .colon :: rest) =>
      some ((label, isWord, .optional), rest)
  | some ((label, isWord), .mark .bang :: .mark .colon :: rest) =>
      some ((label, isWord, .required), rest)
  | _ => none

def acceptLabel : Reading (Option (Label × Bool × Presence)) := do
  match label? (← get) with
  | some (found, rest) => set rest; return some found
  | none => return none

/-- The expression inside the brackets that ask for every plain field. -/
def isEveryField : Expr → Bool
  | .list [.name n] none => n == "string".toList || n == "_".toList
  | _ => false

def leaf : Reading Expr := do
  match ← get with
  | .number n :: rest => set rest; return .scalar (.number n)
  | .text s _ :: rest => set rest; return .scalar (.text s)
  | .bytes s :: rest => set rest; return .scalar (.bytes s)
  | .mark .bottom :: rest => set rest; return .bottom
  | .word name :: rest =>
      set rest
      match String.ofList name with
      | "null" => return .scalar .null
      | "true" => return .scalar (.bool true)
      | "false" => return .scalar (.bool false)
      | _ => return .name name
  | _ => failure

mutual

/-- Alternatives; only among several can one be the default. -/
def alternatives : Nat → Reading Expr
  | 0 => failure
  | fuel + 1 => do
      let isDefault ← accept .star
      let first ← conjunction fuel
      if ← accept .bar then
        return .choice (.mk isDefault first :: (← alternativesAfter fuel))
      else if isDefault then failure
      else return first

def alternativesAfter : Nat → Reading (List Alternative)
  | 0 => failure
  | fuel + 1 => do
      let isDefault ← accept .star
      let e ← conjunction fuel
      if ← accept .bar then return .mk isDefault e :: (← alternativesAfter fuel)
      else return [.mk isDefault e]

def conjunction : Nat → Reading Expr
  | 0 => failure
  | fuel + 1 => do
      let first ← unary fuel
      if ← accept .ampersand then return .both first (← conjunction fuel) else return first

def unary : Nat → Reading Expr
  | 0 => failure
  | fuel + 1 => do
      match ← get with
      | .mark .minus :: rest => set rest; return .signed true (← unary fuel)
      | .mark .plus :: rest => set rest; return .signed false (← unary fuel)
      | .mark (.comparison c) :: rest => set rest; return .bound c (← unary fuel)
      | _ => selected fuel (← operand fuel)

/-- The fields selected of an operand, one after another. -/
def selected : Nat → Expr → Reading Expr
  | 0, _ => failure
  | fuel + 1, e => do
      match ← get with
      | .mark .dot :: .word name :: rest => set rest; selected fuel (.select e (.ofWord name))
      | .mark .dot :: .text s false :: rest => set rest; selected fuel (.select e (.plain s))
      | _ => return e

def operand : Nat → Reading Expr
  | 0 => failure
  | fuel + 1 => do
      match ← get with
      | .mark .leftParen :: rest =>
          set rest
          let e ← alternatives fuel
          expect .rightParen
          return e
      | .word ['c', 'l', 'o', 's', 'e'] :: .mark .leftParen :: rest =>
          set rest
          let e ← alternatives fuel
          expect .rightParen
          return .close e
      | .mark .leftBrace :: rest =>
          let here ← place
          set rest
          let declared ← declarations fuel
          expect .rightBrace
          return .struct here declared
      | .mark .leftBracket :: rest =>
          set rest
          items fuel []
      | _ => leaf

/-- The rest of a list, whose items so far are `before` from the last to the first. -/
def items : Nat → List Expr → Reading Expr
  | 0, _ => failure
  | fuel + 1, before => do
      if ← accept .rightBracket then return .list before.reverse none
      else if ← accept .ellipsis then
        if ← acceptSeparator then
          expect .rightBracket
          return .list before.reverse (some (.name ['_']))
        else if ← accept .rightBracket then return .list before.reverse (some (.name ['_']))
        else
          let rest ← alternatives fuel
          let _ ← acceptSeparator
          expect .rightBracket
          return .list before.reverse (some rest)
      else
        let e ← alternatives fuel
        if ← acceptSeparator then items fuel (e :: before)
        else
          expect .rightBracket
          return .list (e :: before).reverse none

/-- Declarations with commas between them, up to the end of the struct or of the text. -/
def declarations : Nat → Reading (List Declaration)
  | 0 => failure
  | fuel + 1 => do
      if (← get).isEmpty || (← comesNext .rightBrace) then return []
      else
        let d ← declaration fuel
        if ← acceptSeparator then return d :: (← declarations fuel) else return [d]

def declaration : Nat → Reading Declaration
  | 0 => failure
  | fuel + 1 => do
      if ← accept .ellipsis then return .open
      else match ← acceptLabel with
        | some (label, isWord, presence) =>
            return .field label isWord presence (← fieldValue fuel)
        | none =>
            let e ← alternatives fuel
            if ← accept .colon then
              if isEveryField e then return .each (← fieldValue fuel) else failure
            else return .embed e

/-- The value of a field. A label in its place stands for a struct of that one field. -/
def fieldValue : Nat → Reading Expr
  | 0 => failure
  | fuel + 1 => do
      let here ← place
      if (label? (← get)).isSome then return .struct here [← declaration fuel]
      else
        let e ← alternatives fuel
        if ← accept .colon then
          if isEveryField e then return .struct here [.each (← fieldValue fuel)] else failure
        else return e

end

/-- The name of the package may stand first; it says nothing about values. -/
def packageClause : Reading Unit := do
  match ← get with
  | .word ['p', 'a', 'c', 'k', 'a', 'g', 'e'] :: .word _ :: rest =>
      set rest
      if ← acceptSeparator then return () else failure
  | _ => return ()

/-- A whole text is a struct without braces. -/
def document : Reading Expr := do
  packageClause
  let here ← place
  let declared ← declarations (16 * here + 16)
  if (← get).isEmpty then return .struct (here + 1) declared else failure

end Reading

/-- The expression of a text: none if it cannot be read or a name in it has no meaning. -/
def Expr.read? (source : Bytes) : Option Expr := do
  let lexemes ← Lexeme.read? source
  let (e, _) ← Reading.document.run lexemes
  if e.isScoped [] then some e else none

end AsmAssist.Config
