import AsmAssist.Line
import AsmAssist.Text.Lines

/- Symbols of a document: the labels at the starts of its lines, and the entry point that every
   program has. -/

namespace AsmAssist

structure Symbol where
  name : Bytes
  range : Range
deriving DecidableEq, Repr

namespace Symbol

/-- The zero symbol, reported when there is none. -/
def none : Symbol := ⟨[], .zero⟩

def entryPoint : Symbol := ⟨.ofString "_start", .zero⟩

def ofLine (text : Bytes) (lineNumber : Int) : List Symbol :=
  ((Line.tokenize text lineNumber).takeWhile (·.kind == .label)).map fun t => ⟨t.text, t.range⟩

/-- The symbols of a document in order, duplicates kept, the entry point first. -/
def index (document : Bytes) : List Symbol :=
  entryPoint :: (Lines.numbered document).flatMap fun (n, text) => ofLine text n

def lookup? (table : List Symbol) (name : Bytes) : Option Symbol := table.find? (·.name == name)

/-- The symbol named under the cursor: of the scanned tokens that touch the column, the first
    that names one. -/
def resolve? (text : Bytes) (lineNumber column : Int) (table : List Symbol) : Option Symbol :=
  ((Scan.line text lineNumber).tokens.filter (·.range.covers column)).findSome? fun t =>
    lookup? table t.text

end Symbol

/-- The table of the document indexed last. -/
structure SymbolCache where
  last : Option (Bytes × List Symbol)

namespace SymbolCache

def empty : SymbolCache := ⟨none⟩

/-- The table of a document and whether it was the one held. -/
def ask (cache : SymbolCache) (document : Bytes) : (Bool × List Symbol) × SymbolCache :=
  match cache.last with
  | some (held, table) =>
      if held == document then ((true, table), cache)
      else
        let table := Symbol.index document
        ((false, table), ⟨some (document, table)⟩)
  | none =>
      let table := Symbol.index document
      ((false, table), ⟨some (document, table)⟩)

def askAll (cache : SymbolCache) : List Bytes → List (Bool × List Symbol)
  | [] => []
  | document :: documents =>
      let (answer, cache') := cache.ask document
      answer :: askAll cache' documents

end SymbolCache

end AsmAssist
