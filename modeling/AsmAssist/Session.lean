import AsmAssist.Defaults
import AsmAssist.Journal.Logger
import AsmAssist.Symbol

/- What an editor asks while source is written: completions, help on operands, symbols and their
   definitions. The configuration is loaded when it is first needed, and the symbols of the
   document asked about last are kept. -/

namespace AsmAssist

/-- Where the configuration comes from: explicit files, then directories to search, highest
    priority first. -/
structure Settings where
  files : Files
  configs : List Bytes
  searched : List Bytes

namespace Settings

/-- The names that a configuration file may have in a searched directory. -/
def fileNames : List Bytes := [.ofString "hsasm.cue", .ofString ".hsasm.cue"]

def paths (s : Settings) : List Bytes :=
  s.configs ++ s.searched.flatMap fun directory =>
    (fileNames.map (Files.inDirectory directory)).filter s.files.has

def loader (language : Config.Language) (s : Settings) : Config.Loader :=
  .loadIn language s.files Defaults.schema s.paths [Defaults.source]

/-- The record of what was loaded, or why nothing was. -/
def loadRecord (l : Config.Loader) : Journal.Record :=
  match l.paths with
  | .ok names =>
      ⟨.info, .ofString "config sources", [⟨.ofString "paths", .texts names⟩], none⟩
  | .error e =>
      ⟨.warn, .ofString "load config", [⟨.ofString "error", .text e.message⟩], none⟩

end Settings

inductive CompletionKind where
  | instruction
  | register
  | symbol
deriving DecidableEq, Repr

def CompletionKind.index : CompletionKind → Nat
  | instruction => 0
  | register => 1
  | symbol => 2

structure Completion where
  label : Bytes
  kind : CompletionKind
  detail : Bytes
  documentation : Bytes
deriving DecidableEq, Repr

namespace Completion

def ofInstruction (i : Instruction) : Completion := ⟨i.name, .instruction, i.detail, i.usage⟩

def ofRegister (r : Register) : Completion := ⟨r.name, .register, r.detail, []⟩

def ofSymbol (s : Symbol) : Completion := ⟨s.name, .symbol, .ofString "Symbol", []⟩

/-- The line up to the cursor, without white space at its start. -/
def typed (document : Bytes) (line column : Int) : Bytes :=
  (((Lines.line document line).takeRunes column).glyphs.dropWhile fun g =>
    Blank.isSpace g.rune).flatMap Glyph.bytes

/-- The first word is being typed: nothing but it stands before the cursor, not even a space
    after it. -/
def isFirstWord (typed : Bytes) (line : Int) : Bool :=
  !typed.endsWith [0x20] && (Line.instruction typed line).length ≤ 1

end Completion

/-- A range of a document; the name of the document is passed through untouched. -/
structure Location where
  uri : Bytes
  range : Range
deriving DecidableEq, Repr

structure SymbolInformation where
  name : Bytes
  location : Location
deriving DecidableEq, Repr

inductive Request where
  | setLevel (level : Journal.Level)
  | catalog
  | mnemonics
  | complete (document : Bytes) (line column : Int)
  | signature (line : Bytes)
  | symbols (document uri : Bytes)
  | definition (document : Bytes) (line column : Int) (uri : Bytes)

/-- Answers to requests. What needs the configuration fails when it cannot be had. -/
inductive Answer where
  | done
  | catalog (c : Except CatalogError Catalog)
  | mnemonics (list : Except CatalogError (List Instruction))
  | completions (items : Except CatalogError (List Completion))
  | signature (help : Except CatalogError (Option Help))
  | symbols (items : List SymbolInformation)
  | definition (found : Option Location)

/-- The state between requests: the language of the configuration and where that comes from, the
    level of the log, the catalog once it was asked for, and the symbols of the last document. -/
structure Session where
  language : Config.Language
  settings : Settings
  threshold : Journal.Level
  catalog : Option (Except CatalogError Catalog)
  cache : SymbolCache

/-- A result with the lines logged on the way and the session after it. -/
structure Served (α : Type) where
  answer : α
  logged : List Bytes
  session : Session

def Served.map {α β : Type} (f : α → β) (served : Served α) : Served β :=
  ⟨f served.answer, served.logged, served.session⟩

namespace Session

def startIn (language : Config.Language) (settings : Settings) (threshold : Journal.Level) :
    Session :=
  ⟨language, settings, threshold, none, .empty⟩

def start : Settings → Journal.Level → Session := startIn .standard

def log (s : Session) (record : Journal.Record) : List Bytes :=
  Journal.Logger.root.log s.threshold record

def debug (s : Session) (feature message : String) (attributes : List (String × Journal.Value)) :
    List Bytes :=
  s.log ⟨.debug, .ofString message, attributes.map fun (key, value) => ⟨.ofString key, value⟩,
    some (.ofString feature)⟩

/-- The catalog. The first request loads it and says so in the log; the outcome stays, failure
    included. -/
def askCatalog (s : Session) : Served (Except CatalogError Catalog) :=
  match s.catalog with
  | some c => ⟨c, [], s⟩
  | none =>
      let loader := s.settings.loader s.language
      let c := Catalog.build loader
      ⟨c, s.log (Settings.loadRecord loader), { s with catalog := some c }⟩

/-- The symbols of a document, from the cache where it holds them. -/
def askSymbols (s : Session) (feature : String) (document : Bytes) : Served (List Symbol) :=
  let ((cached, table), cache) := s.cache.ask document
  ⟨table, s.debug feature "symbols" [("count", .integer table.length), ("cached", .boolean cached)],
    { s with cache }⟩

/-- Instructions while the first word of the line is typed; registers and symbols afterwards. -/
def complete (s : Session) (document : Bytes) (line column : Int) :
    Served (Except CatalogError (List Completion)) :=
  let loaded := s.askCatalog
  match loaded.answer with
  | .error e => ⟨.error e, loaded.logged, loaded.session⟩
  | .ok catalog =>
      if Completion.isFirstWord (Completion.typed document line column) line then
        ⟨.ok (catalog.mnemonics.map .ofInstruction), loaded.logged, loaded.session⟩
      else
        let asked := loaded.session.askSymbols "completion" document
        ⟨.ok (catalog.registers.map .ofRegister ++ asked.answer.map .ofSymbol),
          loaded.logged ++ asked.logged, asked.session⟩

/-- Help for the instruction on a line, if it has one with a known mnemonic. -/
def signature (s : Session) (line : Bytes) : Served (Except CatalogError (Option Help)) :=
  let loaded := s.askCatalog
  match loaded.answer with
  | .error e => ⟨.error e, loaded.logged, loaded.session⟩
  | .ok catalog =>
      match Line.instruction line 0 with
      | [] => ⟨.ok none, loaded.logged, loaded.session⟩
      | first :: operands =>
          match Family.find? catalog.families first.text with
          | none =>
              ⟨.ok none,
                loaded.logged ++ loaded.session.debug "signature" "no operand family"
                  [("mnemonic", .text first.text)],
                loaded.session⟩
          | some family =>
              let help := family.help first.text operands
              ⟨.ok (some help),
                loaded.logged ++ loaded.session.debug "signature" "operands"
                  [("family", .text family.name), ("arguments", .integer help.analysis.arguments),
                    ("last", .text (.ofString help.analysis.last.name)),
                    ("form", .text (.ofString help.analysis.form.name))],
                loaded.session⟩

/-- Every label of a document, the entry point included. -/
def symbols (s : Session) (document uri : Bytes) : Served (List SymbolInformation) :=
  let asked := s.askSymbols "symbols" document
  ⟨asked.answer.map fun symbol => ⟨symbol.name, uri, symbol.range⟩, asked.logged, asked.session⟩

def definition (s : Session) (document : Bytes) (line column : Int) (uri : Bytes) :
    Served (Option Location) :=
  let asked := s.askSymbols "definition" document
  match Symbol.resolve? (Lines.line document line) line column asked.answer with
  | some symbol => ⟨some ⟨uri, symbol.range⟩, asked.logged, asked.session⟩
  | none =>
      ⟨none,
        asked.logged ++ asked.session.debug "definition" "no definition"
          [("line", .integer line), ("column", .integer column)],
        asked.session⟩

def serve (s : Session) : Request → Served Answer
  | .setLevel level => ⟨.done, [], { s with threshold := level }⟩
  | .catalog => s.askCatalog.map .catalog
  | .mnemonics => s.askCatalog.map fun c => .mnemonics (c.map Catalog.mnemonics)
  | .complete document line column => (s.complete document line column).map .completions
  | .signature line => (s.signature line).map .signature
  | .symbols document uri => (s.symbols document uri).map .symbols
  | .definition document line column uri =>
      (s.definition document line column uri).map .definition

def serveAll (s : Session) : List Request → List (Answer × List Bytes)
  | [] => []
  | request :: requests =>
      let served := s.serve request
      (served.answer, served.logged) :: serveAll served.session requests

end Session

end AsmAssist
