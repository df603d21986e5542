import AsmAssist.Session
import AsmAssist.Proofs.Config.Loading

/- A session has no history that shows. What it keeps between requests is the catalog of its settings
   and the table of one document, both as they would be made anew, so every answer is the one that a
   session would give that had served nothing before. The log alone tells whether a table was kept. -/

namespace AsmAssist

namespace SymbolCache

/-- The cache holds the table of the document that it was asked for last, and nothing else. -/
def Holds (cache : SymbolCache) (last : Option Bytes) : Prop :=
  cache.last = last.map fun document => (document, Symbol.index document)

theorem ask_of_holds {cache : SymbolCache} {last : Option Bytes} (h : cache.Holds last)
    (document : Bytes) :
    cache.ask document = ((decide (last = some document), Symbol.index document),
      ⟨some (document, Symbol.index document)⟩) := by
  obtain ⟨held⟩ := cache
  cases (show held = _ from h)
  cases last with
  | none => rfl
  | some held =>
      by_cases hsame : held = document
      · subst hsame
        simp [ask]
      · simp [ask, hsame]

theorem holds_of_ask {cache : SymbolCache} {last : Option Bytes} (h : cache.Holds last)
    (document : Bytes) : (cache.ask document).2.Holds (some document) := by
  rw [ask_of_holds h]
  rfl

end SymbolCache

/-- The families are read first, and report what the loader reports. -/
theorem Catalog.build_of_fails {l : Config.Loader} {e : Config.LoadError} (h : l.Fails e) :
    build l = .error (.lookup (.load e)) := by
  have hfamilies : readFamilies l = .error (.lookup (.load e)) := by
    rw [readFamilies, h.first]
  rw [build, hfamilies]
  rfl

/-! ### Answers without a session -/

namespace Request

/-- What a configuration comes to: a catalog, or why there is none. -/
abbrev Configuration := Except CatalogError Catalog

def completions (outcome : Configuration) (document : Bytes) (line column : Int) :
    Except CatalogError (List Completion) :=
  match outcome with
  | .error e => .error e
  | .ok c =>
      if Completion.isFirstWord (Completion.typed document line column) line then
        .ok (c.mnemonics.map .ofInstruction)
      else .ok (c.registers.map .ofRegister ++ (Symbol.index document).map .ofSymbol)

def help (outcome : Configuration) (line : Bytes) : Except CatalogError (Option Help) :=
  match outcome with
  | .error e => .error e
  | .ok c =>
      match Line.instruction line 0 with
      | [] => .ok none
      | first :: operands =>
          .ok ((Family.find? c.families first.text).map (·.help first.text operands))

/-- Every symbol of a document, as an editor is told of it. -/
def outline (document uri : Bytes) : List SymbolInformation :=
  (Symbol.index document).map fun symbol => ⟨symbol.name, uri, symbol.range⟩

/-- Where the symbol under the cursor is declared. -/
def declaration? (document : Bytes) (line column : Int) (uri : Bytes) : Option Location :=
  (Symbol.resolve? (Lines.line document line) line column (Symbol.index document)).map
    fun symbol => ⟨uri, symbol.range⟩

def answer (outcome : Configuration) : Request → Answer
  | setLevel _ => .done
  | catalog => .catalog outcome
  | mnemonics => .mnemonics (outcome.map Catalog.mnemonics)
  | complete document line column => .completions (completions outcome document line column)
  | signature line => .signature (help outcome line)
  | symbols document uri => .symbols (outline document uri)
  | definition document line column uri => .definition (declaration? document line column uri)

/-- The document whose table a request asks for. A completion asks for it only if there is a catalog
    and the first word is already typed. -/
def table? (outcome : Configuration) : Request → Option Bytes
  | complete document line column =>
      match outcome with
      | .error _ => none
      | .ok _ =>
          if Completion.isFirstWord (Completion.typed document line column) line then none
          else some document
  | symbols document _ => some document
  | definition document _ _ _ => some document
  | _ => none

/-- The document whose table was asked for last. -/
def lastTable? (outcome : Configuration) (requests : List Request) : Option Bytes :=
  (requests.filterMap (table? outcome)).getLast?

/-- The name under which a request that asks for a table logs it. -/
def feature : Request → String
  | complete .. => "completion"
  | symbols .. => "symbols"
  | definition .. => "definition"
  | _ => ""

theorem lastTable?_cons (outcome : Configuration) (request : Request) (requests : List Request) :
    lastTable? outcome (request :: requests) =
      (lastTable? outcome requests).or (request.table? outcome) := by
  cases htable : request.table? outcome with
  | none => simp [lastTable?, htable]
  | some document =>
      simp only [lastTable?, List.filterMap_cons, htable, List.getLast?_cons]
      cases (requests.filterMap (table? outcome)).getLast? <;> rfl

end Request

namespace Session

open Request (Configuration table? lastTable? completions help declaration?)

/-- The session when requests have been served. -/
def after (s : Session) : List Request → Session
  | [] => s
  | request :: requests => (s.serve request).session.after requests

/-- The session of some settings when requests have been served. -/
def reached (language : Config.Language) (settings : Settings) (threshold : Journal.Level)
    (history : List Request) : Session :=
  (startIn language settings threshold).after history

/-- The line that tells of a table how long it is and whether the cache had it. -/
def tableReport (s : Session) (feature : String) (document : Bytes) (hit : Bool) : List Bytes :=
  s.debug feature "symbols"
    [("count", .integer (Symbol.index document).length), ("cached", .boolean hit)]

/-- All that a session may keep: what its configuration comes to, once that was asked for, and the
    table of one document. -/
structure Faithful (s : Session) (outcome : Configuration) (last : Option Bytes) : Prop where
  builds : Catalog.build (s.settings.loader s.language) = outcome
  keeps : ∀ c, s.catalog = some c → c = outcome
  holds : s.cache.Holds last

theorem faithful_start (language : Config.Language) (settings : Settings)
    (threshold : Journal.Level) :
    Faithful (startIn language settings threshold) (Catalog.build (settings.loader language)) none where
  builds := by rw [startIn]
  keeps := fun _ h => nomatch h
  holds := rfl

/-! ### One request -/

/-- Asking for the catalog changes nothing but whether it is kept. -/
theorem askCatalog_frame (s : Session) :
    s.askCatalog.session.language = s.language ∧ s.askCatalog.session.settings = s.settings ∧
      s.askCatalog.session.threshold = s.threshold ∧ s.askCatalog.session.cache = s.cache := by
  unfold askCatalog
  split <;> exact ⟨rfl, rfl, rfl, rfl⟩

theorem signature_session (s : Session) (line : Bytes) :
    (s.signature line).session = s.askCatalog.session := by
  unfold signature
  dsimp only
  split
  · rfl
  · split
    · rfl
    · split <;> rfl

/-- Help is given from the catalog that the session has, wherever that came from. -/
theorem signature_help (s : Session) (line : Bytes) :
    (s.signature line).answer = help s.askCatalog.answer line := by
  cases hanswer : s.askCatalog.answer with
  | error e => simp only [signature, help, hanswer]
  | ok c =>
      simp only [signature, help, hanswer]
      cases Line.instruction line 0 with
      | nil => rfl
      | cons first operands =>
          dsimp only
          cases Family.find? c.families first.text with
          | none => rfl
          | some family => rfl

section Step

variable {s : Session} {outcome : Configuration} {last : Option Bytes} (h : Faithful s outcome last)

include h

theorem askCatalog_answer : s.askCatalog.answer = outcome := by
  cases hcatalog : s.catalog with
  | some c =>
      simp only [askCatalog, hcatalog]
      exact h.keeps c hcatalog
  | none =>
      simp only [askCatalog, hcatalog]
      exact h.builds

theorem askCatalog_faithful : Faithful s.askCatalog.session outcome last := by
  obtain ⟨hlanguage, hsettings, -, hcache⟩ := askCatalog_frame s
  refine ⟨?_, ?_, ?_⟩
  · rw [hlanguage, hsettings]
    exact h.builds
  · cases hcatalog : s.catalog with
    | some c =>
        simp only [askCatalog, hcatalog]
        exact fun _ hsame => h.keeps _ (hcatalog.trans hsame)
    | none =>
        simp only [askCatalog, hcatalog, h.builds]
        rintro c ⟨rfl⟩
        rfl
  · rw [hcache]
    exact h.holds

theorem askSymbols_eq (feature : String) (document : Bytes) :
    s.askSymbols feature document =
      ⟨Symbol.index document, s.tableReport feature document (decide (last = some document)),
        { s with cache := (s.cache.ask document).2 }⟩ := by
  simp only [askSymbols, SymbolCache.ask_of_holds h.holds, tableReport]

theorem askSymbols_faithful (feature : String) (document : Bytes) :
    Faithful (s.askSymbols feature document).session outcome (some document) := by
  rw [askSymbols_eq h]
  exact ⟨h.builds, h.keeps, SymbolCache.holds_of_ask h.holds document⟩

/-- Everything a completion can do. -/
theorem complete_cases (document : Bytes) (line column : Int) :
    (∃ e, outcome = .error e ∧
      s.complete document line column = ⟨.error e, s.askCatalog.logged, s.askCatalog.session⟩) ∨
    (∃ c, outcome = .ok c ∧
      Completion.isFirstWord (Completion.typed document line column) line = true ∧
      s.complete document line column =
        ⟨.ok (c.mnemonics.map .ofInstruction), s.askCatalog.logged, s.askCatalog.session⟩) ∨
    ∃ c, outcome = .ok c ∧
      Completion.isFirstWord (Completion.typed document line column) line = false ∧
      s.complete document line column =
        ⟨.ok (c.registers.map .ofRegister ++ (Symbol.index document).map .ofSymbol),
          s.askCatalog.logged ++
            s.tableReport "completion" document (decide (last = some document)),
          (s.askCatalog.session.askSymbols "completion" document).session⟩ := by
  have hanswer := askCatalog_answer h
  cases outcome with
  | error e =>
      left
      exact ⟨e, rfl, by simp only [complete, hanswer]⟩
  | ok c =>
      right
      cases hfirst : Completion.isFirstWord (Completion.typed document line column) line with
      | true =>
          left
          exact ⟨c, rfl, rfl, by simp only [complete, hanswer, hfirst, if_true]⟩
      | false =>
          right
          have hreport : s.askCatalog.session.tableReport "completion" document
              (decide (last = some document)) =
              s.tableReport "completion" document (decide (last = some document)) := by
            simp only [tableReport, debug, log, (askCatalog_frame s).2.2.1]
          refine ⟨c, rfl, rfl, ?_⟩
          rw [← hreport]
          simp only [complete, hanswer, hfirst, Bool.false_eq_true, if_false]
          rw [askSymbols_eq (askCatalog_faithful h)]

theorem signature_answer (line : Bytes) : (s.signature line).answer = help outcome line := by
  rw [signature_help, askCatalog_answer h]

/-- Everything a definition can do: it may say in the log that there is none. -/
theorem definition_cases (document : Bytes) (line column : Int) (uri : Bytes) :
    ∃ more, s.definition document line column uri =
      ⟨declaration? document line column uri,
        s.tableReport "definition" document (decide (last = some document)) ++ more,
        (s.askSymbols "definition" document).session⟩ := by
  simp only [definition, declaration?, askSymbols_eq h]
  cases Symbol.resolve? (Lines.line document line) line column (Symbol.index document) with
  | none => exact ⟨_, rfl⟩
  | some symbol => exact ⟨[], by rw [List.append_nil]; rfl⟩

/-- A request is answered from what the configuration comes to, and from nothing else. -/
theorem serve_answer (request : Request) : (s.serve request).answer = request.answer outcome := by
  cases request with
  | setLevel level => rfl
  | catalog => exact congrArg Answer.catalog (askCatalog_answer h)
  | mnemonics =>
      exact congrArg (fun c => Answer.mnemonics (c.map Catalog.mnemonics)) (askCatalog_answer h)
  | complete document line column =>
      refine congrArg Answer.completions ?_
      rcases complete_cases h document line column with
        ⟨e, rfl, hrun⟩ | ⟨c, rfl, hfirst, hrun⟩ | ⟨c, rfl, hfirst, hrun⟩
      · simp only [hrun, completions]
      · simp only [hrun, completions, hfirst, if_true]
      · simp only [hrun, completions, hfirst, Bool.false_eq_true, if_false]
  | signature line => exact congrArg Answer.signature (signature_answer h line)
  | symbols document uri =>
      simp only [serve, symbols, askSymbols_eq h]
      rfl
  | definition document line column uri =>
      obtain ⟨more, hrun⟩ := definition_cases h document line column uri
      simp only [serve, hrun]
      rfl

/-- A request leaves the session faithful, with the table that it asked for, if it asked for one. -/
theorem serve_faithful (request : Request) :
    Faithful (s.serve request).session outcome ((request.table? outcome).or last) := by
  cases request with
  | setLevel level => exact ⟨h.builds, h.keeps, h.holds⟩
  | catalog => exact askCatalog_faithful h
  | mnemonics => exact askCatalog_faithful h
  | complete document line column =>
      change Faithful (s.complete document line column).session outcome _
      rcases complete_cases h document line column with
        ⟨e, rfl, hrun⟩ | ⟨c, rfl, hfirst, hrun⟩ | ⟨c, rfl, hfirst, hrun⟩
      · simp only [hrun, table?]
        exact askCatalog_faithful h
      · simp only [hrun, table?, hfirst, if_true]
        exact askCatalog_faithful h
      · simp only [hrun, table?, hfirst, Bool.false_eq_true, if_false]
        exact askSymbols_faithful (askCatalog_faithful h) "completion" document
  | signature line =>
      change Faithful (s.signature line).session outcome last
      rw [signature_session]
      exact askCatalog_faithful h
  | symbols document uri => exact askSymbols_faithful h "symbols" document
  | definition document line column uri =>
      obtain ⟨more, hrun⟩ := definition_cases h document line column uri
      change Faithful (s.definition document line column uri).session outcome _
      rw [hrun]
      exact askSymbols_faithful h "definition" document

/-- A request that asks for a table logs whether the cache had it. -/
theorem serve_report (request : Request) {document : Bytes}
    (htable : request.table? outcome = some document) :
    ∃ before behind, (s.serve request).logged =
      before ++ s.tableReport request.feature document (decide (last = some document)) ++ behind := by
  cases request with
  | setLevel | catalog | mnemonics | signature => cases htable
  | complete asked line column =>
      change ∃ before behind, (s.complete asked line column).logged = _
      rcases complete_cases h asked line column with
        ⟨e, rfl, hrun⟩ | ⟨c, rfl, hfirst, hrun⟩ | ⟨c, rfl, hfirst, hrun⟩
      · cases htable
      · simp only [table?, hfirst, if_true] at htable
        cases htable
      · simp only [table?, hfirst, Bool.false_eq_true, if_false] at htable
        cases htable
        rw [hrun]
        exact ⟨_, [], (List.append_nil _).symm⟩
  | symbols asked uri =>
      cases htable
      refine ⟨[], [], ?_⟩
      simp only [serve, symbols, askSymbols_eq h, List.nil_append, List.append_nil]
      rfl
  | definition asked line column uri =>
      cases htable
      obtain ⟨more, hrun⟩ := definition_cases h document line column uri
      refine ⟨[], more, ?_⟩
      simp only [serve, hrun, List.nil_append]
      rfl

end Step

/-! ### Any number of requests -/

theorem after_faithful {s : Session} {outcome : Configuration} {last : Option Bytes}
    (h : Faithful s outcome last) (requests : List Request) :
    Faithful (s.after requests) outcome ((lastTable? outcome requests).or last) := by
  induction requests generalizing s last with
  | nil => exact h
  | cons request requests ih =>
      have hrest := ih (serve_faithful h request)
      rw [← Option.or_assoc, ← Request.lastTable?_cons] at hrest
      exact hrest

/-- A session that served any requests is faithful to its configuration. -/
theorem reached_faithful (language : Config.Language) (settings : Settings)
    (threshold : Journal.Level) (history : List Request) :
    Faithful (reached language settings threshold history) (Catalog.build (settings.loader language))
      (lastTable? (Catalog.build (settings.loader language)) history) := by
  have hreached := after_faithful (faithful_start language settings threshold) history
  rwa [Option.or_none] at hreached

theorem serveAll_answers {s : Session} {outcome : Configuration} {last : Option Bytes}
    (h : Faithful s outcome last) (requests : List Request) :
    (s.serveAll requests).map Prod.fst = requests.map (Request.answer outcome) := by
  induction requests generalizing s last with
  | nil => rfl
  | cons request requests ih =>
      rw [serveAll, List.map_cons, List.map_cons, serve_answer h, ih (serve_faithful h request)]

/-- Whatever was asked before and whatever the language of configurations, each request is answered as
    a fresh session answers it. The cache reports a hit exactly for the document whose table was asked
    for last. A configuration that gives no catalog fails every completion and every help, and shows in
    no symbol and no definition. -/
theorem session_keeps_no_history (language : Config.Language) (settings : Settings)
    (threshold fresh : Journal.Level) (history : List Request) :
    ((startIn language settings threshold).serveAll history).map Prod.fst =
      history.map (fun request => ((startIn language settings fresh).serve request).answer) ∧
    (∀ document, ((reached language settings threshold history).cache.ask document).1.1 = true ↔
      lastTable? (Catalog.build (settings.loader language)) history = some document) ∧
    (∀ request document, request.table? (Catalog.build (settings.loader language)) = some document →
      ∃ before behind, ((reached language settings threshold history).serve request).logged =
        before ++ (reached language settings threshold history).tableReport request.feature document
          ((reached language settings threshold history).cache.ask document).1.1 ++ behind) ∧
    (∀ e, Catalog.build (settings.loader language) = .error e →
      (∀ document line column,
        ((reached language settings threshold history).complete document line column).answer =
          .error e) ∧
      ∀ line, ((reached language settings threshold history).signature line).answer = .error e) ∧
    ∀ foreign other document line column uri,
      ((reached language settings threshold history).symbols document uri).answer =
        ((startIn foreign other fresh).symbols document uri).answer ∧
      ((reached language settings threshold history).definition document line column uri).answer =
        ((startIn foreign other fresh).definition document line column uri).answer := by
  have hreached := reached_faithful language settings threshold history
  have hask := SymbolCache.ask_of_holds hreached.holds
  refine ⟨?_, ?_, ?_, ?_, ?_⟩
  · rw [serveAll_answers (faithful_start language settings threshold)]
    apply List.map_congr_left
    intro request _
    exact (serve_answer (faithful_start language settings fresh) request).symm
  · intro document
    rw [hask, decide_eq_true_eq]
  · intro request document htable
    rw [hask]
    exact serve_report hreached request htable
  · intro e he
    rw [he] at hreached
    constructor
    · intro document line column
      rcases complete_cases hreached document line column with
        ⟨_, ⟨rfl⟩, hrun⟩ | ⟨_, hok, -⟩ | ⟨_, hok, -⟩
      · rw [hrun]
      · cases hok
      · cases hok
    · intro line
      exact signature_answer hreached line
  · intro foreign other document line column uri
    have hfresh := faithful_start foreign other fresh
    constructor
    · simp only [symbols, askSymbols_eq hreached, askSymbols_eq hfresh]
    · obtain ⟨_, hrun⟩ := definition_cases hreached document line column uri
      obtain ⟨_, hother⟩ := definition_cases hfresh document line column uri
      rw [hrun, hother]

/-- Settings that name a file which is not there. -/
def astray : Settings := ⟨⟨[], [], []⟩, [.ofString "none.cue"], []⟩

theorem load_astray (language : Config.Language) (schemaText : Bytes) (builtin : List Config.Source) :
    ∃ e, (Config.Loader.loadIn language astray.files schemaText astray.configs builtin).Fails e := by
  simp only [Config.Loader.fails_iff, Config.Loader.loadIn, Config.Loader.loadLayers]
  cases Config.Loader.schema language schemaText with
  | error e => exact ⟨e, rfl⟩
  | ok s => exact ⟨.file (.missing (.ofString "none.cue")), rfl⟩

/-- Two documents in turn, and a completion in the first that fails. -/
def visited : List Request :=
  [.symbols (.ofString "a:") [], .symbols (.ofString "b:") [], .complete (.ofString "a:") 0 2]

/-- A completion that fails asks for no table: the one asked for before is still there. -/
theorem failed_completion_keeps_table :
    ∃ e, Catalog.build (astray.loader .standard) = .error e ∧
      ((reached .standard astray .warn visited).complete (.ofString "a:") 0 2).answer = .error e ∧
      ((reached .standard astray .warn visited).cache.ask (.ofString "b:")).1.1 = true := by
  obtain ⟨e, hfails⟩ := load_astray .standard Defaults.schema [Defaults.source]
  have hbuild : Catalog.build (astray.loader .standard) = .error (.lookup (.load e)) :=
    Catalog.build_of_fails hfails
  obtain ⟨-, hhit, -, herror, -⟩ := session_keeps_no_history .standard astray .warn .warn visited
  refine ⟨_, hbuild, (herror _ hbuild).1 _ _ _, ?_⟩
  rw [hhit, hbuild]
  rfl

end Session

end AsmAssist
