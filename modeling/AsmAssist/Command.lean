import AsmAssist.Command.Input
import AsmAssist.Command.Options
import AsmAssist.Session

/- The command line as a function: from arguments, files and standard input to what is written and
   the exit status. -/

namespace AsmAssist

structure Surroundings where
  files : Files
  searched : List Bytes
  input : Bytes

/-- What a run leaves: the two output streams and the status. -/
structure Outcome where
  status : Nat
  output : Bytes
  errors : Bytes
deriving DecidableEq, Repr

namespace Command

def usage : Bytes := Bytes.join (.ofString "\n") (List.map Bytes.ofString [
  "usage: hsasm [flags] command [args]",
  "",
  "commands:",
  "  lex [FILE]              print the reduced tokens of every line",
  "  scan [FILE]             print the flat tokens of every line",
  "  symbols [FILE]          list label declarations",
  "  def FILE LINE COLUMN    find the declaration of the symbol under the cursor",
  "  sig LINE                show the operand forms of an instruction line",
  "  complete FILE LINE COLUMN",
  "                          list completions at the cursor",
  "  repl                    inspect lines interactively",
  "",
  "FILE defaults to standard input. LINE and COLUMN are 0-based.",
  "",
  "flags:",
  "  -config value",
  "    \tadditional CUE configuration file, may be repeated",
  "  -log string",
  "    \tlog level: debug, info, warn or error (default \"warn\")",
  ""])

/-- What a piece of work did: what it printed and logged, the session after it, and the message it
    failed with if it did. -/
structure Report where
  output : Bytes
  logged : List Bytes
  session : Session
  failure : Option Bytes

namespace Report

/-- Work that prints and leaves the session alone. -/
def printed (s : Session) (text : Bytes) : Report := ⟨text, [], s, none⟩

def failed (s : Session) (message : Bytes) : Report := ⟨[], [], s, some message⟩

def served {α : Type} (served : Served α) (write : α → Except Bytes Bytes) : Report :=
  match write served.answer with
  | .ok text => ⟨text, served.logged, served.session, none⟩
  | .error message => ⟨[], served.logged, served.session, some message⟩

/-- Goes on in the session that the first work left, unless it failed. -/
def andThen (first : Report) (next : Session → Report) : Report :=
  match first.failure with
  | some _ => first
  | none =>
      let second := next first.session
      ⟨first.output ++ second.output, first.logged ++ second.logged, second.session,
        second.failure⟩

end Report

def line (pieces : List Bytes) : Bytes := pieces.flatten ++ .ofString "\n"

def tab : Bytes := .ofString "\t"

def writeTokens (tokens : List Token) : Bytes :=
  tokens.flatMap fun t =>
    line [t.range.render, tab, Bytes.ofString t.kind.name, tab, Quoted.text t.text]

/-- The tokens of a line, folded if wanted. A line that is not understood to its end is reported
    and keeps the tokens before the fault as they are. -/
def writeLine (folded : Bool) (complaint : ScanError → Bytes) (number : Int) (text : Bytes) :
    Bytes :=
  let scan := Scan.line text number
  match scan.error with
  | some e => complaint e ++ writeTokens scan.tokens
  | none => writeTokens (if folded then Folding.reduce scan.tokens else scan.tokens)

def writeDocument (folded : Bool) (document : Bytes) : Bytes :=
  (Lines.numbered document).flatMap fun (number, text) =>
    writeLine folded (fun e => line [Decimal.ofNat number, .ofString ": ", e.message]) number text

/-- One operand form. The active one is starred and followed by the active parameter, if it has
    that many. -/
def writeSignature (h : Help) (index : Nat) (s : Signature) : Bytes :=
  let isActive := index == h.activeSignature
  let head := line [.ofString (if isActive then "*" else " "), .ofString " ", s.label, tab, s.doc]
  match isActive, s.parameters[h.activeParameter]? with
  | true, some p => head ++ line [.ofString "    ", p.label, .ofString ": ", p.doc]
  | _, _ => head

def writeHelp (h : Help) : Bytes :=
  (h.signatures.zipIdx.flatMap fun (s, i) => writeSignature h i s)
    ++ line [.ofString "  ", .ofString h.analysis.form.name, .ofString " form, ",
      Decimal.ofNat h.analysis.arguments, .ofString " separators, last ",
      .ofString h.analysis.last.name]

/-- The document of a command: standard input if no file is named or a hyphen is. -/
def document (around : Surroundings) (arguments : List Bytes) : Except FileError Bytes :=
  match arguments with
  | [] => .ok around.input
  | path :: _ => if path == .ofString "-" then .ok around.input else around.files.read path

def cursor (lineText columnText : Bytes) : Except Bytes (Int × Int) :=
  match Decimal.readInt lineText with
  | .error e => .error (.ofString "line: " ++ Decimal.complaint lineText e)
  | .ok l =>
      match Decimal.readInt columnText with
      | .error e => .error (.ofString "column: " ++ Decimal.complaint columnText e)
      | .ok c => .ok (l.toInt, c.toInt)

def showSignature (text : Bytes) (s : Session) : Report :=
  .served (s.signature text) fun answer =>
    match answer with
    | .error e => .error e.message
    | .ok none => .ok (line [.ofString "no signature"])
    | .ok (some help) => .ok (writeHelp help)

/-- Tokens and operand forms of a line on its own. -/
def inspect (text : Bytes) (s : Session) : Report :=
  (Report.printed s (writeLine true (fun e => line [e.message]) 0 text)).andThen
    (showSignature text)

def inspectAll : List Bytes → Session → Report
  | [], s => .printed s []
  | text :: rest, s => (inspect text s).andThen (inspectAll rest)

def repl (around : Surroundings) (s : Session) : Report :=
  let (lines, long) := Input.lines around.input
  (inspectAll lines s).andThen fun s =>
    if long then .failed s Input.tooLong else .printed s []

def symbols (document : Bytes) (s : Session) : Report :=
  .served (s.symbols document []) fun items =>
    .ok (items.flatMap fun i => line [i.location.range.render, tab, i.name])

def definition (path document : Bytes) (l c : Int) (s : Session) : Report :=
  .served (s.definition document l c path) fun found =>
    match found with
    | none => .ok (line [.ofString "no definition"])
    | some place => .ok (line [place.uri, .ofString ":", place.range.render])

def complete (document : Bytes) (l c : Int) (s : Session) : Report :=
  .served (s.complete document l c) fun answer =>
    match answer with
    | .error e => .error e.message
    | .ok items => .ok (items.flatMap fun i => line [i.label, tab, i.detail])

def onDocument (around : Surroundings) (arguments : List Bytes) (work : Bytes → Session → Report)
    (s : Session) : Report :=
  match document around arguments with
  | .error e => .failed s e.message
  | .ok text => work text s

/-- Runs what needs a place in a document. The document is read before the place. -/
def onCursor (around : Surroundings) (command : String) (arguments : List Bytes)
    (work : Bytes → Bytes → Int → Int → Session → Report) (s : Session) : Report :=
  match arguments with
  | [path, lineText, columnText] =>
      onDocument around [path] (fun text s =>
        match cursor lineText columnText with
        | .error message => .failed s message
        | .ok (l, c) => work path text l c s) s
  | _ => .failed s (.ofString command ++ .ofString ": expected FILE LINE COLUMN")

def run (around : Surroundings) (command : Bytes) (arguments : List Bytes) (s : Session) :
    Report :=
  if command == .ofString "lex" then
    onDocument around arguments (fun text s => .printed s (writeDocument true text)) s
  else if command == .ofString "scan" then
    onDocument around arguments (fun text s => .printed s (writeDocument false text)) s
  else if command == .ofString "symbols" then onDocument around arguments symbols s
  else if command == .ofString "def" then onCursor around "def" arguments definition s
  else if command == .ofString "sig" then
    match arguments with
    | [text] => showSignature text s
    | _ => .failed s (.ofString "sig: expected LINE")
  else if command == .ofString "complete" then
    onCursor around "complete" arguments (fun _ => complete) s
  else if command == .ofString "repl" then repl around s
  else .failed s (.ofString "unknown command " ++ Quoted.text command)

/-- A message gets a line end unless it has one. -/
def asLine (message : Bytes) : Bytes :=
  if message.endsWith [0x0A] then message else line [message]

/-- The outcome of a command: log lines first, then the message it fails with. -/
def Report.outcome (r : Report) : Outcome :=
  let logged := r.logged.flatMap fun text => line [text]
  match r.failure with
  | none => ⟨0, r.output, logged⟩
  | some message => ⟨1, r.output, logged ++ asLine message⟩

/-- The arguments for which standard input is read: no file is named, or a hyphen is. -/
def readsInput (arguments : List Bytes) : Bool :=
  match Options.read arguments with
  | .ok ⟨_, _, command :: rest⟩ =>
      let onFile := ["lex", "scan", "symbols", "def", "complete"].map Bytes.ofString
      command == .ofString "repl"
        || (onFile.contains command && (rest.head?.getD (.ofString "-")) == .ofString "-")
  | _ => false

/-- Runs a command line. Faulty options and a missing command show the usage. -/
def execute (around : Surroundings) (arguments : List Bytes) : Outcome :=
  match Options.read arguments with
  | .error e =>
      match e.message? with
      | none => ⟨0, [], usage⟩
      | some message => ⟨2, [], line [message] ++ usage⟩
  | .ok options =>
      match Journal.Level.read options.level with
      | .error e => ⟨1, [], asLine e.message⟩
      | .ok level =>
          match options.rest with
          | [] => ⟨2, [], usage⟩
          | command :: rest =>
              let session := Session.start
                ⟨around.files, options.configs, around.searched⟩ level
              (run around command rest session).outcome

end Command

end AsmAssist
