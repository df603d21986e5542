import AsmAssist.Config.Decode
import AsmAssist.Config.Meaning
import AsmAssist.Config.Path
import AsmAssist.Files

/- Configuration in layers. Files come first, in the order given, then the sources that are built
   in; each has to fit the schema. Loading gives all layers or one error. -/

namespace AsmAssist.Config

structure Source where
  name : Bytes
  content : Bytes
deriving DecidableEq, Repr

structure Layer where
  name : Bytes
  value : Value

inductive LoadError where
  | badSchema
  | file (error : FileError)
  | badSource (name : Bytes)
  | againstSchema (name : Bytes)
deriving DecidableEq, Repr

def LoadError.message : LoadError → Bytes
  | badSchema => .ofString "compile schema: invalid configuration"
  | file e => e.message
  | badSource name => name ++ .ofString ": invalid configuration"
  | againstSchema name => name ++ .ofString ": not allowed by the schema"

/-- Applies a step to all elements in order and stops at the first error. -/
def eachOf {α β ε : Type} (step : α → Except ε β) : List α → Except ε (List β)
  | [] => .ok []
  | x :: xs =>
      match step x with
      | .error e => .error e
      | .ok y =>
          match eachOf step xs with
          | .error e => .error e
          | .ok ys => .ok (y :: ys)

/-- What is asked of the language of configurations: the value of a text, what two values say
    together, whether a value can be, and what stands at a path in a value. -/
structure Language where
  compile? : Bytes → Option Value
  unify : Value → Value → Value
  isValid : Value → Bool
  find : Bytes → Value → Finding

def Language.standard : Language :=
  ⟨Config.compile?, Value.meet, fun v => !v.isConflict, Value.findAt⟩

/-- The layers of a configuration, or why there are none, and the language that they are written
    in. -/
structure Loader where
  language : Language
  layers : Except LoadError (List Layer)

namespace Loader

variable (language : Language)

def closedStruct (text : Bytes) : Bytes := .ofString "close(\x7b" ++ text ++ .ofString "\x7d)"

/-- The schema is a closed struct; an empty text is no schema. -/
def schema (text : Bytes) : Except LoadError (Option Value) :=
  if text.isEmpty then .ok none
  else match language.compile? (closedStruct text) with
    | some v => .ok (some v)
    | none => .error .badSchema

def readFile (files : Files) (path : Bytes) : Except LoadError Source :=
  match files.read path with
  | .ok content => .ok ⟨path, content⟩
  | .error e => .error (.file e)

/-- A source as a layer: it has to have a value, and the value has to fit the schema. The value
    stays as it is written. -/
def layer (schema : Option Value) (source : Source) : Except LoadError Layer :=
  match language.compile? source.content with
  | none => .error (.badSource source.name)
  | some v =>
      match schema with
      | none => .ok ⟨source.name, v⟩
      | some s =>
          if language.isValid (language.unify s v) then .ok ⟨source.name, v⟩
          else .error (.againstSchema source.name)

/-- The schema is read before all files, and all files are read before any source is looked
    into. -/
def loadLayers (files : Files) (schemaText : Bytes) (paths : List Bytes)
    (builtin : List Source) : Except LoadError (List Layer) :=
  match schema language schemaText with
  | .error e => .error e
  | .ok s =>
      match eachOf (readFile files) paths with
      | .error e => .error e
      | .ok sources => eachOf (layer language s) (sources ++ builtin)

def loadIn (files : Files) (schemaText : Bytes) (paths : List Bytes) (builtin : List Source) :
    Loader :=
  ⟨language, loadLayers language files schemaText paths builtin⟩

def load : Files → Bytes → List Bytes → List Source → Loader := loadIn .standard

/-- The names of the layers, highest priority first. -/
def paths (l : Loader) : Except LoadError (List Bytes) :=
  match l.layers with
  | .error e => .error e
  | .ok layers => .ok (layers.map (·.name))

/-- The values at a path, one for each layer that has one. A layer where something stands that has no
    value is passed over. -/
def values (l : Loader) (path : Bytes) : Except LoadError (List Value) :=
  match l.layers with
  | .error e => .error e
  | .ok layers =>
      .ok (layers.filterMap fun layer => (l.language.find path layer.value).value?)

end Loader

inductive LookupError where
  | load (error : LoadError)
  | shape (path : Bytes)
  | notFound
deriving DecidableEq, Repr

def LookupError.message : LookupError → Bytes
  | load e => e.message
  | shape path => .ofString "decode " ++ path ++ .ofString ": unexpected value"
  | notFound => .ofString "value not found"

namespace Loader

variable {α : Type}

def decode (shape : Decoder α) (path : Bytes) (v : Value) : Except LookupError α :=
  match shape v with
  | some a => .ok a
  | none => .error (.shape path)

/-- The data of the first layer that has the path. Lower layers do not make up for a value of the
    wrong shape. -/
def assign (l : Loader) (shape : Decoder α) (path : Bytes) : Except LookupError α :=
  match l.values path with
  | .error e => .error (.load e)
  | .ok [] => .error .notFound
  | .ok (v :: _) => decode shape path v

/-- The same, with `missing` where no layer has the path. -/
def first (l : Loader) (shape : Decoder α) (missing : α) (path : Bytes) : Except LookupError α :=
  match l.assign shape path with
  | .error .notFound => .ok missing
  | answer => answer

def upToError {ε : Type} : List (Except ε α) → List (Except ε α)
  | [] => []
  | .ok a :: rest => .ok a :: upToError rest
  | .error e :: _ => [.error e]

/-- The data of every layer that has the path, up to the first of the wrong shape. -/
def all (l : Loader) (shape : Decoder α) (path : Bytes) : List (Except LookupError α) :=
  match l.values path with
  | .error e => [.error (.load e)]
  | .ok vs => upToError (vs.map (decode shape path))

end Loader

end AsmAssist.Config
