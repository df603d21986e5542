import AsmAssist.Journal.Record

/- Loggers. A record passes through the handlers of a logger, of which one adds the feature that is
   being served and one hands the record to sinks that write lines. A logger is derived by deriving
   each of its handlers. The level is shared, so a change of it holds for every logger. -/

namespace AsmAssist.Journal

/-- What is logged, and the feature that is served meanwhile. -/
structure Record where
  level : Level
  message : Bytes
  attributes : List Attribute
  feature : Option Bytes
deriving DecidableEq, Repr

/-- A record with the feature as its last attribute, if one is served. -/
def Record.tagged (r : Record) : Record :=
  match r.feature with
  | some name =>
      { r with attributes := r.attributes ++ [⟨.ofString "feature", .text name⟩] }
  | none => r

/-- What has been given to a sink: the attributes written so far and the groups open now. -/
structure Sink where
  written : Bytes
  groups : List Bytes
deriving DecidableEq, Repr

namespace Sink

def blank : Sink := ⟨[], []⟩

/-- Attributes belong to the groups that are open when they are given. -/
def withAttributes (s : Sink) (attributes : List Attribute) : Sink :=
  { s with written := s.written ++ renderAttributes s.groups attributes }

def withGroup (s : Sink) (name : Bytes) : Sink := { s with groups := s.groups ++ [name] }

/-- Whether a sink takes records of a level. It asks for the level in force each time. -/
def takes (_ : Sink) (threshold level : Level) : Bool := threshold.rank ≤ level.rank

def render (s : Sink) (r : Record) : Bytes :=
  renderHead r.level r.message ++ s.written ++ renderAttributes s.groups r.attributes

end Sink

/-- What a record passes through: handlers that tag it, and at the end the sinks. -/
inductive Handler where
  | fanOut (sinks : List Sink)
  | tagging (inner : Handler)
deriving DecidableEq, Repr

namespace Handler

def withAttributes (attributes : List Attribute) : Handler → Handler
  | fanOut sinks => fanOut (sinks.map (·.withAttributes attributes))
  | tagging inner => tagging (inner.withAttributes attributes)

def withGroup (name : Bytes) : Handler → Handler
  | fanOut sinks => fanOut (sinks.map (·.withGroup name))
  | tagging inner => tagging (inner.withGroup name)

def takes (threshold level : Level) : Handler → Bool
  | fanOut sinks => sinks.any (·.takes threshold level)
  | tagging inner => inner.takes threshold level

/-- The lines that a record gives, one for each sink that takes it. -/
def handle (threshold : Level) : Handler → Record → List Bytes
  | fanOut sinks, r => (sinks.filter (·.takes threshold r.level)).map (·.render r)
  | tagging inner, r => inner.handle threshold r.tagged

end Handler

structure Logger where
  handler : Handler
deriving DecidableEq, Repr

namespace Logger

def root : Logger := ⟨.tagging (.fanOut [.blank])⟩

def withAttributes (l : Logger) (attributes : List Attribute) : Logger :=
  if attributes.isEmpty then l else ⟨l.handler.withAttributes attributes⟩

/-- Opens a group; a group without a name is none. -/
def withGroup (l : Logger) (name : Bytes) : Logger :=
  if name.isEmpty then l else ⟨l.handler.withGroup name⟩

/-- The lines a record gives at the level in force, none when it is below. -/
def log (l : Logger) (threshold : Level) (r : Record) : List Bytes :=
  if l.handler.takes threshold r.level then l.handler.handle threshold r else []

end Logger

inductive Request where
  | setLevel (level : Level)
  | withAttributes (attributes : List Attribute)
  | withGroup (name : Bytes)
  | reset
  | log (record : Record)

structure Desk where
  threshold : Level
  logger : Logger

/-- Serves a request and gives the lines it wrote. -/
def Desk.serve (d : Desk) : Request → List Bytes × Desk
  | .setLevel level => ([], { d with threshold := level })
  | .withAttributes attributes => ([], { d with logger := d.logger.withAttributes attributes })
  | .withGroup name => ([], { d with logger := d.logger.withGroup name })
  | .reset => ([], { d with logger := .root })
  | .log record => (d.logger.log d.threshold record, d)

def Desk.serveAll (d : Desk) : List Request → List (List Bytes)
  | [] => []
  | request :: requests =>
      let (lines, d') := d.serve request
      lines :: serveAll d' requests

end AsmAssist.Journal
