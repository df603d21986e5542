import AsmAssist.Proofs.Journal.Line
import Mathlib.Data.List.Induction

/- Loggers after any requests. However a logger is derived, the handler that tags records stays around
   its sink, and the sink holds the groups that were opened since the last return to the first logger. The
   level is kept at the desk, so whoever logs finds the one that was set last. -/

namespace AsmAssist.Journal

open Lines (lineFeed)

namespace Request

/-- The level that a request sets. -/
def level? : Request → Option Level
  | setLevel level => some level
  | _ => none

/-- The group that a request opens. -/
def group? : Request → Option Bytes
  | withGroup name => if name.isEmpty then none else some name
  | _ => none

def isReset : Request → Bool
  | reset => true
  | _ => false

/-- The level that was set last. -/
def levelInForce (initial : Level) (requests : List Request) : Level :=
  (requests.filterMap level?).getLast?.getD initial

/-- The requests by which the logger was derived: those behind the last return to the first logger. -/
def sinceReset (requests : List Request) : List Request :=
  (requests.reverse.takeWhile (!·.isReset)).reverse

/-- The groups that are open, the outermost first. -/
def openGroups (requests : List Request) : List Bytes := (sinceReset requests).filterMap group?

/-- The groups that are open behind a request. -/
def groupsAfter (groups : List Bytes) : Request → List Bytes
  | reset => []
  | withGroup name => if name.isEmpty then groups else groups ++ [name]
  | _ => groups

theorem levelInForce_concat (initial : Level) (requests : List Request) (request : Request) :
    levelInForce initial (requests ++ [request]) =
      request.level?.getD (levelInForce initial requests) := by
  rw [levelInForce, List.filterMap_append]
  cases hlevel : request.level? with
  | none => simp [hlevel, levelInForce]
  | some level => simp [hlevel]

theorem openGroups_kept {request : Request} (h : request.isReset = false) (requests : List Request) :
    openGroups (requests ++ [request]) = openGroups requests ++ request.group?.toList := by
  have hsince : sinceReset (requests ++ [request]) = sinceReset requests ++ [request] := by
    simp [sinceReset, h]
  rw [openGroups, hsince, List.filterMap_append]
  cases hgroup : request.group? with
  | none => simp [hgroup, openGroups]
  | some name => simp [hgroup, openGroups]

theorem openGroups_concat (requests : List Request) (request : Request) :
    openGroups (requests ++ [request]) = groupsAfter (openGroups requests) request := by
  cases request with
  | reset => simp [openGroups, sinceReset, isReset, groupsAfter]
  | withGroup name =>
      rw [openGroups_kept rfl, group?, groupsAfter]
      split <;> simp
  | setLevel | withAttributes | log => exact (openGroups_kept rfl requests).trans (List.append_nil _)

end Request

/-! ### Deriving keeps the tag -/

/-- A logger that still tags what it hands on to its sink, in which the groups are open. -/
def Derived (groups : List Bytes) (l : Logger) : Prop :=
  ∃ written, lineFeed ∉ written ∧ l = ⟨.tagging (.fanOut [⟨written, groups⟩])⟩

theorem derived_root : Derived [] .root := ⟨[], List.not_mem_nil, rfl⟩

variable {groups : List Bytes} {l : Logger} {d : Desk}

theorem Derived.withAttributes (h : Derived groups l) (attributes : List Attribute) :
    Derived groups (l.withAttributes attributes) := by
  obtain ⟨written, hwritten, rfl⟩ := h
  unfold Logger.withAttributes
  split
  · exact ⟨written, hwritten, rfl⟩
  · refine ⟨written ++ renderAttributes groups attributes, ?_, rfl⟩
    exact fun hmem => (List.mem_append.mp hmem).elim hwritten (unbroken_renderAttributes _ _)

theorem Derived.withGroup (h : Derived groups l) (name : Bytes) :
    Derived (Request.groupsAfter groups (.withGroup name)) (l.withGroup name) := by
  obtain ⟨written, hwritten, rfl⟩ := h
  unfold Logger.withGroup Request.groupsAfter
  dsimp only
  split <;> exact ⟨written, hwritten, rfl⟩

/-- One request: whatever it is, the logger still tags, and the groups are as it says. -/
theorem Derived.serve (h : Derived groups d.logger) (request : Request) :
    Derived (request.groupsAfter groups) (d.serve request).2.logger := by
  cases request with
  | setLevel level => exact h
  | withAttributes attributes => exact h.withAttributes attributes
  | withGroup name => exact h.withGroup name
  | reset => exact derived_root
  | log record => exact h

theorem serve_threshold (d : Desk) (request : Request) :
    (d.serve request).2.threshold = request.level?.getD d.threshold := by
  cases request <;> rfl

/-! ### Any number of requests -/

namespace Desk

/-- The desk when requests have been served. -/
def after (d : Desk) : List Request → Desk
  | [] => d
  | request :: requests => (d.serve request).2.after requests

theorem after_concat (d : Desk) (requests : List Request) (request : Request) :
    d.after (requests ++ [request]) = ((d.after requests).serve request).2 := by
  induction requests generalizing d with
  | nil => rfl
  | cons first requests ih => exact ih (d.serve first).2

theorem serveAll_append (d : Desk) (requests later : List Request) :
    d.serveAll (requests ++ later) = d.serveAll requests ++ (d.after requests).serveAll later := by
  induction requests generalizing d with
  | nil => rfl
  | cons request requests ih => simp only [List.cons_append, serveAll, after, ih]

theorem length_serveAll (d : Desk) (requests : List Request) :
    (d.serveAll requests).length = requests.length := by
  induction requests generalizing d with
  | nil => rfl
  | cons request requests ih => simp only [serveAll, List.length_cons, ih]

/-- The lines of a request in a sequence are those that it gives at the desk left by the ones before. -/
theorem lines_of_request (d : Desk) (before later : List Request) (request : Request) :
    (d.serveAll (before ++ request :: later))[before.length]? =
      some ((d.after before).serve request).1 := by
  rw [serveAll_append, List.getElem?_append_right (Nat.le_of_eq (d.length_serveAll before)),
    length_serveAll, Nat.sub_self]
  rfl

theorem after_threshold (initial : Level) (requests : List Request) :
    ((Desk.mk initial .root).after requests).threshold = Request.levelInForce initial requests := by
  induction requests using List.reverseRecOn with
  | nil => rfl
  | append_singleton requests request ih =>
      rw [after_concat, serve_threshold, ih, Request.levelInForce_concat]

theorem after_derived (initial : Level) (requests : List Request) :
    Derived (Request.openGroups requests) ((Desk.mk initial .root).after requests).logger := by
  induction requests using List.reverseRecOn with
  | nil => exact derived_root
  | append_singleton requests request ih =>
      rw [after_concat, Request.openGroups_concat]
      exact ih.serve request

end Desk

/-! ### The line of a record -/

/-- The feature as an attribute in the open groups. -/
def featureText (groups : List Bytes) (name : Bytes) : Bytes :=
  .ofString " " ++ qualifiedKey groups (.ofString "feature") ++ .ofString "=" ++ word name

theorem renderAttributes_append (groups : List Bytes) (attributes more : List Attribute) :
    renderAttributes groups (attributes ++ more) =
      renderAttributes groups attributes ++ renderAttributes groups more := by
  simp only [renderAttributes, List.filter_append, List.flatMap_append]

theorem render_tagged (s : Sink) (level : Level) (message : Bytes) (attributes : List Attribute)
    (name : Bytes) :
    s.render (Record.tagged ⟨level, message, attributes, some name⟩) =
      s.render (Record.tagged ⟨level, message, attributes, none⟩) ++ featureText s.groups name := by
  have hfeature : renderAttributes s.groups [⟨.ofString "feature", .text name⟩] =
      featureText s.groups name := by
    simp [renderAttributes, featureText, Attribute.isBlank, Value.render]
  simp only [Sink.render, Record.tagged, renderAttributes_append, hfeature, List.append_assoc]

/-- A derived logger writes one line or none, and the line of a record that is logged while a feature is
    served is the line that it would have otherwise, and the feature behind it. -/
theorem Derived.log (h : Derived groups l) (level : Level) (message : Bytes)
    (attributes : List Attribute) :
    ∃ line : Option Bytes → Bytes,
      (∀ threshold feature, l.log threshold ⟨level, message, attributes, feature⟩ =
        if threshold.rank ≤ level.rank then [line feature] else []) ∧
      (∀ feature, lineFeed ∉ line feature) ∧
      ∀ name, line (some name) = line none ++ featureText groups name := by
  obtain ⟨written, hwritten, rfl⟩ := h
  refine ⟨fun feature => Sink.render ⟨written, groups⟩ (Record.tagged ⟨level, message, attributes, feature⟩),
    ?_, fun feature => Sink.unbroken_render hwritten _,
    render_tagged ⟨written, groups⟩ level message attributes⟩
  intro threshold feature
  by_cases hlevel : threshold.rank ≤ level.rank
  · cases feature <;>
      simp [Logger.log, Handler.takes, Handler.handle, Sink.takes, Record.tagged, hlevel]
  · simp [Logger.log, Handler.takes, Sink.takes, hlevel]

/-- Wherever a record is logged in a sequence of requests, it gives one line if its level is at least the
    one that was set last, and none otherwise, however the logger was derived. While a feature is served,
    the line is the one without it and the feature as one more attribute, in all the groups open then. -/
theorem feature_survives_derivation (initial : Level) (before later : List Request) (level : Level)
    (message : Bytes) (attributes : List Attribute) :
    ∃ line : Option Bytes → Bytes,
      (∀ feature, ((Desk.mk initial .root).serveAll
          (before ++ .log ⟨level, message, attributes, feature⟩ :: later))[before.length]? =
        some (if (Request.levelInForce initial before).rank ≤ level.rank then [line feature] else [])) ∧
      (∀ feature, lineFeed ∉ line feature) ∧
      ∀ name, line (some name) = line none ++ featureText (Request.openGroups before) name := by
  obtain ⟨line, hlog, hunbroken, htag⟩ :=
    (Desk.after_derived initial before).log level message attributes
  refine ⟨line, ?_, hunbroken, htag⟩
  intro feature
  rw [Desk.lines_of_request, ← Desk.after_threshold initial before, ← hlog]
  rfl

-- The level is lowered after the group was opened, and the group holds the feature too.
example : (Desk.mk .warn .root).serveAll
    [.withGroup (.ofString "a b"), .setLevel .debug,
      .log ⟨.info, .ofString "hit", [], some (.ofString "definition")⟩] =
    [[], [], [.ofString "level=INFO msg=hit \"a b.feature\"=definition"]] := by decide +kernel

end AsmAssist.Journal
