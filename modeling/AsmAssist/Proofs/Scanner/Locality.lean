import AsmAssist.Proofs.Scanner.Language
import AsmAssist.Proofs.Token.Relocation

/- Scanning is local. A text that was read to its end shows the same tokens before any text that does
   not go on its last word, and that text shows what it shows on its own, only further right. A gap
   shows nothing, so it does not matter that gaps on both sides of a seam are read as one. -/

namespace AsmAssist

def ScanError.relocate (f : Position → Position) (e : ScanError) : ScanError :=
  { e with position := f e.position }

namespace Scan

open Scanner (Piece)

def relocate (f : Position → Position) (s : Scan) : Scan :=
  ⟨s.tokens.map (Token.relocate f), s.error.map (ScanError.relocate f)⟩

/-- The scan after tokens that were shown before it. -/
def prepend (tokens : List Token) (s : Scan) : Scan := ⟨tokens ++ s.tokens, s.error⟩

/-- A token in a scan, where hidden tokens are left out. -/
def shown (t : Token) : List Token := if t.kind.isHidden then [] else [t]

theorem visible_cons (p : Piece) (pieces : List Piece) :
    visible (p :: pieces) = shown p.token ++ visible pieces := by
  cases hhidden : p.token.kind.isHidden <;> simp [visible, shown, hhidden]

end Scan

namespace Scanner

open Lexeme (first? Cut Gaps Halts gapLength)
open Scan (shown visible visible_cons ofEntries view_of_run)

/-- What is shown from a place on. -/
def view (s : Scanner) : Scan := ofEntries s.drain.1

def relocate (f : Position → Position) (s : Scanner) : Scanner :=
  { s with position := f s.position }

def Piece.relocate (f : Position → Position) (p : Piece) : Piece :=
  { p with token := p.token.relocate f }

section Relocate

variable {f : Position → Position}
  (hf : ∀ (p : Position) (columns : Int), f (p.moveRight columns) = (f p).moveRight columns)

include hf

theorem Reads.relocate {s s' : Scanner} {pieces : List Piece} (h : Reads s pieces s') :
    Reads (s.relocate f) (pieces.map (Piece.relocate f)) (s'.relocate f) := by
  induction h with
  | stop s => exact .stop _
  | @step kind cut text rest position pieces s' htakes _ ih =>
      have htoken : (tokenAt position kind cut text).relocate f =
          tokenAt (f position) kind cut text := by
        simp only [tokenAt, Token.relocate, Token.relocatePayload, Range.relocate, hf]
      simp only [Scanner.relocate, hf] at ih
      simp only [List.map_cons, Piece.relocate, htoken]
      exact .step htakes ih

/-- Places do not matter to what is read. -/
theorem view_relocate (s : Scanner) : (s.relocate f).view = s.view.relocate f := by
  obtain ⟨hreads, final, hend, -⟩ := drain_reads s
  generalize pieces _ _ = pieces at hreads
  have hvisible : visible (pieces.map (Piece.relocate f)) =
      (visible pieces).map (Token.relocate f) := by
    simp only [visible, List.map_map, List.filter_map, Function.comp_def, Piece.relocate,
      Token.relocate_kind]
  have hmoved := hreads.relocate hf
  rw [view, view, view_of_run hreads hend]
  cases hend with
  | finished hrest => rw [view_of_run hmoved (.finished hrest), hvisible]; rfl
  | failure hrest hfirst => rw [view_of_run hmoved (.failure hrest hfirst), hvisible]; rfl

end Relocate

theorem view_take {kind : Kind} {cut : Cut} {text rest : Bytes} (h : Takes kind cut text rest)
    (position : Position) :
    view ⟨text ++ rest, position⟩ =
      (view ⟨rest, position.moveRight text.runeCount⟩).prepend
        (shown (tokenAt position kind cut text)) := by
  obtain ⟨hreads, final, hend, -⟩ := drain_reads ⟨rest, position.moveRight text.runeCount⟩
  rw [view, view, view_of_run (.step h hreads) hend, view_of_run hreads hend, visible_cons]
  rfl

theorem Reads.eq_of_rest_nil {s s' : Scanner} {pieces : List Piece} (h : Reads s pieces s')
    (hrest : s.rest = []) : pieces = [] ∧ s' = s := by
  cases h with
  | stop => exact ⟨rfl, rfl⟩
  | step htakes _ => exact absurd (List.append_eq_nil_iff.mp hrest).1 htakes.ne_nil

theorem view_gaps_stop {g r : Bytes} (hg : Gaps g) (hr : gapLength 0 r = 0) (position : Position) :
    view ⟨g ++ r, position⟩ = view ⟨r, position.moveRight g.runeCount⟩ := by
  by_cases hne : g = []
  · subst hne
    change view ⟨r, position⟩ = view ⟨r, position.moveRight 0⟩
    rw [Position.moveRight_zero]
  · exact view_take ⟨Lexeme.first?_gaps hg hne hr, rfl, hne, hg.lexable⟩ position

/-- A gap shows nothing, also where the text after it goes on with a gap. -/
theorem view_gaps {g : Bytes} (hg : Gaps g) (r : Bytes) (position : Position) :
    view ⟨g ++ r, position⟩ = view ⟨r, position.moveRight g.runeCount⟩ := by
  obtain ⟨more, rest, rfl, hmore, hstop⟩ := Lexeme.gap_run r
  rw [← List.append_assoc, view_gaps_stop (hg.append hmore) hstop, view_gaps_stop hmore hstop,
    Bytes.runeCount_append (hg.lexable.splits _), Position.moveRight_moveRight, Int.natCast_add]

/-- The pieces of a text that was read to its end are shown before whatever follows it. -/
theorem Reads.view_append {s t : Scanner} {pieces : List Piece} (h : Reads s pieces t)
    (ht : t.rest = []) {r : Bytes} (hr : Halts r) :
    view ⟨s.rest ++ r, s.position⟩ = (view ⟨r, t.position⟩).prepend (visible pieces) := by
  induction h with
  | stop s =>
      rw [ht]
      rfl
  | @step kind cut text rest position pieces t htakes hrest ih =>
      by_cases hgap : Gaps (text ++ rest)
      · -- Nothing but a gap: it is read whole, and it is hidden.
        have hwhole := Lexeme.first?_gaps (r := []) hgap (by simp [htakes.ne_nil]) rfl
        rw [List.append_nil, htakes.found] at hwhole
        cases hwhole
        have hnil : rest = [] := by
          have hlen := htakes.length_eq
          simp only [List.length_append] at hlen
          exact List.length_eq_zero_iff.mp (by omega)
        subst hnil
        obtain ⟨rfl, rfl⟩ := hrest.eq_of_rest_nil rfl
        simp only [List.append_nil] at hgap ⊢
        exact view_gaps hgap r position
      · -- Anything else is cut as before, whether or not a gap follows.
        have hlexable : Lexeme.Lexable (text ++ rest) := by
          have hrest_eq : rest = texts pieces ++ t.rest := hrest.rest_eq
          rw [hrest_eq, ht, List.append_nil]
          exact htakes.lexable.append hrest.lexable
        have hsame : first? (text ++ (rest ++ r)) = some (kind, cut) := by
          rw [← List.append_assoc, ← htakes.found]
          exact Lexeme.first?_append hlexable (by simp [htakes.ne_nil])
            ⟨hr, fun hgaps => absurd hgaps hgap⟩
        rw [List.append_assoc,
          view_take ⟨hsame, htakes.length_eq, htakes.ne_nil, htakes.lexable⟩, ih ht, visible_cons]
        simp only [Scan.prepend, List.append_assoc]

end Scanner

namespace Scan

open Lexeme (Gaps Halts)
open Scanner (view)

/-- A text shows the same from any column on. -/
theorem view_at (text : Bytes) (lineNumber column : Int) :
    view ⟨text, ⟨lineNumber, column⟩⟩ = (line text lineNumber).relocate (·.moveRight column) := by
  have hmoved := Scanner.view_relocate (f := (·.moveRight column))
    (fun p columns => by simp only [Position.moveRight_moveRight, Int.add_comm])
    (.start text lineNumber)
  have hstart : (Scanner.start text lineNumber).relocate (·.moveRight column) =
      ⟨text, ⟨lineNumber, column⟩⟩ := by
    simp only [Scanner.relocate, Scanner.start, Position.moveRight, Int.zero_add]
  rw [← hstart, hmoved]
  rfl

/-- A text that was read to its end is shown before any text that does not go on its last word. -/
theorem line_append {a r : Bytes} {lineNumber : Int} (ha : (line a lineNumber).error = none)
    (hr : Halts r) :
    line (a ++ r) lineNumber =
      (view ⟨r, ⟨lineNumber, a.runeCount⟩⟩).prepend (line a lineNumber).tokens := by
  obtain ⟨pieces, hreads, -, htokens⟩ := complete_run ha
  rw [htokens]
  exact hreads.view_append rfl hr

/-- The marks between operands, with their kinds. -/
def operandMarks : List (Bytes × Kind) :=
  [(.ofString ",", .comma), (.ofString "<-", .comma), (.ofString "(", .leftParen),
    (.ofString ")", .rightParen), (.ofString "+", .sumOperator), (.ofString "-", .sumOperator),
    (.ofString "&", .wordOperator), (.ofString "|", .wordOperator), (.ofString "*", .wordOperator),
    (.ofString "^", .wordOperator)]

def otherMarks : List (Bytes × Kind) :=
  [(.ofString "[", .leftBracket), (.ofString "]", .rightBracket), (.ofString ":", .colon)]

/-- What separates two texts, with the kind that it is read as: a gap or a mark. -/
inductive Separator : Bytes → Kind → Prop
  | gap {g : Bytes} : Gaps g → g ≠ [] → Separator g .space
  | mark {sep : Bytes} {kind : Kind} : (sep, kind) ∈ operandMarks ++ otherMarks → Separator sep kind

def colon : Bytes := .ofString ":"

theorem separator_colon : Separator colon .colon := .mark (by simp [otherMarks, colon])

def separatorToken (kind : Kind) (sep : Bytes) (position : Position) : Token :=
  ⟨kind, .raw sep, ⟨position, position.moveRight sep.runeCount⟩⟩

theorem first?_mark : ∀ m ∈ operandMarks ++ otherMarks, ∀ rest,
    Lexeme.first? (m.1 ++ rest) = some (m.2, ⟨m.1.length, m.1⟩) := by
  simp only [operandMarks, otherMarks, List.forall_mem_append, List.forall_mem_cons]
  refine ⟨⟨?_, ?_, ?_, ?_, ?_, ?_, ?_, ?_, ?_, ?_, by simp⟩, ?_, ?_, ?_, by simp⟩
  all_goals exact fun rest => rfl

theorem mark_plain : ∀ m ∈ operandMarks ++ otherMarks,
    m.1 ≠ [] ∧ Lexeme.isPlain m.1 = true ∧ m.1.head?.all (!Ascii.isWord ·) = true := by
  decide

namespace Separator

variable {sep : Bytes} {kind : Kind}

theorem ne_nil (h : Separator sep kind) : sep ≠ [] := by
  cases h with
  | gap _ hne => exact hne
  | mark hm => exact (mark_plain _ hm).1

theorem halts (h : Separator sep kind) : Halts sep := by
  cases h with
  | gap hg _ => exact hg.halts
  | mark hm => simpa [Halts, Option.all_eq_true] using (mark_plain _ hm).2.2

theorem view_append (h : Separator sep kind) (b : Bytes) (position : Position) :
    view ⟨sep ++ b, position⟩ =
      (view ⟨b, position.moveRight sep.runeCount⟩).prepend
        (shown (separatorToken kind sep position)) := by
  cases h with
  | gap hg _ => exact Scanner.view_gaps hg b position
  | mark hm =>
      obtain ⟨hne, hplain, -⟩ := mark_plain _ hm
      have hlexable := (Lexeme.plain_lexable_firm hplain).1
      exact Scanner.view_take ⟨first?_mark _ hm b, rfl, hne, hlexable⟩ position

end Separator

theorem line_separator {a sep : Bytes} {kind : Kind} {lineNumber : Int}
    (ha : (line a lineNumber).error = none) (hsep : Separator sep kind) (b : Bytes) :
    line (a ++ sep ++ b) lineNumber =
      ((line b lineNumber).relocate (·.moveRight (a ++ sep).runeCount)).prepend
        ((line a lineNumber).tokens ++ shown (separatorToken kind sep ⟨lineNumber, a.runeCount⟩)) := by
  rw [List.append_assoc, line_append ha (hsep.halts.append hsep.ne_nil b), hsep.view_append b,
    ← view_at, runeCount_append_of_complete ha]
  simp only [prepend, Position.moveRight, List.append_assoc]

/-- Neither side of a separator changes how the other is read. -/
theorem scan_is_local {a sep : Bytes} {kind : Kind} {lineNumber : Int}
    (ha : (line a lineNumber).error = none) (hsep : Separator sep kind) (b : Bytes) :
    (line (a ++ sep ++ b) lineNumber).tokens =
      (line a lineNumber).tokens ++
        shown (separatorToken kind sep ⟨lineNumber, a.runeCount⟩) ++
        (line b lineNumber).tokens.map (Token.moveRight (a ++ sep).runeCount) ∧
    ((line (a ++ sep ++ b) lineNumber).error = none ↔ (line b lineNumber).error = none) ∧
    ∀ e, (line b lineNumber).error = some e →
      ∃ e', (line (a ++ sep ++ b) lineNumber).error = some e' ∧
        e'.position = e.position.moveRight (a ++ sep).runeCount ∧ e'.rune = e.rune ∧
        e'.reason = e.reason := by
  rw [line_separator ha hsep b]
  refine ⟨rfl, Option.map_eq_none_iff, ?_⟩
  intro e he
  exact ⟨_, congrArg (Option.map _) he, rfl, rfl, rfl⟩

theorem scan_is_local_at_gap :
    (line (.ofString "ld r1 ") 2).error = none ∧ Separator (.ofString "\t") .space ∧
      (line (.ofString " 0x1f #") 2).error = some ⟨⟨2, 6⟩, '#'⟩ ∧
      (line (.ofString "ld r1 " ++ .ofString "\t" ++ .ofString " 0x1f #") 2).tokens =
        (line (.ofString "ld r1 ") 2).tokens ++ [] ++
          (line (.ofString " 0x1f #") 2).tokens.map (Token.moveRight 7) ∧
      ∃ e, (line (.ofString "ld r1 " ++ .ofString "\t" ++ .ofString " 0x1f #") 2).error = some e ∧
        e.position = ⟨2, 13⟩ ∧ e.rune = '#' := by
  have ha : (line (.ofString "ld r1 ") 2).error = none := by decide
  have hsep : Separator (.ofString "\t") .space :=
    .gap (Gaps.cons (c := '\t') (by decide) .nil) (by decide)
  have hb : (line (.ofString " 0x1f #") 2).error = some ⟨⟨2, 6⟩, '#'⟩ := by decide
  obtain ⟨htokens, -, herror⟩ := scan_is_local ha hsep (.ofString " 0x1f #")
  obtain ⟨e, he, hposition, hrune, -⟩ := herror _ hb
  exact ⟨ha, hsep, hb, htokens, e, he, hposition, hrune⟩

end Scan

end AsmAssist
