import AsmAssist.Proofs.Folding.Locality
import AsmAssist.Proofs.Symbol.Composition

/- Labels in front of a line. Each is read as a word and a colon, whatever follows, and folds into one
   label, for no window of folding reaches over the colon of a label. So the instruction behind the
   labels is the one of the line without them, moved right by their text. -/

namespace AsmAssist

namespace Scan

open Lexeme (Halts)
open Scanner (view)

/-- A text that was read to its end is shown before what follows it, from any place on. -/
theorem view_append_of_complete {a r : Bytes} {position : Position}
    (ha : (line a position.line).error = none) (hr : Halts r) :
    view ⟨a ++ r, position⟩ =
      (view ⟨r, position.moveRight a.runeCount⟩).prepend
        ((line a position.line).tokens.map (Token.moveRight position.column)) := by
  have hmoved := Scanner.view_relocate (f := (·.moveRight position.column))
    (fun p columns => by simp only [Position.moveRight_moveRight, Int.add_comm])
    ⟨r, ⟨position.line, a.runeCount⟩⟩
  have hplace : (⟨r, ⟨position.line, a.runeCount⟩⟩ : Scanner).relocate
      (·.moveRight position.column) = ⟨r, position.moveRight a.runeCount⟩ := by
    simp only [Scanner.relocate, Position.moveRight, Int.add_comm]
  rw [hplace] at hmoved
  have hline := view_at (a ++ r) position.line position.column
  rw [line_append ha hr] at hline
  rw [hmoved]
  refine hline.trans ?_
  simp only [relocate, prepend, List.map_append]

end Scan

namespace Folding

/-- Words and colons in turn. -/
inductive LabelRow : List Token → Prop
  | nil : LabelRow []
  | cons {name colon : Token} {row : List Token} : name.kind = .word → colon.kind = .colon →
      LabelRow row → LabelRow (name :: colon :: row)

/-- A row of words and colons folds into labels, and what follows it folds as without it. -/
theorem LabelRow.reduce_append {row : List Token} (h : LabelRow row) (tokens : List Token) :
    ∃ labels, (∀ t ∈ labels, t.kind = .label) ∧ reduce (row ++ tokens) = labels ++ reduce tokens := by
  induction h with
  | nil => exact ⟨[], by simp, rfl⟩
  | @cons name colon row hname hcolon _ ih =>
      obtain ⟨labels, hlabels, hrest⟩ := ih
      refine ⟨labelRule.fold [name, colon] :: labels, List.forall_mem_cons.mpr ⟨rfl, hlabels⟩, ?_⟩
      rw [List.cons_append, List.cons_append, reduce_eq_pass, pass_label hname hcolon,
        ← reduce_eq_pass, hrest]
      rfl

end Folding

namespace Line

open Folding (LabelRow tokenize_of_complete reduce_relocate)
open Lexeme (Gaps Halts)
open Scan (colon)
open Scanner (view)

/-- A label as it may stand in front of a line: a text that is read as one word, a colon, and gaps
    before, between and after them. -/
structure LeadingLabel where
  before : Bytes
  word : Bytes
  between : Bytes
  after : Bytes
  before_gaps : Gaps before
  between_gaps : Gaps between
  after_gaps : Gaps after
  complete : (Scan.line word 0).error = none
  one_word : (Scan.line word 0).tokens.map Token.kind = [.word]

namespace LeadingLabel

def text (l : LeadingLabel) : Bytes := l.before ++ l.word ++ l.between ++ colon ++ l.after

/-- Labels in a row. -/
def textOf (labels : List LeadingLabel) : Bytes := labels.flatMap text

/-- A word is one word on every line. -/
theorem scan_word (l : LeadingLabel) (lineNumber : Int) :
    ∃ t, Scan.line l.word lineNumber = ⟨[t], none⟩ ∧ t.kind = .word := by
  obtain ⟨t, htokens, hkind⟩ := List.map_eq_singleton_iff.mp l.one_word
  have hline := Scan.line_moveDown l.word 0 lineNumber
  rw [Int.zero_add] at hline
  refine ⟨t.relocate (·.moveDown lineNumber), ?_, (Token.relocate_kind _ t).trans hkind⟩
  rw [hline, Scan.relocate, htokens, l.complete]
  rfl

theorem lexable_colon : Lexeme.Lexable colon :=
  (Lexeme.Atom.mark (b := ':'.toUInt8) (by decide)).lexable

theorem lexable_text (l : LeadingLabel) : Lexeme.Lexable l.text :=
  (((l.before_gaps.lexable.append (Scan.lexable_of_complete l.complete)).append
    l.between_gaps.lexable).append lexable_colon).append l.after_gaps.lexable

theorem runeCount_text (l : LeadingLabel) : l.text.runeCount =
    l.before.runeCount + l.word.runeCount + l.between.runeCount + colon.runeCount +
      l.after.runeCount := by
  have hword := Scan.lexable_of_complete l.complete
  simp only [text, List.append_assoc]
  rw [Bytes.runeCount_append (l.before_gaps.lexable.splits _), Bytes.runeCount_append (hword.splits _),
    Bytes.runeCount_append (l.between_gaps.lexable.splits _),
    Bytes.runeCount_append (lexable_colon.splits _)]
  omega

/-- What follows the word of a label does not continue it. -/
theorem halts_behind (l : LeadingLabel) (r : Bytes) : Halts (l.between ++ (colon ++ r)) := by
  have hcolon : Halts (colon ++ r) := Scan.separator_colon.halts.append Scan.separator_colon.ne_nil r
  by_cases hnil : l.between = []
  · rw [hnil]
    exact hcolon
  · exact l.between_gaps.halts.append hnil _

/-- A label in front of a text shows a word and a colon before what the text shows. -/
theorem view_text (l : LeadingLabel) (r : Bytes) (position : Position) :
    ∃ name mark, name.kind = .word ∧ mark.kind = .colon ∧
      view ⟨l.text ++ r, position⟩ =
        (view ⟨r, position.moveRight l.text.runeCount⟩).prepend [name, mark] := by
  obtain ⟨t, hword, hkind⟩ := l.scan_word (position.moveRight l.before.runeCount).line
  have hplace : position.moveRight l.text.runeCount =
      ((((position.moveRight l.before.runeCount).moveRight l.word.runeCount).moveRight
        l.between.runeCount).moveRight colon.runeCount).moveRight l.after.runeCount := by
    simp only [Position.moveRight_moveRight, runeCount_text, Int.natCast_add]
  have hsplit : l.text ++ r = l.before ++ (l.word ++ (l.between ++ (colon ++ (l.after ++ r)))) := by
    simp only [text, List.append_assoc]
  rw [hplace, hsplit, Scanner.view_gaps l.before_gaps,
    Scan.view_append_of_complete (congrArg Scan.error hword) (l.halts_behind _),
    Scanner.view_gaps l.between_gaps, Scan.separator_colon.view_append,
    Scanner.view_gaps l.after_gaps, hword]
  exact ⟨_, _, (Token.relocate_kind _ t).trans hkind, rfl, rfl⟩

/-- Labels in front of a text show a row of words and colons before what the text shows. -/
theorem view_textOf (labels : List LeadingLabel) (r : Bytes) (position : Position) :
    ∃ row, LabelRow row ∧ view ⟨textOf labels ++ r, position⟩ =
      (view ⟨r, position.moveRight (textOf labels).runeCount⟩).prepend row := by
  induction labels generalizing position with
  | nil =>
      refine ⟨[], .nil, ?_⟩
      change view ⟨r, position⟩ = view ⟨r, position.moveRight 0⟩
      rw [Position.moveRight_zero]
  | cons l labels ih =>
      obtain ⟨name, mark, hname, hmark, hfirst⟩ := l.view_text (textOf labels ++ r) position
      obtain ⟨row, hrow, hrest⟩ := ih (position.moveRight l.text.runeCount)
      refine ⟨name :: mark :: row, .cons hname hmark hrow, ?_⟩
      have htext : textOf (l :: labels) = l.text ++ textOf labels := List.flatMap_cons
      rw [htext, List.append_assoc, hfirst, hrest, Position.moveRight_moveRight,
        Bytes.runeCount_append (l.lexable_text.splits _), Int.natCast_add]
      rfl

end LeadingLabel

/-! ### The instruction behind labels -/

theorem dropLabels_append {labels : List Token} (h : ∀ t ∈ labels, t.kind = .label)
    (tokens : List Token) : dropLabels (labels ++ tokens) = dropLabels tokens :=
  List.dropWhile_append_of_pos fun t ht => by simp [h t ht]

theorem dropLabels_relocate (f : Position → Position) (tokens : List Token) :
    dropLabels (tokens.map (Token.relocate f)) = (dropLabels tokens).map (Token.relocate f) := by
  rw [dropLabels, List.dropWhile_map]
  simp only [Function.comp_def, Token.relocate_kind, dropLabels]

theorem markMnemonic_relocate (f : Position → Position) (tokens : List Token) :
    markMnemonic (tokens.map (Token.relocate f)) = (markMnemonic tokens).map (Token.relocate f) := by
  cases tokens with
  | nil => rfl
  | cons first rest =>
      cases first
      rfl

open LeadingLabel (textOf view_textOf)

theorem scan_behind_labels (labels : List LeadingLabel) (text : Bytes) (lineNumber : Int) :
    ∃ row, LabelRow row ∧ Scan.line (textOf labels ++ text) lineNumber =
      ((Scan.line text lineNumber).relocate (·.moveRight (textOf labels).runeCount)).prepend row := by
  obtain ⟨row, hrow, hview⟩ := view_textOf labels text ⟨lineNumber, 0⟩
  refine ⟨row, hrow, hview.trans ?_⟩
  rw [← Scan.view_at]
  simp only [Position.moveRight, Int.zero_add]

/-- Behind labels a line has the instruction that it has without them, further right. -/
theorem instruction_behind_labels (labels : List LeadingLabel) {text : Bytes} {lineNumber : Int}
    (h : (Scan.line text lineNumber).error = none) :
    instruction (textOf labels ++ text) lineNumber =
      (instruction text lineNumber).map (Token.moveRight (textOf labels).runeCount) := by
  obtain ⟨row, hrow, hscan⟩ := scan_behind_labels labels text lineNumber
  have hcomplete : (Scan.line (textOf labels ++ text) lineNumber).error = none := by
    rw [hscan]
    exact Option.map_eq_none_iff.mpr h
  obtain ⟨folded, hfolded, hreduce⟩ := hrow.reduce_append
    ((Scan.line text lineNumber).tokens.map (Token.moveRight (textOf labels).runeCount))
  have htokens : tokenize (textOf labels ++ text) lineNumber = folded ++
      (tokenize text lineNumber).map (Token.moveRight (textOf labels).runeCount) := by
    rw [tokenize_of_complete hcomplete, tokenize_of_complete h, hscan, ← reduce_relocate]
    exact hreduce
  rw [instruction, htokens, dropLabels_append hfolded, dropLabels_relocate, markMnemonic_relocate]
  rfl

end Line

end AsmAssist
