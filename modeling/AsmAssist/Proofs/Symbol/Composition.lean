import AsmAssist.Proofs.Lines
import AsmAssist.Proofs.Symbol.Index

/- The index of a document that is put together from two. The labels of a text do not depend on a
   carriage return at its end, and they move with the number of the text. So the index can be read off
   the pieces between line feeds, and it does not matter how many carriage returns end a piece. -/

namespace AsmAssist

def Position.moveDown (p : Position) (lines : Int) : Position := ⟨p.line + lines, p.column⟩

namespace Scan

open Lines (carriageReturn)

theorem separator_return : Separator [carriageReturn] .space :=
  .gap (Lexeme.Gaps.cons (c := '\r') (by decide) .nil) (by decide)

theorem line_return {text : Bytes} {lineNumber : Int} (h : (line text lineNumber).error = none) :
    line (text ++ [carriageReturn]) lineNumber = line text lineNumber := by
  have hseam := line_separator h separator_return []
  rw [List.append_nil] at hseam
  have hshown : shown (separatorToken .space [carriageReturn] ⟨lineNumber, text.runeCount⟩) = [] := rfl
  have hnothing : line [] lineNumber = ⟨[], none⟩ := rfl
  rw [hseam, hshown, hnothing, List.append_nil, prepend, relocate, List.map_nil, List.append_nil,
    Option.map_none, ← h]

theorem line_moveDown (text : Bytes) (lineNumber lines : Int) :
    line text (lineNumber + lines) = (line text lineNumber).relocate (·.moveDown lines) :=
  Scanner.view_relocate (f := (·.moveDown lines)) (fun _ _ => rfl) (.start text lineNumber)

end Scan

namespace Symbol

open Lines (lineFeed carriageReturn withReturns)
open Sequence (splitOn)

def relocate (f : Position → Position) (s : Symbol) : Symbol := { s with range := s.range.relocate f }

/-- The symbol some lines further down. -/
abbrev moveDown (lines : Int) : Symbol → Symbol := relocate (·.moveDown lines)

/-! ### A carriage return at the end -/

/-- Nothing is declared where the text was not understood, and a carriage return neither completes a
    quotation nor the character that stopped the scanner. -/
theorem declared_return (text : Bytes) (lineNumber : Int) :
    declared (text ++ [carriageReturn]) lineNumber = declared text lineNumber := by
  cases herror : (Scan.line text lineNumber).error with
  | none => simp only [declared, Scan.line_return herror]
  | some e =>
      cases hreturn : (Scan.line (text ++ [carriageReturn]) lineNumber).error with
      | some e' => simp only [declared, herror, hreturn]
      | none =>
          -- A text that is understood with a blank at its end is understood without it.
          have hlexable := (Scan.lexable_of_complete hreturn).of_gap_end (by decide) (by decide)
          rw [Scan.complete_of_lexable hlexable] at herror
          cases herror

/-! ### Other lines -/

theorem leading_relocate (f : Position → Position) (tokens : List Token) :
    leading (tokens.map (Token.relocate f)) = (leading tokens).map (relocate f) := by
  fun_induction leading tokens with
  | case1 a b rest hpair ih =>
      simp only [List.map_cons, leading, Token.relocate_kind, hpair, and_self, if_true, ih]
      simp only [relocate, Token.text_relocate, Token.relocate_range, Range.relocate]
  | case2 a b rest hpair =>
      simp only [List.map_cons, leading, Token.relocate_kind, hpair, if_false, List.map_nil]
  | case3 tokens hshort =>
      rcases tokens with _ | ⟨a, _ | ⟨b, rest⟩⟩
      · rfl
      · rfl
      · exact absurd rfl (hshort a b rest)

theorem declared_moveDown (text : Bytes) (lineNumber lines : Int) :
    declared text (lineNumber + lines) = (declared text lineNumber).map (moveDown lines) := by
  simp only [declared, Scan.line_moveDown, Scan.relocate]
  cases (Scan.line text lineNumber).error with
  | none => exact leading_relocate _ _
  | some e => rfl

/-! ### The index -/

/-- The labels of texts in a row, the first of which has the given number. -/
def ofTexts (first : Nat) (texts : List Bytes) : List Symbol :=
  (texts.zipIdx first).flatMap fun x => declared x.1 x.2

theorem ofTexts_append (first : Nat) (texts more : List Bytes) :
    ofTexts first (texts ++ more) = ofTexts first texts ++ ofTexts (first + texts.length) more := by
  simp only [ofTexts, List.zipIdx_append, List.flatMap_append]

theorem ofTexts_moveDown (first lines : Nat) (texts : List Bytes) :
    ofTexts (first + lines) texts = (ofTexts first texts).map (moveDown lines) := by
  induction texts generalizing first with
  | nil => rfl
  | cons text texts ih =>
      have hrest := ih (first + 1)
      rw [Nat.add_right_comm] at hrest
      simp only [ofTexts] at hrest ⊢
      simp only [List.zipIdx_cons, List.flatMap_cons, List.map_append, hrest, Int.natCast_add,
        declared_moveDown]

/-- The index asks for no lines: the pieces between line feeds declare the same labels. -/
theorem index_eq_ofTexts (document : Bytes) :
    index document = entryPoint :: ofTexts 0 (splitOn lineFeed document) := by
  have hlines : (index document).tail = ofTexts 0 (Lines.of document) := by
    rw [index_tail, Lines.numbered, List.flatMap_map]
    rfl
  have hpieces : ofTexts 0 (Lines.of document) = ofTexts 0 (splitOn lineFeed document) :=
    Lines.flatMap_ofPieces (fun text n => declared text n) (fun text n => declared_return text n)
      (splitOn lineFeed document) 0
  rw [← hpieces, ← hlines]
  rfl

/-- A line feed parts the index: the labels after it are those of the second document, further down
    by the lines of the first. And carriage returns before all line feeds change nothing, whether or
    not there are some already. -/
theorem index_composes (d₁ d₂ d : Bytes) :
    index (d₁ ++ [lineFeed] ++ d₂) =
      index d₁ ++ (index d₂).tail.map (moveDown (Lines.of d₁).length) ∧
    index (withReturns d) = index d := by
  simp only [index_eq_ofTexts]
  constructor
  · have hlength : (Lines.of d₁).length = (splitOn lineFeed d₁).length := Lines.length_ofPieces _
    rw [List.append_assoc, List.singleton_append, Sequence.splitOn_append, ofTexts_append,
      ofTexts_moveDown, hlength]
    rfl
  · rw [Lines.splitOn_withReturns]
    exact congrArg (entryPoint :: ·) (Lines.flatMap_returned (fun text n => declared text n)
      (fun text n => declared_return text n) (splitOn lineFeed d) 0)

end Symbol

end AsmAssist
