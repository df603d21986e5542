import AsmAssist.Proofs.Lexeme.Word
import AsmAssist.Proofs.Scanner.Spacing
import AsmAssist.Proofs.Symbol.Composition

/- Which names a label can declare. A word before a colon is a label only if it is one lexeme. A
   shadowed word is cut in two or taken for something else, and then its line declares nothing, for
   what is left of the word no longer stands in front. -/

namespace AsmAssist

/-- Every byte of a word is a character. -/
theorem Bytes.runeCount_word {w : Bytes} (hw : ∀ b ∈ w, Ascii.isWord b = true) :
    w.runeCount = w.length := by
  induction w with
  | nil => rfl
  | cons b w ih =>
      obtain ⟨hb, hw⟩ := List.forall_mem_cons.mp hw
      have hone : runeCount [b] = 1 := rfl
      rw [← List.singleton_append, runeCount_append ((Lexeme.Atom.word hb).splits w), hone, ih hw,
        List.length_append, List.length_singleton]

namespace Scan

/-- The first token of a line is its first lexeme, if that is not hidden. -/
theorem head_of_first? {text : Bytes} {kind : Kind} {cut : Lexeme.Cut}
    (h : Lexeme.first? text = some (kind, cut)) (hshown : kind.isHidden = false) (lineNumber : Int) :
    ∃ t more, (line text lineNumber).tokens = t :: more ∧ t.kind = kind := by
  obtain ⟨piece, rest, rfl, hlen, hne, hlexable⟩ := Lexeme.first?_readable h
  have hview := Scanner.view_take ⟨h, hlen, hne, hlexable⟩ ⟨lineNumber, 0⟩
  change line (piece ++ rest) lineNumber = _ at hview
  rw [hview]
  simp only [shown, Scanner.tokenAt, hshown]
  exact ⟨_, _, rfl, rfl⟩

/-- A colon behind a text that was read to its end is one more token. -/
theorem line_colon {text : Bytes} {lineNumber : Int} (h : (line text lineNumber).error = none) :
    line (text ++ colon) lineNumber =
      ⟨(line text lineNumber).tokens ++
        [separatorToken .colon colon ⟨lineNumber, text.runeCount⟩], none⟩ := by
  have hseam := line_separator h separator_colon []
  rw [List.append_nil] at hseam
  have hnothing : line [] lineNumber = ⟨[], none⟩ := rfl
  rw [hseam, hnothing]
  exact congrArg (Scan.mk · none) (List.append_nil _)

end Scan

namespace Symbol

open Lexeme (Shadowed)
open Lines (lineFeed)
open Scan (colon)

/-- A document of one line declares what that line declares. -/
theorem index_of_line {text : Bytes} (h : lineFeed ∉ text) :
    index text = entryPoint :: declared text 0 := by
  rw [index_eq_ofTexts, Sequence.splitOn_of_not_mem h]
  simp [ofTexts]

theorem leading_eq_nil {t : Token} (ht : t.kind ≠ .word) (tokens : List Token) :
    leading (t :: tokens) = [] := by
  cases tokens with
  | nil => rfl
  | cons u tokens => simp [leading, ht]

section Word

variable {w : Bytes} (hne : w ≠ []) (hw : ∀ b ∈ w, Ascii.isWord b = true)

include hw

theorem declared_colon (lineNumber : Int) :
    declared (w ++ colon) lineNumber = leading ((Scan.line w lineNumber).tokens ++
      [Scan.separatorToken .colon colon ⟨lineNumber, w.runeCount⟩]) := by
  rw [declared, Scan.line_colon (Scan.complete_of_lexable (Lexeme.lexable_of_words hw) lineNumber)]

theorem index_colon : index (w ++ colon) = entryPoint :: declared (w ++ colon) 0 := by
  apply index_of_line
  intro hmem
  rcases List.mem_append.mp hmem with hmem | hmem
  · exact absurd (hw lineFeed hmem) (by decide)
  · exact absurd hmem (by decide)

include hne

theorem declared_of_free (hfree : ¬ Shadowed w) (lineNumber : Int) :
    declared (w ++ colon) lineNumber =
      [⟨w, ⟨⟨lineNumber, 0⟩, ⟨lineNumber, w.length + 1⟩⟩⟩] := by
  have htakes := Scanner.takes_of_first? ((Lexeme.first?_word_iff hne hw).mpr hfree) rfl
  rw [declared_colon hw, Scan.line_of_takes htakes, Bytes.runeCount_word hw]
  rfl

theorem declared_of_shadowed (hshadowed : Shadowed w) (lineNumber : Int) :
    declared (w ++ colon) lineNumber = [] := by
  obtain ⟨b, s, rfl⟩ := List.exists_cons_of_ne_nil hne
  obtain ⟨kind, cut, hfirst⟩ := Lexeme.first?_of_atom (.word (hw b List.mem_cons_self)) s
  rw [List.singleton_append] at hfirst
  have hhidden : ∀ kind ∈ Lexeme.wordKinds, kind.isHidden = false := by decide
  have hkind := Lexeme.kind_of_word (hw b List.mem_cons_self) hfirst
  obtain ⟨t, more, htokens, rfl⟩ := Scan.head_of_first? hfirst (hhidden kind hkind) lineNumber
  rw [declared_colon hw, htokens, List.cons_append]
  exact leading_eq_nil (hshadowed.kind_ne_word hfirst) _

/-- A word before a colon is declared if and only if it is not shadowed; and a shadowed word before a
    colon declares nothing at all, not even a part of it. -/
theorem declarable_iff_not_shadowed :
    (index (w ++ colon) = [entryPoint, ⟨w, ⟨⟨0, 0⟩, ⟨0, w.length + 1⟩⟩⟩] ↔ ¬ Shadowed w) ∧
      (Shadowed w → index (w ++ colon) = [entryPoint]) := by
  have hlost : Shadowed w → index (w ++ colon) = [entryPoint] := by
    intro hshadowed
    rw [index_colon hw, declared_of_shadowed hne hw hshadowed]
  refine ⟨⟨?_, ?_⟩, hlost⟩
  · intro hindex hshadowed
    rw [hlost hshadowed] at hindex
    cases hindex
  · intro hfree
    rw [index_colon hw, declared_of_free hne hw hfree]

end Word

/-- An ordinary name may start with hexadecimal digits and the letter that closes them. -/
theorem cache_is_not_declarable :
    Bytes.ofString "cache" ≠ [] ∧ (∀ b ∈ Bytes.ofString "cache", Ascii.isWord b = true) ∧
      Shadowed (.ofString "cache") ∧ index (.ofString "cache" ++ colon) = [entryPoint] ∧
      ¬ Shadowed (.ofString "catch") := by
  have hne : Bytes.ofString "cache" ≠ [] := by decide
  have hw : ∀ b ∈ Bytes.ofString "cache", Ascii.isWord b = true := by
    decide +kernel
  have hsplit : Bytes.ofString "cache" = .ofString "cac" ++ 'h'.toUInt8 :: Bytes.ofString "e" := by
    decide
  have hshadowed : Shadowed (.ofString "cache") := by
    rw [hsplit]
    exact .hexadecimal (by decide) (by decide +kernel) (by decide)
  refine ⟨hne, hw, hshadowed, (declarable_iff_not_shadowed hne hw).2 hshadowed, ?_⟩
  exact (declarable_iff_not_shadowed (by decide) (by decide +kernel)).1.mp (by decide)

end Symbol

end AsmAssist
