import AsmAssist.Proofs.Lexeme.Retention
import AsmAssist.Proofs.Scanner.Coverage
import AsmAssist.Proofs.Scanner.Locality

/- Lines with their spacing made even. Lexemes that stood side by side without a gap are cut apart
   again when a blank is put between them: each is read alone as it was read in its line. -/

namespace AsmAssist

/-- What a token says, wherever it stands. -/
def Token.content (t : Token) : Kind × Bytes := (t.kind, t.text)

theorem Token.content_relocate (f : Position → Position) (t : Token) :
    (t.relocate f).content = t.content := by
  simp only [content, relocate_kind, text_relocate]

namespace Scanner

theorem Takes.alone {kind : Kind} {cut : Lexeme.Cut} {text rest : Bytes}
    (h : Takes kind cut text rest) : Takes kind cut text [] where
  found := by
    rw [List.append_nil]
    exact Lexeme.first?_alone h.found h.length_eq
  length_eq := h.length_eq
  ne_nil := h.ne_nil
  lexable := h.lexable

/-- A text that is cut off whole is a lexeme before nothing. -/
theorem takes_of_first? {kind : Kind} {cut : Lexeme.Cut} {text : Bytes}
    (h : Lexeme.first? text = some (kind, cut)) (hlen : text.length = cut.length) :
    Takes kind cut text [] := by
  obtain ⟨piece, rest, hsplit, hpiece, hne, hlexable⟩ := Lexeme.first?_readable h
  have hrest : rest = [] := by
    rw [hsplit, List.length_append] at hlen
    exact List.length_eq_zero_iff.mp (by omega)
  rw [hrest, List.append_nil] at hsplit
  rw [← hsplit] at hne hlexable
  exact ⟨by rw [List.append_nil, h], hlen, hne, hlexable⟩

end Scanner

namespace Scan

open Scanner (Piece Reads)

def blank : Bytes := [' '.toUInt8]

/-- The sources of the visible tokens of a line, with one blank between two of them. -/
def spaced (text : Bytes) (lineNumber : Int) : Bytes :=
  Bytes.join blank ((line text lineNumber).tokens.map (·.range.slice text))

theorem separator_blank : Separator blank .space :=
  .gap (Lexeme.Gaps.cons (c := ' ') (by decide) .nil) (List.cons_ne_nil _ _)

/-- A lexeme is a line of one token. -/
theorem line_of_takes {kind : Kind} {cut : Lexeme.Cut} {text : Bytes}
    (h : Scanner.Takes kind cut text []) (lineNumber : Int) :
    line text lineNumber = ⟨shown (Scanner.tokenAt ⟨lineNumber, 0⟩ kind cut text), none⟩ := by
  have hreads : Reads (.start (text ++ []) lineNumber) _ _ := .step h (.stop _)
  rw [List.append_nil] at hreads
  rw [line_of_run hreads (.finished rfl), visible_cons]
  simp only [visible, List.map_nil, List.filter_nil, List.append_nil, ofEntries]

/-- Texts that were read to their ends say the same side by side, with blanks between them. -/
theorem line_join {texts : List Bytes} {lineNumber : Int}
    (h : ∀ text ∈ texts, (line text lineNumber).error = none) :
    (line (Bytes.join blank texts) lineNumber).error = none ∧
      (line (Bytes.join blank texts) lineNumber).tokens.map Token.content =
        texts.flatMap fun text => (line text lineNumber).tokens.map Token.content := by
  fun_induction Bytes.join blank texts with
  | case1 => exact ⟨rfl, rfl⟩
  | case2 text => simpa using h
  | case3 text texts hne ih =>
      obtain ⟨htext, htexts⟩ := List.forall_mem_cons.mp h
      obtain ⟨herror, htokens⟩ := ih htexts
      have hhidden : ∀ position, shown (separatorToken .space blank position) = [] := fun _ => rfl
      rw [line_separator htext separator_blank]
      refine ⟨Option.map_eq_none_iff.mpr herror, ?_⟩
      simp only [prepend, relocate, hhidden, List.append_nil, List.map_append, List.map_map,
        Function.comp_def, Token.content_relocate, htokens, List.flatMap_cons]

theorem not_hidden_of_mem {text : Bytes} {lineNumber : Int} {t : Token}
    (h : t ∈ (line text lineNumber).tokens) : t.kind.isHidden = false := by
  obtain ⟨hreads, final, hend, -⟩ := Scanner.drain_reads (.start text lineNumber)
  rw [line_of_run hreads hend] at h
  simpa using (List.mem_filter.mp h).2

/-- Its source alone says what a visible token says. -/
theorem line_slice {text : Bytes} {lineNumber : Int} {t : Token}
    (h : t ∈ (line text lineNumber).tokens) (other : Int) :
    (line (t.range.slice text) other).error = none ∧
      (line (t.range.slice text) other).tokens.map Token.content = [t.content] := by
  have hshown := not_hidden_of_mem h
  obtain ⟨pieces, s, hreads, p, hp, rfl⟩ := piece_of_mem h
  obtain ⟨kind, cut, position, rest, htoken, htakes⟩ := hreads.taken p hp
  rw [hreads.slice_of_mem hp, line_of_takes htakes.alone]
  rw [htoken] at hshown ⊢
  have hkind : kind.isHidden = false := hshown
  refine ⟨rfl, ?_⟩
  simp only [shown, Scanner.tokenAt, hkind]
  rfl

/-- The sources of the tokens that a line shows, set apart by single blanks, are a line that is
    understood to its end and shows tokens of the same kinds and texts, whether or not the first line
    was understood to its end. -/
theorem spacing_keeps_tokens (text : Bytes) (lineNumber other : Int) :
    (line (spaced text lineNumber) other).error = none ∧
      (line (spaced text lineNumber) other).tokens.map Token.content =
        (line text lineNumber).tokens.map Token.content := by
  have halone : ∀ t ∈ (line text lineNumber).tokens,
      (line (t.range.slice text) other).error = none ∧
        (line (t.range.slice text) other).tokens.map Token.content = [t.content] :=
    fun t ht => line_slice ht other
  obtain ⟨herror, htokens⟩ :=
    line_join (List.forall_mem_map.mpr fun t ht => (halone t ht).1)
  refine ⟨herror, htokens.trans ?_⟩
  rw [List.flatMap_map, List.map_eq_flatMap]
  exact List.flatMap_congr fun t ht => (halone t ht).2

example : spaced (.ofString "shrink r100,0b12 #") 0 = .ofString "shr ink r10 0 , 0b1 2" := by decide

end Scan

end AsmAssist
