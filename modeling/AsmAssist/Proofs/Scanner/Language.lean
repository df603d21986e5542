import AsmAssist.Proofs.Scanner.Reading

/- The lines that the scanner understands. They are the texts made of atoms, however their words are
   cut; on any other line the scanner stops after the longest such text, and what it has read is
   what it would have read from that text alone. -/

namespace AsmAssist

namespace Scanner

open Lexeme (first?)

theorem Ending.first?_eq_none {s : Scanner} {final : List Entry} (h : Ending s final) :
    first? s.rest = none := by
  cases h with
  | finished hrest =>
      rw [hrest]
      rfl
  | failure hrest hfirst =>
      rw [hrest]
      exact hfirst

theorem Ending.unique {s : Scanner} {final other : List Entry} (h : Ending s final)
    (hother : Ending s other) : final = other := by
  cases h with
  | finished hrest =>
      cases hother with
      | finished => rfl
      | failure hrest' _ =>
          rw [hrest] at hrest'
          cases hrest'
  | failure hrest _ =>
      cases hother with
      | finished hrest' =>
          rw [hrest] at hrest'
          cases hrest'
      | failure hrest' _ =>
          rw [hrest] at hrest'
          cases hrest'
          rfl

/-- Any run that was not cut short is the one that `drain` makes. -/
theorem drain_of_run {s t : Scanner} {pieces : List Piece} {final : List Entry}
    (h : Reads s pieces t) (hend : Ending t final) :
    s.drain = (pieces.map (fun p => .ok p.token) ++ final, t) := by
  obtain ⟨hreads, other, hother, hentries⟩ := drain_reads s
  obtain ⟨hpieces, hlast⟩ := h.unique hreads hend.first?_eq_none hother.first?_eq_none
  have hfinal : final = other := by
    rw [← hlast] at hother
    exact hend.unique hother
  rw [← Prod.eta s.drain, hentries, ← hpieces, ← hlast, ← hfinal]

end Scanner

namespace Scan

open Lexeme (Lexable first?)
open Scanner (Piece Reads Ending Entry)

/-- The longest text made of atoms that a line starts with. -/
structure Longest (done line : Bytes) : Prop where
  lexable : Lexable done
  leads : done <+: line
  longest : ∀ q, Lexable q → q <+: line → q.length ≤ done.length

def visible (pieces : List Piece) : List Token :=
  (pieces.map Piece.token).filter fun t => !t.kind.isHidden

theorem visible_sublist (pieces : List Piece) :
    List.Sublist (visible pieces) (pieces.map Piece.token) := List.filter_sublist

theorem ofEntries_append (pieces : List Piece) (final : List Entry) :
    ofEntries (pieces.map (fun p => .ok p.token) ++ final) =
      ⟨visible pieces ++ (ofEntries final).tokens, (ofEntries final).error⟩ := by
  induction pieces with
  | nil => rfl
  | cons p pieces ih =>
      rw [List.map_cons, List.cons_append, ofEntries, ih, visible, visible, List.map_cons]
      cases hhidden : p.token.kind.isHidden <;> simp [hhidden]

/-- What a scan from some place on shows: the visible tokens and the error that ends them. -/
theorem view_of_run {s t : Scanner} {pieces : List Piece} {final : List Entry}
    (h : Reads s pieces t) (hend : Ending t final) :
    ofEntries s.drain.1 = ⟨visible pieces, (ofEntries final).error⟩ := by
  rw [Scanner.drain_of_run h hend, ofEntries_append]
  cases hend <;> simp only [ofEntries, List.append_nil]

theorem line_of_run {text : Bytes} {lineNumber : Int} {pieces : List Piece} {s : Scanner}
    {final : List Entry} (h : Reads (.start text lineNumber) pieces s) (hend : Ending s final) :
    line text lineNumber = ⟨visible pieces, (ofEntries final).error⟩ := view_of_run h hend

/-- Every token of a line was read from some piece of it. -/
theorem piece_of_mem {text : Bytes} {lineNumber : Int} {t : Token}
    (h : t ∈ (line text lineNumber).tokens) :
    ∃ pieces s, Reads (.start text lineNumber) pieces s ∧ ∃ p ∈ pieces, p.token = t := by
  obtain ⟨hreads, final, hend, -⟩ := Scanner.drain_reads (.start text lineNumber)
  generalize Scanner.pieces _ _ = pieces at hreads
  rw [line_of_run hreads hend] at h
  exact ⟨pieces, _, hreads, List.mem_map.mp ((visible_sublist pieces).mem h)⟩

theorem error_eq_none_iff {s : Scanner} {final : List Entry} (h : Ending s final) :
    (ofEntries final).error = none ↔ s.rest = [] := by
  cases h with
  | finished hrest => simp [ofEntries, hrest]
  | failure hrest _ => simp [ofEntries, hrest]

/-- A line without an error was read piece by piece to its end. -/
theorem complete_run {text : Bytes} {lineNumber : Int} (h : (line text lineNumber).error = none) :
    ∃ pieces, Reads (.start text lineNumber) pieces ⟨[], ⟨lineNumber, text.runeCount⟩⟩ ∧
      Scanner.texts pieces = text ∧ (line text lineNumber).tokens = visible pieces := by
  obtain ⟨hreads, final, hend, -⟩ := Scanner.drain_reads (.start text lineNumber)
  generalize Scanner.pieces _ _ = pieces at hreads
  generalize (Scanner.start text lineNumber).drain.2 = s at hreads hend
  rw [line_of_run hreads hend] at h ⊢
  have hrest : s.rest = [] := (error_eq_none_iff hend).mp h
  have htext : text = Scanner.texts pieces ++ s.rest := hreads.rest_eq
  rw [hrest, List.append_nil] at htext
  have hposition : s.position = ⟨lineNumber, text.runeCount⟩ := by
    rw [hreads.position_eq, ← htext]
    simp only [Scanner.start, Position.moveRight, Int.zero_add]
  rw [← hposition, ← hrest]
  exact ⟨pieces, hreads, htext.symm, rfl⟩

theorem lexable_of_complete {text : Bytes} {lineNumber : Int}
    (h : (line text lineNumber).error = none) : Lexable text := by
  obtain ⟨pieces, hreads, htext, -⟩ := complete_run h
  rw [← htext]
  exact hreads.lexable

theorem complete_of_lexable {text : Bytes} (h : Lexable text) (lineNumber : Int) :
    (line text lineNumber).error = none := by
  obtain ⟨hreads, final, hend, -⟩ := Scanner.drain_reads (.start text lineNumber)
  generalize Scanner.pieces _ _ = pieces at hreads
  have htext : text = Scanner.texts pieces ++ _ := hreads.rest_eq
  rw [line_of_run hreads hend, error_eq_none_iff hend]
  rw [htext] at h
  -- What is left is readable, but it has no cut.
  refine (hreads.lexable.cancel h).eq_nil_of_first? (r := []) ?_
  rw [List.append_nil]
  exact hend.first?_eq_none

theorem runeCount_append_of_complete {text : Bytes} {lineNumber : Int}
    (h : (line text lineNumber).error = none) (r : Bytes) :
    ((text ++ r).runeCount : Int) = text.runeCount + r.runeCount := by
  rw [Bytes.runeCount_append ((lexable_of_complete h).splits r), Int.natCast_add]

theorem longest_of_stop {done rest : Bytes} (hdone : Lexable done) (hstop : first? rest = none) :
    Longest done (done ++ rest) := by
  refine ⟨hdone, List.prefix_append done rest, ?_⟩
  intro q hq hprefix
  -- A longer text would go on into the rest with a text that has a cut.
  by_contra hlong
  obtain ⟨more, rfl⟩ := List.prefix_of_prefix_length_le (List.prefix_append done rest) hprefix
    (by omega)
  obtain ⟨after, rfl⟩ := (List.prefix_append_right_inj done).mp hprefix
  have hnil : more = [] := (hdone.cancel hq).eq_nil_of_first? hstop
  rw [hnil, List.append_nil] at hlong
  exact hlong (Nat.le_refl _)

/-- A line is understood if and only if it is made of atoms. Else the error stands after the longest
    text made of atoms, and the tokens are those of that text. -/
theorem line_language (text : Bytes) (lineNumber : Int) :
    ((line text lineNumber).error = none ↔ Lexable text) ∧
    ∀ e, (line text lineNumber).error = some e →
      ∃ done rest, text = done ++ rest ∧ (Scanner.start text lineNumber).drain.2.rest = rest ∧
        Longest done text ∧ e.position = ⟨lineNumber, done.runeCount⟩ ∧
        rest.runes.head? = some e.rune ∧
        (line text lineNumber).tokens = (line done lineNumber).tokens := by
  obtain ⟨hreads, final, hend, -⟩ := Scanner.drain_reads (.start text lineNumber)
  generalize Scanner.pieces _ _ = pieces at hreads
  generalize (Scanner.start text lineNumber).drain.2 = s at hreads hend
  have htext : text = Scanner.texts pieces ++ s.rest := hreads.rest_eq
  have hstop := hend.first?_eq_none
  rw [line_of_run hreads hend]
  constructor
  · rw [error_eq_none_iff hend]
    constructor
    · intro hrest
      rw [htext, hrest, List.append_nil]
      exact hreads.lexable
    · intro hlex
      rw [htext] at hlex
      refine (hreads.lexable.cancel hlex).eq_nil_of_first? (r := []) ?_
      rw [List.append_nil]
      exact hstop
  · intro e he
    cases hend with
    | finished => cases he
    | @failure b more hrest hfirst =>
        cases he
        have hpos : s.position = ⟨lineNumber, (Scanner.texts pieces).runeCount⟩ := by
          rw [hreads.position_eq]
          simp only [Scanner.start, Position.moveRight, Int.zero_add]
        have hprefix : Reads (.start (Scanner.texts pieces) lineNumber) pieces ⟨[], s.position⟩ :=
          hreads.truncate (Lexeme.inert_of_first?_none hstop)
        have hlongest := longest_of_stop hreads.lexable hstop
        rw [← htext] at hlongest
        refine ⟨Scanner.texts pieces, s.rest, htext, rfl, hlongest, hpos, ?_, ?_⟩
        · rw [hrest]
          rfl
        · rw [line_of_run hprefix (.finished rfl)]

theorem line_language_unclosed :
    (line (.ofString "ld \"a") 3).error = some ⟨⟨3, 3⟩, '"'⟩ ∧
      ∃ done rest, Bytes.ofString "ld \"a" = done ++ rest ∧
        (Scanner.start (.ofString "ld \"a") 3).drain.2.rest = rest ∧
        Longest done (.ofString "ld \"a") ∧ (⟨3, 3⟩ : Position) = ⟨3, done.runeCount⟩ ∧
        rest.runes.head? = some '"' ∧
        (line (.ofString "ld \"a") 3).tokens = (line done 3).tokens := by
  have herror : (line (.ofString "ld \"a") 3).error = some ⟨⟨3, 3⟩, '"'⟩ := by decide
  exact ⟨herror, (line_language _ _).2 _ herror⟩

end Scan

end AsmAssist
