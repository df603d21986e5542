import AsmAssist.Proofs.Folding.Leaves
import AsmAssist.Proofs.Folding.Pass
import AsmAssist.Proofs.Scanner.Locality

/- Operands are folded apart. Folding looks at kinds and texts only, so relocated tokens fold to the
   relocated result; and no window reaches over the mark between two operands, so a line with such a
   mark is what its two sides are on their own. -/

namespace AsmAssist.Folding

open Relation (ReflTransGen)
open Token (relocate relocateNumeral relocatePayload relocateAll_eq_map)

section Relocate

variable (f : Position → Position)

theorem map_text_relocate (t : Option Token) :
    (t.map (relocate f)).map Token.text = t.map Token.text := by
  cases t with
  | none => rfl
  | some t => exact congrArg some (Token.text_relocate f t)

theorem readNumeral_relocate (base : Nat) (parts : List Token) :
    readNumeral base (parts.map (relocate f)) = relocateNumeral f (readNumeral base parts) := by
  simp only [readNumeral, List.head?_map, map_text_relocate]
  split <;> simp only [relocateNumeral, relocateAll_eq_map]

theorem span_relocate {parts : List Token} (hne : parts ≠ []) :
    span (parts.map (relocate f)) = (span parts).relocate f := by
  rw [span_eq hne, span_eq (by simpa using hne)]
  simp only [List.head_map, List.getLast_map, Token.relocate_range]
  rfl

theorem amount_relocate (t : Option Token) :
    ((t.map (relocate f)).map (·.payload.numeral)).getD .zero =
      relocateNumeral f ((t.map (·.payload.numeral)).getD .zero) := by
  cases t with
  | none => rfl
  | some t => simp [Token.numeral_relocatePayload]

/-- A fold of relocated parts is the relocated fold. -/
theorem fold_relocate {rule : Rule} (hr : rule ∈ rules) {parts : List Token} (hne : parts ≠ []) :
    rule.fold (parts.map (relocate f)) = (rule.fold parts).relocate f := by
  have hpayload : rule.payload (parts.map (relocate f)) = relocatePayload f (rule.payload parts) := by
    rcases rule_cases hr with ⟨kind, base, rfl, -⟩ | rfl | rfl
    · exact congrArg Payload.number (readNumeral_relocate f base parts)
    · simp only [labelRule, labelOf, relocatePayload, List.head?_map, map_text_relocate,
        relocateAll_eq_map]
    · simp only [shiftedRule, shiftedOf, relocatePayload, List.getElem?_map, map_text_relocate,
        amount_relocate, relocateAll_eq_map]
  simp only [Rule.fold, relocate, hpayload, span_relocate f hne]

theorem Rewrites.relocate {tokens tokens' : List Token} (h : Rewrites tokens tokens') :
    Rewrites (tokens.map (relocate f)) (tokens'.map (relocate f)) := by
  obtain ⟨rule, hr, before, window, after, hw, rfl, rfl⟩ := h.context
  have hkinds : (window.map (Token.relocate f)).map Token.kind = rule.pattern := by
    rw [Token.map_kind_relocate, hw]
  simp only [List.map_append, List.map_cons, ← fold_relocate f hr (ne_nil_of_pattern hr hw)]
  exact .of_context hr hkinds _ _

theorem run_relocate {tokens tokens' : List Token} (h : ReflTransGen Rewrites tokens tokens') :
    ReflTransGen Rewrites (tokens.map (relocate f)) (tokens'.map (relocate f)) := by
  induction h with
  | refl => exact .refl
  | tail _ hstep ih => exact ih.tail (hstep.relocate f)

theorem Stuck.relocate {tokens : List Token} (h : Stuck tokens) :
    Stuck (tokens.map (relocate f)) := by
  rw [stuck_iff] at h ⊢
  rwa [Token.map_kind_relocate]

theorem reduce_relocate (tokens : List Token) :
    reduce (tokens.map (relocate f)) = (reduce tokens).map (relocate f) := by
  rw [reduce_eq_pass, ← pass_of_run (run_relocate f (reduce_run tokens)),
    pass_of_stuck ((reduce_stuck tokens).relocate f)]

end Relocate

open Scan (operandMarks separatorToken)

theorem tokenize_of_complete {text : Bytes} {lineNumber : Int}
    (h : (Scan.line text lineNumber).error = none) :
    Line.tokenize text lineNumber = reduce (Scan.line text lineNumber).tokens := by
  simp only [Line.tokenize, h]

theorem tokenize_ordered {text : Bytes} {lineNumber : Int}
    (h : (Scan.line text lineNumber).error = none) :
    Ordered lineNumber (Line.tokenize text lineNumber) := by
  rw [tokenize_of_complete h]
  exact (scanned text lineNumber).2.run (reduce_run _)

section Mark

variable {a b sep : Bytes} {kind : Kind} {lineNumber : Int}
  (hsep : (sep, kind) ∈ operandMarks)

include hsep

theorem mark_alone (position : Position) : Alone (separatorToken kind sep position) := by
  have hkinds : ∀ m ∈ operandMarks, ∀ rule ∈ rules, m.2 ∉ rule.pattern := by decide
  exact hkinds _ hsep

theorem mark_shown (position : Position) :
    Scan.shown (separatorToken kind sep position) = [separatorToken kind sep position] := by
  have hkinds : ∀ m ∈ operandMarks, m.2.isHidden = false := by decide
  have hkind : (separatorToken kind sep position).kind.isHidden = false := hkinds _ hsep
  simp only [Scan.shown, hkind, Bool.false_eq_true, if_false]

variable (ha : (Scan.line a lineNumber).error = none) (hb : (Scan.line b lineNumber).error = none)

include ha hb

theorem complete_mark : (Scan.line (a ++ sep ++ b) lineNumber).error = none := by
  rw [Scan.line_separator ha (.mark (List.mem_append_left _ hsep)) b]
  exact Option.map_eq_none_iff.mpr hb

theorem tokenize_mark :
    Line.tokenize (a ++ sep ++ b) lineNumber =
      Line.tokenize a lineNumber ++ separatorToken kind sep ⟨lineNumber, a.runeCount⟩ ::
        (Line.tokenize b lineNumber).map (Token.moveRight (a ++ sep).runeCount) := by
  rw [tokenize_of_complete (complete_mark hsep ha hb), tokenize_of_complete ha,
    tokenize_of_complete hb, Scan.line_separator ha (.mark (List.mem_append_left _ hsep)) b]
  simp only [Scan.prepend, Scan.relocate, mark_shown hsep, List.append_assoc, List.singleton_append,
    reduce_append_of_alone (mark_alone hsep _), reduce_relocate]

/-- Every token of the line but the mark stands on one side of it. -/
theorem tokenize_mark_sides : ∀ t ∈ Line.tokenize (a ++ sep ++ b) lineNumber,
    t.range.stop.column ≤ a.runeCount ∨
      t = separatorToken kind sep ⟨lineNumber, a.runeCount⟩ ∨
      (a ++ sep).runeCount ≤ t.range.start.column := by
  have hapart := (tokenize_ordered (complete_mark hsep ha hb)).apart
  rw [tokenize_mark hsep ha hb] at hapart ⊢
  obtain ⟨-, hright, hleft⟩ := List.pairwise_append.mp hapart
  intro t ht
  rcases List.mem_append.mp ht with ht | ht
  · exact .inl (hleft t ht _ (List.mem_cons_self ..))
  rcases List.mem_cons.mp ht with ht | ht
  · exact .inr (.inl ht)
  · refine .inr (.inr ?_)
    rw [Scan.runeCount_append_of_complete ha]
    exact (List.pairwise_cons.mp hright).1 t ht

end Mark

/-- The operands on both sides of a mark are folded apart: the line is its left side, the mark, and
    its right side moved behind them, and no label or shifted register reaches over the mark. -/
theorem operands_fold_apart {a b sep : Bytes} {kind : Kind} {lineNumber : Int}
    (ha : (Scan.line a lineNumber).error = none) (hb : (Scan.line b lineNumber).error = none)
    (hsep : (sep, kind) ∈ operandMarks) :
    Line.tokenize (a ++ sep ++ b) lineNumber =
      Line.tokenize a lineNumber ++ separatorToken kind sep ⟨lineNumber, a.runeCount⟩ ::
        (Line.tokenize b lineNumber).map (Token.moveRight (a ++ sep).runeCount) ∧
    ∀ t ∈ Line.tokenize (a ++ sep ++ b) lineNumber, t.kind = .label ∨ t.kind = .shiftedRegister →
      t.range.stop.column ≤ a.runeCount ∨ (a ++ sep).runeCount ≤ t.range.start.column := by
  refine ⟨tokenize_mark hsep ha hb, ?_⟩
  have hkinds : ∀ m ∈ operandMarks, ¬ (m.2 = .label ∨ m.2 = .shiftedRegister) := by decide
  intro t ht hkind
  rcases tokenize_mark_sides hsep ha hb t ht with hleft | rfl | hright
  · exact .inl hleft
  · exact absurd hkind (hkinds _ hsep)
  · exact .inr hright

theorem operands_fold_apart_at_arrow :
    (Scan.line (.ofString "l: ld r1") 4).error = none ∧
      (Scan.line (.ofString "r2 shl 0x4") 4).error = none ∧
      (.ofString "<-", .comma) ∈ operandMarks ∧
      Line.tokenize (.ofString "l: ld r1" ++ .ofString "<-" ++ .ofString "r2 shl 0x4") 4 =
        Line.tokenize (.ofString "l: ld r1") 4 ++ separatorToken .comma (.ofString "<-") ⟨4, 8⟩ ::
          (Line.tokenize (.ofString "r2 shl 0x4") 4).map (Token.moveRight 10) := by
  have ha : (Scan.line (.ofString "l: ld r1") 4).error = none := by decide
  have hb : (Scan.line (.ofString "r2 shl 0x4") 4).error = none := by decide
  have hsep : (.ofString "<-", .comma) ∈ operandMarks := by simp [operandMarks]
  exact ⟨ha, hb, hsep, (operands_fold_apart ha hb hsep).1⟩

end AsmAssist.Folding
