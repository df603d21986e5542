import AsmAssist.Line
import AsmAssist.Proofs.Folding.Rewriting
import AsmAssist.Proofs.Scanner.Coverage
import AsmAssist.Proofs.Scanner.Language

/- What folding keeps. Unfolded to the last part, folded tokens are the tokens they were folded from,
   in order; each stands for a window of them and spans its parts. On a line that was understood to
   its end the folded tokens stand apart from each other as the scanned ones do. -/

namespace AsmAssist

namespace Token

mutual

/-- The tokens that are left when every folded token is replaced by its parts. -/
def leaves : Token → List Token
  | ⟨kind, payload, range⟩ => (payloadLeaves payload).getD [⟨kind, payload, range⟩]

/-- Nothing for what is not folded. -/
def payloadLeaves : Payload Token → Option (List Token)
  | .absent => none
  | .raw _ => none
  | .number numeral => some (numeralLeaves numeral)
  | .label parts _ => some (leavesOf parts)
  | .shifted parts _ _ _ => some (leavesOf parts)

def numeralLeaves : Numeral Token → List Token
  | ⟨parts, _, _, _⟩ => leavesOf parts

def leavesOf : List Token → List Token
  | [] => []
  | token :: tokens => leaves token ++ leavesOf tokens

end

@[simp] theorem leavesOf_append (before after : List Token) :
    leavesOf (before ++ after) = leavesOf before ++ leavesOf after := by
  induction before with
  | nil => rfl
  | cons t before ih => rw [List.cons_append, leavesOf, leavesOf, ih, List.append_assoc]

theorem leavesOf_raw {tokens : List Token} (h : ∀ t ∈ tokens, ∃ text, t.payload = .raw text) :
    leavesOf tokens = tokens := by
  induction tokens with
  | nil => rfl
  | cons t tokens ih =>
      simp only [List.forall_mem_cons] at h
      obtain ⟨⟨text, htext⟩, hrest⟩ := h
      obtain ⟨kind, payload, range⟩ := t
      cases htext
      rw [leavesOf, ih hrest]
      rfl

end Token

namespace Folding

open Token (leavesOf)
open Relation (ReflTransGen)

/-- A rule made this token from its parts, and it reaches from the first of them to the last. -/
structure Created (t : Token) : Prop where
  made : ∃ rule ∈ rules, t.payload.parts.map Token.kind = rule.pattern ∧
    t = rule.fold t.payload.parts
  spans : ∃ first last, t.payload.parts.head? = some first ∧
    t.payload.parts.getLast? = some last ∧ t.range = ⟨first.range.start, last.range.stop⟩

/-- The token stands for the window: it is the window's only token, or it was made from it. -/
structure StandsFor (window : List Token) (t : Token) : Prop where
  ne_nil : window ≠ []
  leaves_eq : t.leaves = leavesOf window
  kept_or_created : window = [t] ∨ Created t

/-- The tokens of the second list stand, one by one, for adjacent windows of the first. -/
inductive Assembled : List Token → List Token → Prop
  | nil : Assembled [] []
  | cons {window tokens folded : List Token} {t : Token} : StandsFor window t →
      Assembled tokens folded → Assembled (window ++ tokens) (t :: folded)

/-- Tokens on one line, none of them empty, each after the ones before it. -/
structure Ordered (lineNumber : Int) (tokens : List Token) : Prop where
  onLine : ∀ t ∈ tokens, t.range.start.line = lineNumber ∧ t.range.stop.line = lineNumber
  wide : ∀ t ∈ tokens, t.range.start.column < t.range.stop.column
  apart : tokens.Pairwise fun t u => t.range.stop.column ≤ u.range.start.column

theorem readNumeral_parts (base : Nat) (parts : List Token) :
    (readNumeral base parts).parts = parts := by
  simp only [readNumeral]
  split <;> rfl

theorem span_eq {parts : List Token} (hne : parts ≠ []) :
    span parts = ⟨(parts.head hne).range.start, (parts.getLast hne).range.stop⟩ := by
  simp only [span, List.head?_eq_some_head hne, List.getLast?_eq_some_getLast hne]

section Fold

variable {rule : Rule} (hr : rule ∈ rules) {parts : List Token}

include hr

theorem fold_parts (parts : List Token) : (rule.fold parts).payload.parts = parts := by
  rcases rule_cases hr with ⟨kind, base, rfl, -⟩ | rfl | rfl
  · exact readNumeral_parts base parts
  · rfl
  · rfl

theorem leaves_fold (parts : List Token) : (rule.fold parts).leaves = leavesOf parts := by
  rcases rule_cases hr with ⟨kind, base, rfl, -⟩ | rfl | rfl
  · change Token.numeralLeaves (readNumeral base parts) = leavesOf parts
    rw [Token.numeralLeaves, readNumeral_parts]
  · rfl
  · rfl

theorem ne_nil_of_pattern (hw : parts.map Token.kind = rule.pattern) : parts ≠ [] := by
  rintro rfl
  exact pattern_ne_nil hr hw.symm

theorem created_fold (hw : parts.map Token.kind = rule.pattern) : Created (rule.fold parts) := by
  have hparts := fold_parts hr parts
  have hne := ne_nil_of_pattern hr hw
  refine ⟨⟨rule, hr, ?_, ?_⟩, ?_⟩
  · rw [hparts, hw]
  · rw [hparts]
  · rw [hparts]
    exact ⟨_, _, List.head?_eq_some_head hne, List.getLast?_eq_some_getLast hne, span_eq hne⟩

end Fold

namespace Assembled

theorem self (tokens : List Token) : Assembled tokens tokens := by
  induction tokens with
  | nil => exact .nil
  | cons t tokens ih =>
      have ht : StandsFor [t] t := ⟨List.cons_ne_nil t [], by simp [leavesOf], .inl rfl⟩
      exact .cons ht ih

theorem append {tokens folded tokens₂ folded₂ : List Token} (h : Assembled tokens folded)
    (h₂ : Assembled tokens₂ folded₂) : Assembled (tokens ++ tokens₂) (folded ++ folded₂) := by
  induction h with
  | nil => exact h₂
  | cons ht _ ih =>
      rw [List.append_assoc]
      exact .cons ht ih

theorem split {tokens before after : List Token} (h : Assembled tokens (before ++ after)) :
    ∃ left right, tokens = left ++ right ∧ Assembled left before ∧ Assembled right after := by
  induction before generalizing tokens with
  | nil => exact ⟨[], tokens, rfl, .nil, h⟩
  | cons t before ih =>
      cases h with
      | @cons window _ _ _ ht hrest =>
          obtain ⟨left, right, rfl, hleft, hright⟩ := ih hrest
          exact ⟨window ++ left, right, (List.append_assoc ..).symm, .cons ht hleft, hright⟩

theorem leaves_eq {tokens folded : List Token} (h : Assembled tokens folded) :
    leavesOf folded = leavesOf tokens := by
  induction h with
  | nil => rfl
  | cons ht _ ih => rw [leavesOf, Token.leavesOf_append, ht.leaves_eq, ih]

theorem ne_nil {tokens folded : List Token} (h : Assembled tokens folded) (hne : folded ≠ []) :
    tokens ≠ [] := by
  cases h with
  | nil => exact hne
  | cons ht _ =>
      intro hnil
      exact ht.ne_nil (List.append_eq_nil_iff.mp hnil).1

/-- One fold: the new token stands for all that the tokens of its window stood for. -/
theorem rewrite {tokens folded folded' : List Token} (h : Assembled tokens folded)
    (hstep : Rewrites folded folded') : Assembled tokens folded' := by
  obtain ⟨rule, hr, before, window, after, hw, rfl, rfl⟩ := hstep.context
  obtain ⟨left, rest, rfl, hleft, hrest⟩ := h.split
  obtain ⟨middle, right, rfl, hmiddle, hright⟩ := hrest.split
  have ht : StandsFor middle (rule.fold window) :=
    ⟨hmiddle.ne_nil (ne_nil_of_pattern hr hw), (leaves_fold hr window).trans hmiddle.leaves_eq,
      .inr (created_fold hr hw)⟩
  exact hleft.append (.cons ht hright)

theorem run {tokens folded : List Token} (h : ReflTransGen Rewrites tokens folded) :
    Assembled tokens folded := by
  induction h with
  | refl => exact self tokens
  | tail _ hstep ih => exact ih.rewrite hstep

end Assembled

namespace Ordered

variable {lineNumber : Int} {tokens tokens' : List Token}

/-- The start of a first token and the end of a last one bound every token between them. -/
theorem span_wide (h : Ordered lineNumber tokens) (hne : tokens ≠ []) :
    (tokens.head hne).range.start.column < (tokens.getLast hne).range.stop.column := by
  cases tokens with
  | nil => exact absurd rfl hne
  | cons t rest =>
      have ht := h.wide t (List.mem_cons_self ..)
      cases rest with
      | nil => exact ht
      | cons u rest =>
          have hlast : (t :: u :: rest).getLast hne ∈ u :: rest := by
            rw [List.getLast_cons_cons]
            exact List.getLast_mem _
          have hafter := (List.pairwise_cons.mp h.apart).1 _ hlast
          have hwide := h.wide _ (List.mem_cons_of_mem t hlast)
          change t.range.start.column < _
          omega

theorem increasing (h : Ordered lineNumber tokens) :
    tokens.Pairwise fun t u => t.range.start.column < u.range.start.column := by
  refine List.Pairwise.imp_of_mem ?_ h.apart
  intro t u ht _ hapart
  have hwide := h.wide t ht
  omega

/-- A fold spans its window, so it stays behind what came before and ahead of what comes after. -/
theorem rewrite (h : Ordered lineNumber tokens) (hstep : Rewrites tokens tokens') :
    Ordered lineNumber tokens' := by
  obtain ⟨rule, hr, before, window, after, hw, rfl, rfl⟩ := hstep.context
  have hne := ne_nil_of_pattern hr hw
  have hrange : (rule.fold window).range =
      ⟨(window.head hne).range.start, (window.getLast hne).range.stop⟩ := span_eq hne
  have hhead := List.head_mem hne
  have hlast := List.getLast_mem hne
  obtain ⟨honLine, hwide, hapart⟩ := h
  simp only [List.forall_mem_append] at honLine hwide
  simp only [List.pairwise_append, List.mem_append] at hapart
  have hwindow : Ordered lineNumber window := ⟨honLine.2.1, hwide.2.1, hapart.2.1.1⟩
  refine ⟨?_, ?_, ?_⟩
  · simp only [List.forall_mem_append, List.forall_mem_cons, hrange]
    exact ⟨honLine.1, ⟨(honLine.2.1 _ hhead).1, (honLine.2.1 _ hlast).2⟩, honLine.2.2⟩
  · simp only [List.forall_mem_append, List.forall_mem_cons, hrange]
    exact ⟨hwide.1, hwindow.span_wide hne, hwide.2.2⟩
  · simp only [List.pairwise_append, List.pairwise_cons, List.forall_mem_cons, hrange]
    refine ⟨hapart.1, ⟨?_, hapart.2.1.2.1⟩, ?_⟩
    · intro u hu
      exact hapart.2.1.2.2 _ hlast u hu
    · intro t ht
      exact ⟨hapart.2.2 t ht _ (.inl hhead), fun u hu => hapart.2.2 t ht u (.inr hu)⟩

theorem run (h : Ordered lineNumber tokens) (hrun : ReflTransGen Rewrites tokens tokens') :
    Ordered lineNumber tokens' := by
  induction hrun with
  | refl => exact h
  | tail _ hstep ih => exact ih.rewrite hstep

theorem sublist (h : Ordered lineNumber tokens) (hsub : List.Sublist tokens' tokens) :
    Ordered lineNumber tokens' where
  onLine := fun t ht => h.onLine t (hsub.mem ht)
  wide := fun t ht => h.wide t (hsub.mem ht)
  apart := h.apart.sublist hsub

end Ordered

theorem ordered_of_reads {text : Bytes} {lineNumber : Int} {pieces : List Scanner.Piece}
    {s : Scanner} (h : Scanner.Reads (.start text lineNumber) pieces s) :
    Ordered lineNumber (pieces.map Scanner.Piece.token) where
  onLine := List.forall_mem_map.mpr h.onLine
  wide := List.forall_mem_map.mpr h.wide
  apart := List.pairwise_map.mpr h.apart

/-- The scanned tokens are not folded, and they stand apart. -/
theorem scanned (text : Bytes) (lineNumber : Int) :
    leavesOf (Scan.line text lineNumber).tokens = (Scan.line text lineNumber).tokens ∧
      Ordered lineNumber (Scan.line text lineNumber).tokens := by
  obtain ⟨hreads, final, hend, -⟩ := Scanner.drain_reads (.start text lineNumber)
  generalize Scanner.pieces _ _ = pieces at hreads
  rw [Scan.line_of_run hreads hend]
  have hsub := Scan.visible_sublist pieces
  constructor
  · apply Token.leavesOf_raw
    intro t ht
    obtain ⟨p, hp, rfl⟩ := List.mem_map.mp (hsub.mem ht)
    exact hreads.raw_of_mem p hp
  · exact (ordered_of_reads hreads).sublist hsub

/-- Unfolded to the last part, the reduced tokens are the tokens they came from, and the tokens of a
    line that was understood to its end stand apart and in order. -/
theorem reduce_loses_nothing :
    (∀ tokens, leavesOf (reduce tokens) = leavesOf tokens ∧ Assembled tokens (reduce tokens)) ∧
    ∀ text lineNumber, (Scan.line text lineNumber).error = none →
      leavesOf (Line.tokenize text lineNumber) = (Scan.line text lineNumber).tokens ∧
      Ordered lineNumber (Line.tokenize text lineNumber) ∧
      (Line.tokenize text lineNumber).Pairwise fun t u =>
        t.range.start.column < u.range.start.column := by
  have hassembled : ∀ tokens, Assembled tokens (reduce tokens) :=
    fun tokens => Assembled.run (reduce_run tokens)
  refine ⟨fun tokens => ⟨(hassembled tokens).leaves_eq, hassembled tokens⟩, ?_⟩
  intro text lineNumber hcomplete
  obtain ⟨hleaves, hordered⟩ := scanned text lineNumber
  have htokenize : Line.tokenize text lineNumber = reduce (Scan.line text lineNumber).tokens := by
    simp only [Line.tokenize, hcomplete]
  have hreduced := hordered.run (reduce_run _)
  rw [htokenize]
  exact ⟨(hassembled _).leaves_eq.trans hleaves, hreduced, hreduced.increasing⟩

theorem reduce_loses_nothing_labelled :
    (Scan.line (.ofString "l: r1 shl 0x4") 0).error = none ∧
      leavesOf (Line.tokenize (.ofString "l: r1 shl 0x4") 0) =
        (Scan.line (.ofString "l: r1 shl 0x4") 0).tokens ∧
      Ordered 0 (Line.tokenize (.ofString "l: r1 shl 0x4") 0) := by
  have hcomplete : (Scan.line (.ofString "l: r1 shl 0x4") 0).error = none := by decide
  obtain ⟨hleaves, hordered, -⟩ := reduce_loses_nothing.2 _ _ hcomplete
  exact ⟨hcomplete, hleaves, hordered⟩

end Folding

end AsmAssist
