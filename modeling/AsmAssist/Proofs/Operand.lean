import AsmAssist.Operand
import AsmAssist.Proofs.Folding.Trees

/- Operands before and after folding. An analysis counts separators and looks at the last kind that is
   none. One fold after the other, a label stands for the colon that it took, and every fold ends in
   something that is no plain register; nothing else that folding does is seen. -/

namespace AsmAssist

/-- A step replaces, among the kinds, the pattern of a rule by the kind that the rule gives. -/
theorem Folding.Rewrites.kinds {tokens tokens' : List Token} (h : Rewrites tokens tokens') :
    ∃ rule ∈ rules, ∃ before after, tokens.map Token.kind = before ++ rule.pattern ++ after ∧
      tokens'.map Token.kind = before ++ [rule.kind] ++ after := by
  obtain ⟨rule, hr, before, window, after, hw, rfl, rfl⟩ := h.context
  refine ⟨rule, hr, before.map Token.kind, after.map Token.kind, ?_, ?_⟩
  · simp only [List.map_append, hw, List.append_assoc]
  · simp only [List.map_append, List.map_cons, Rule.fold_kind, List.append_assoc,
      List.cons_append, List.nil_append]

namespace Operand

open Folding
open Relation (ReflTransGen)

variable {tokens : List Token}

theorem separators_eq (tokens : List Token) :
    separators tokens = ((tokens.map Token.kind).filter isSeparator).length := by
  simp only [separators, List.filter_map, List.length_map, Function.comp_def]

theorem lastKind_eq (tokens : List Token) :
    lastKind tokens = ((tokens.map Token.kind).filter (!isSeparator ·)).getLast?.getD .unknown := by
  simp only [lastKind, List.filter_map, List.getLast?_map, Function.comp_def]

/-- Operands are analysed by their kinds alone. -/
theorem analyze_of_kinds {others : List Token}
    (h : tokens.map Token.kind = others.map Token.kind) (arity registerArity : Int64) :
    analyze tokens arity registerArity = analyze others arity registerArity := by
  simp only [analyze, separators_eq, lastKind_eq, h]

/-- What does not change when a pattern is replaced by the kind of its rule does not change along a
    run of folds. -/
theorem run_keeps {α : Type} (seen : List Kind → α)
    (h : ∀ rule ∈ rules, ∀ before after,
      seen (before ++ [rule.kind] ++ after) = seen (before ++ rule.pattern ++ after))
    {folded : List Token} (hrun : ReflTransGen Rewrites tokens folded) :
    seen (folded.map Token.kind) = seen (tokens.map Token.kind) := by
  induction hrun with
  | refl => rfl
  | tail _ hstep ih =>
      obtain ⟨rule, hr, before, after, hbefore, hafter⟩ := hstep.kinds
      rw [hafter, h rule hr before after, ← hbefore, ih]

/-! ### Separators -/

theorem separators_sublist {others : List Token} (h : List.Sublist tokens others) :
    separators tokens ≤ separators others := (h.filter _).length_le

theorem separators_colon {t : Token} (h : t.kind = .colon) (rest : List Token) :
    separators (t :: rest) = separators rest + 1 := by
  have hcolon : isSeparator .colon = true := by decide
  simp [separators, h, hcolon]

def labels (tokens : List Token) : Nat := (tokens.filter (·.kind == .label)).length

theorem labels_eq_zero : labels tokens = 0 ↔ ∀ t ∈ tokens, t.kind ≠ .label := by
  simp [labels]

/-- Separators, and labels for the colons that are in them. -/
def marks (kinds : List Kind) : Nat :=
  (kinds.filter isSeparator).length + (kinds.filter (· == .label)).length

theorem marks_append (before after : List Kind) :
    marks (before ++ after) = marks before + marks after := by
  simp only [marks, List.filter_append, List.length_append]
  omega

theorem marks_eq (tokens : List Token) :
    marks (tokens.map Token.kind) = separators tokens + labels tokens := by
  simp only [marks, separators_eq, labels, List.filter_map, List.length_map, Function.comp_def]

/-- Every label took one separator, and nothing else did. -/
theorem separators_reduce (h : ∀ t ∈ tokens, t.kind ≠ .label) :
    separators tokens = separators (reduce tokens) + labels (reduce tokens) := by
  have hrules : ∀ rule ∈ rules, marks [rule.kind] = marks rule.pattern := by decide
  have hmarks := run_keeps marks
    (fun rule hr before after => by simp only [marks_append, hrules rule hr]) (reduce_run tokens)
  rw [marks_eq, marks_eq, labels_eq_zero.mpr h] at hmarks
  exact hmarks.symm

/-! ### The last operand -/

/-- The kind of scanned token in which a token ends, literals as the numbers that they are. -/
def endOf : Kind → Kind
  | .label => .word
  | .shiftedRegister | .hexDigits | .decimalDigits | .binaryDigits => .number
  | kind => kind

theorem endOf_eq_register {kind : Kind} : endOf kind = .register ↔ kind = .register := by
  cases kind <;> simp [endOf]

def ending (kinds : List Kind) : Option Kind :=
  (kinds.filter (!isSeparator ·)).getLast?.map endOf

theorem ending_append (before after : List Kind) :
    ending (before ++ after) = (ending after).or (ending before) := by
  simp only [ending, List.filter_append, List.getLast?_append, Option.map_or]

theorem lastKind_eq_register : lastKind tokens = .register ↔
    ending (tokens.map Token.kind) = some .register := by
  rw [lastKind_eq, ending, Option.map_eq_some_iff]
  cases ((tokens.map Token.kind).filter (!isSeparator ·)).getLast? <;> simp [endOf_eq_register]

/-- Folding neither makes nor hides a plain register at the end. -/
theorem lastKind_reduce (tokens : List Token) :
    lastKind (reduce tokens) = .register ↔ lastKind tokens = .register := by
  have hrules : ∀ rule ∈ rules, ending [rule.kind] = ending rule.pattern := by decide
  have hending := run_keeps ending
    (fun rule hr before after => by simp only [ending_append, hrules rule hr]) (reduce_run tokens)
  rw [lastKind_eq_register, lastKind_eq_register, hending]

theorem isRegisterLike_iff {kind : Kind} :
    isRegisterLike kind = true ↔ kind = .register ∨ kind = .shiftedRegister := by
  cases kind <;> simp [isRegisterLike, Sequence.holds, Sequence.firstIndex?]

theorem lastKind_not_shifted (h : ∀ t ∈ tokens, Scanned t) : lastKind tokens ≠ .shiftedRegister := by
  rw [lastKind]
  cases hlast : (tokens.filter fun t => !isSeparator t.kind).getLast? with
  | none => decide
  | some t =>
      have ht : t ∈ tokens := (List.mem_filter.mp (List.mem_of_getLast? hlast)).1
      exact fun hkind => (h t ht).kind (by simp [foldedKinds, show t.kind = _ from hkind])

/-- Unfolded operands end in a register if the folded ones end in one that is not shifted. -/
theorem isRegisterLike_scanned (h : ∀ t ∈ tokens, Scanned t) :
    isRegisterLike (lastKind tokens) = true ↔ lastKind (reduce tokens) = .register := by
  rw [isRegisterLike_iff, lastKind_reduce, or_iff_left (lastKind_not_shifted h)]

end Operand

end AsmAssist
