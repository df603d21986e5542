import AsmAssist.Proofs.Folding.Locality
import AsmAssist.Proofs.Lexeme.Numeral

/- Token trees. Every folded token was grown by folds from scanned ones, so its kind tells what it
   holds, and so do the kinds of its parts. Nothing of this holds of folding tokens that were not
   scanned: their kinds need not fit what they hold. -/

namespace AsmAssist.Folding

open Relation (ReflTransGen)
open Lexeme (literals)

/-- A token that any number of folds made out of tokens of a class. -/
inductive Grown (seed : Token → Prop) : Token → Prop
  | seed {t : Token} : seed t → Grown seed t
  | fold {rule : Rule} {parts : List Token} : rule ∈ rules → parts.map Token.kind = rule.pattern →
      (∀ p ∈ parts, Grown seed p) → Grown seed (rule.fold parts)

/-- The kinds that only folding gives. -/
def foldedKinds : List Kind := [.number, .label, .shiftedRegister]

/-- The kind of the token, and of each of its parts, tells what it holds. -/
inductive WellTyped : Token → Prop
  | number {literal : Token} {base : Nat} {n : Numeral Token} {range : Range} :
      (literal.kind, base) ∈ literals → n.parts = [literal] → n.base = base → WellTyped literal →
      WellTyped ⟨.number, .number n, range⟩
  | label {name colon : Token} {range : Range} : name.kind = .word → colon.kind = .colon →
      WellTyped name → WellTyped colon →
      WellTyped ⟨.label, .label [name, colon] name.text, range⟩
  | shifted {register shift amount : Token} {n : Numeral Token} {range : Range} :
      register.kind = .register → shift.kind = .shift → amount.kind = .number →
      amount.payload = .number n → WellTyped register → WellTyped shift → WellTyped amount →
      WellTyped ⟨.shiftedRegister, .shifted [register, shift, amount] register.text shift.text n,
        range⟩
  | scanned {kind : Kind} {text : Bytes} {range : Range} : kind ∉ foldedKinds →
      WellTyped ⟨kind, .raw text, range⟩

/-- A token as the scanner hands it out. -/
structure Scanned (t : Token) : Prop where
  kind : t.kind ∉ foldedKinds
  raw : ∃ text, t.payload = .raw text

/-! ### What folds make -/

/-- Everything a fold can make, and of what. -/
theorem fold_cases {rule : Rule} (hr : rule ∈ rules) {parts : List Token}
    (hw : parts.map Token.kind = rule.pattern) :
    (∃ literal base, parts = [literal] ∧ (literal.kind, base) ∈ literals ∧
      rule.fold parts = ⟨.number, .number (readNumeral base [literal]), span [literal]⟩) ∨
    (∃ name colon, parts = [name, colon] ∧ name.kind = .word ∧ colon.kind = .colon ∧
      rule.fold parts = ⟨.label, .label [name, colon] name.text, span [name, colon]⟩) ∨
    (∃ register shift amount, parts = [register, shift, amount] ∧ register.kind = .register ∧
      shift.kind = .shift ∧ amount.kind = .number ∧
      rule.fold parts = ⟨.shiftedRegister, .shifted [register, shift, amount] register.text shift.text
        amount.payload.numeral, span [register, shift, amount]⟩) := by
  have hdigits : ∀ kind base, (kind, base) ∈ literals → rule = digitsRule kind base →
      ∃ literal base, parts = [literal] ∧ (literal.kind, base) ∈ literals ∧
        rule.fold parts = ⟨.number, .number (readNumeral base [literal]), span [literal]⟩ := by
    rintro kind base hbase rfl
    obtain ⟨literal, rfl, rfl⟩ := List.map_eq_singleton_iff.mp hw
    exact ⟨literal, base, rfl, hbase, rfl⟩
  simp only [rules, List.mem_cons, List.not_mem_nil, or_false] at hr
  rcases hr with h | h | h | rfl | rfl
  · exact .inl (hdigits _ _ (by simp [literals]) h)
  · exact .inl (hdigits _ _ (by simp [literals]) h)
  · exact .inl (hdigits _ _ (by simp [literals]) h)
  · obtain ⟨name, _, rfl, hname, hw⟩ := List.map_eq_cons_iff.mp hw
    obtain ⟨colon, rfl, hcolon⟩ := List.map_eq_singleton_iff.mp hw
    exact .inr (.inl ⟨name, colon, rfl, hname, hcolon, rfl⟩)
  · obtain ⟨register, _, rfl, hregister, hw⟩ := List.map_eq_cons_iff.mp hw
    obtain ⟨shift, _, rfl, hshift, hw⟩ := List.map_eq_cons_iff.mp hw
    obtain ⟨amount, rfl, hamount⟩ := List.map_eq_singleton_iff.mp hw
    exact .inr (.inr ⟨register, shift, amount, rfl, hregister, hshift, hamount, rfl⟩)

section Growth

variable {seed : Token → Prop} {tokens tokens' : List Token}

/-- One fold grows one token and keeps the others. -/
theorem grown_rewrite (h : ∀ t ∈ tokens, Grown seed t) (hstep : Rewrites tokens tokens') :
    ∀ t ∈ tokens', Grown seed t := by
  obtain ⟨rule, hr, before, window, after, hw, rfl, rfl⟩ := hstep.context
  simp only [List.forall_mem_append, List.forall_mem_cons] at h ⊢
  exact ⟨h.1, .fold hr hw h.2.1, h.2.2⟩

theorem grown_run (h : ∀ t ∈ tokens, Grown seed t) (hrun : ReflTransGen Rewrites tokens tokens') :
    ∀ t ∈ tokens', Grown seed t := by
  induction hrun with
  | refl => exact h
  | tail _ hstep ih => exact grown_rewrite ih hstep

theorem grown_reduce (tokens : List Token) : ∀ t ∈ reduce tokens, Grown (· ∈ tokens) t :=
  grown_run (fun _ ht => .seed ht) (reduce_run tokens)

end Growth

/-! ### Trees over scanned tokens -/

theorem scanned_of_mem {text : Bytes} {lineNumber : Int} :
    ∀ t ∈ (Scan.line text lineNumber).tokens, Scanned t := by
  intro t ht
  obtain ⟨pieces, s, hreads, p, hp, rfl⟩ := Scan.piece_of_mem ht
  have hkinds : ∀ kind ∈ Lexeme.rules.map Lexeme.Rule.kind, kind ∉ foldedKinds := by decide
  exact ⟨hkinds _ (hreads.kind_of_mem p hp), hreads.raw_of_mem p hp⟩

theorem Scanned.not_label {t : Token} (h : Scanned t) : t.kind ≠ .label :=
  fun hkind => h.kind (by simp [foldedKinds, hkind])

theorem Scanned.wellTyped {t : Token} (h : Scanned t) : WellTyped t := by
  obtain ⟨kind, payload, range⟩ := t
  obtain ⟨hkind, text, htext⟩ := h
  cases htext
  exact .scanned hkind

theorem WellTyped.number_payload {t : Token} (h : WellTyped t) (hkind : t.kind = .number) :
    ∃ n, t.payload = .number n := by
  cases h with
  | number => exact ⟨_, rfl⟩
  | label => cases hkind
  | shifted => cases hkind
  | @scanned kind _ _ hscanned =>
      cases (show kind = .number from hkind)
      exact absurd (by simp [foldedKinds]) hscanned

theorem readNumeral_base (base : Nat) (parts : List Token) :
    (readNumeral base parts).base = base := by
  simp only [readNumeral]
  split <;> rfl

/-- What grew from scanned tokens is well typed: one case for each rule. -/
theorem Grown.wellTyped {seed : Token → Prop} (hseed : ∀ t, seed t → Scanned t) {t : Token}
    (h : Grown seed t) : WellTyped t := by
  induction h with
  | seed ht => exact (hseed _ ht).wellTyped
  | fold hr hw _ ih =>
      rcases fold_cases hr hw with ⟨literal, base, rfl, hbase, hfold⟩ |
        ⟨name, colon, rfl, hname, hcolon, hfold⟩ |
        ⟨register, shift, amount, rfl, hregister, hshift, hamount, hfold⟩
      · rw [hfold]
        exact .number hbase (readNumeral_parts base [literal]) (readNumeral_base base [literal])
          (ih literal (by simp))
      · simp only [List.forall_mem_cons] at ih
        rw [hfold]
        exact .label hname hcolon ih.1 ih.2.1
      · simp only [List.forall_mem_cons] at ih
        obtain ⟨hr, hs, ha, -⟩ := ih
        obtain ⟨n, hn⟩ := ha.number_payload hamount
        rw [hfold, hn]
        exact .shifted hregister hshift hamount hn hr hs ha

theorem grown_tokenize {text : Bytes} {lineNumber : Int}
    (h : (Scan.line text lineNumber).error = none) :
    ∀ t ∈ Line.tokenize text lineNumber, Grown (· ∈ (Scan.line text lineNumber).tokens) t := by
  rw [tokenize_of_complete h]
  exact grown_reduce _

/-- On a line that was understood to its end, every token and every part of a token holds what its
    kind tells; on any other line, every token holds the text that was scanned. -/
theorem tokenize_well_typed (text : Bytes) (lineNumber : Int) :
    ((Scan.line text lineNumber).error = none →
      ∀ t ∈ Line.tokenize text lineNumber, WellTyped t) ∧
    ((Scan.line text lineNumber).error ≠ none →
      ∀ t ∈ Line.tokenize text lineNumber, ∃ raw, t.payload = .raw raw) := by
  constructor
  · intro hcomplete t ht
    exact (grown_tokenize hcomplete t ht).wellTyped scanned_of_mem
  · intro hstopped t ht
    obtain ⟨e, he⟩ := Option.ne_none_iff_exists'.mp hstopped
    simp only [Line.tokenize, he] at ht
    exact (scanned_of_mem t ht).raw

theorem shifted_amount_well_typed :
    (Scan.line (.ofString "l: r1 shl 0x4") 2).error = none ∧
      (∀ t ∈ Line.tokenize (.ofString "l: r1 shl 0x4") 2, WellTyped t) ∧
      (Scan.line (.ofString "l: r1 shl 0x4 #") 2).error ≠ none ∧
      ∀ t ∈ Line.tokenize (.ofString "l: r1 shl 0x4 #") 2, ∃ raw, t.payload = .raw raw := by
  have hcomplete : (Scan.line (.ofString "l: r1 shl 0x4") 2).error = none := by decide
  have hstopped : (Scan.line (.ofString "l: r1 shl 0x4 #") 2).error ≠ none := by decide
  exact ⟨hcomplete, (tokenize_well_typed _ _).1 hcomplete, hstopped,
    (tokenize_well_typed _ _).2 hstopped⟩

end AsmAssist.Folding
