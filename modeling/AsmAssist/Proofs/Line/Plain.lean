import AsmAssist.Line
import AsmAssist.Proofs.Family
import AsmAssist.Proofs.Folding.Numbers
import AsmAssist.Proofs.Folding.Pass
import AsmAssist.Proofs.Operand

/- Lines in which folding makes no difference to help. Folding takes a colon away with every label and
   may put a shifted register in the place of the mnemonic or of the last operand; where it does none of
   this, the scanned tokens have the profile of the folded ones, and only there. -/

namespace AsmAssist

namespace Bytes

theorem toUpper_append {a b : Bytes} (h : Rune.Splits 0 a b) :
    toUpper (a ++ b) = toUpper a ++ toUpper b := by
  simp only [toUpper, glyphs, Rune.glyphsAfter_append h, List.flatMap_append]

theorem toUpper_ne_nil {b : UInt8} {rest : Bytes} : toUpper (b :: rest) ≠ [] := by
  obtain ⟨x, tail, hencode, -⟩ := Rune.lead_encode (Case.upper (Rune.lead b rest).1)
  simp [toUpper, glyphs, Rune.glyphsAfter, hencode]

end Bytes

namespace Folding

theorem Scanned.numbered_kind {t : Token} (h : Scanned t) {kind : Kind} (hfolded : kind ∈ foldedKinds)
    (hkind : kind ≠ .number) : (numbered t).kind ≠ kind :=
  fun heq => h.kind (Folding.numbered_kind heq hkind ▸ hfolded)

theorem shifted_text (a b c : Token) : (shiftedRule.fold [a, b, c]).text =
    a.text ++ (0x20 :: (b.text ++ 0x20 :: c.text)) := by
  simp [Rule.fold, shiftedRule, shiftedOf, Token.text, Token.payloadText, Token.texts, Bytes.join]

end Folding

namespace Line

open Folding

/-- Folded tokens of which help sees no more than of the tokens that were folded: none is a label, and
    no shifted register is the mnemonic or the last operand. -/
structure Plain (tokens : List Token) : Prop where
  unlabelled : ∀ t ∈ tokens, t.kind ≠ .label
  mnemonic : ∀ t ∈ tokens.head?, t.kind ≠ .shiftedRegister
  ending : Operand.lastKind tokens.tail ≠ .shiftedRegister

variable {tokens : List Token}

theorem dropLabels_cons {t : Token} (h : t.kind ≠ .label) (rest : List Token) :
    dropLabels (t :: rest) = t :: rest := by
  simp [dropLabels, h]

/-- The scanner makes no labels. -/
theorem dropLabels_scanned (h : ∀ t ∈ tokens, Scanned t) : dropLabels tokens = tokens := by
  cases tokens with
  | nil => rfl
  | cons first rest => exact dropLabels_cons (h first List.mem_cons_self).not_label rest

/-- Where the first token is copied, the line is plain if no separator was lost and the ending looks
    the same. -/
theorem plain_copied_iff {a : Token} {rest : List Token} (ha : Scanned a)
    (hrest : ∀ t ∈ rest, Scanned t) : Plain (numbered a :: reduce rest) ↔
      Operand.separators (reduce rest) = Operand.separators rest ∧
      Operand.isRegisterLike (Operand.lastKind (reduce rest)) =
        Operand.isRegisterLike (Operand.lastKind rest) := by
  have hcount := Operand.separators_reduce fun t ht => (hrest t ht).not_label
  have hlabels : (∀ t ∈ reduce rest, t.kind ≠ .label) ↔
      Operand.separators (reduce rest) = Operand.separators rest := by
    rw [← Operand.labels_eq_zero]
    omega
  have hending : Operand.lastKind (reduce rest) ≠ .shiftedRegister ↔
      Operand.isRegisterLike (Operand.lastKind (reduce rest)) =
        Operand.isRegisterLike (Operand.lastKind rest) := by
    rw [Bool.eq_iff_iff, Operand.isRegisterLike_scanned hrest, Operand.isRegisterLike_iff]
    constructor
    · exact or_iff_left
    · intro h hshifted
      rw [hshifted] at h
      exact absurd (h.mp (.inr rfl)) (by decide)
  rw [← hlabels, ← hending]
  constructor
  · intro h
    exact ⟨(List.forall_mem_cons.mp h.unlabelled).2, h.ending⟩
  · rintro ⟨hunlabelled, hlast⟩
    refine ⟨List.forall_mem_cons.mpr ⟨ha.numbered_kind (by decide) (by decide), hunlabelled⟩, ?_, hlast⟩
    rintro _ ⟨⟩
    exact ha.numbered_kind (by decide) (by decide)

theorem profile_of_plain (hscanned : ∀ t ∈ tokens, Scanned t) (h : Plain (reduce tokens)) :
    Profile.of? (dropLabels (reduce tokens)) = Profile.of? tokens := by
  cases tokens with
  | nil => rfl
  | cons a rest =>
      obtain ⟨ha, hrest⟩ := List.forall_mem_cons.mp hscanned
      rw [reduce_eq_pass] at h ⊢
      rcases pass_cons a rest with ⟨b, more, -, -, -, hpass⟩ | ⟨b, c, more, -, -, -, -, hpass⟩ | hpass
      · rw [hpass] at h
        exact absurd rfl (h.unlabelled _ List.mem_cons_self)
      · rw [hpass] at h
        exact absurd rfl (h.mnemonic _ rfl)
      · rw [hpass, ← reduce_eq_pass] at h ⊢
        obtain ⟨hseparators, hregister⟩ := (plain_copied_iff ha hrest).mp h
        rw [dropLabels_cons (h.unlabelled _ List.mem_cons_self), Profile.of?, Profile.of?,
          numbered_text, hseparators, hregister]

/-- Behind its labels a folded line has no more separators than before it was folded. -/
theorem separators_of_profile (hscanned : ∀ t ∈ tokens, Scanned t) {p : Profile}
    (h : p ∈ Profile.of? (dropLabels (reduce tokens))) : p.separators ≤ Operand.separators tokens := by
  have hcount := Operand.separators_reduce fun t ht => (hscanned t ht).not_label
  have hdropped : List.Sublist (dropLabels (reduce tokens)) (reduce tokens) := List.dropWhile_sublist _
  have hle := Operand.separators_sublist hdropped
  have hp := Profile.separators_le h
  omega

/-- Only plain tokens keep their profile, even up to the case of the mnemonic. -/
theorem plain_of_profile (hscanned : ∀ t ∈ tokens, Scanned t)
    (hsplits : ∀ t ∈ tokens, t.kind = .register → ∀ b, Rune.Splits 0 t.text b)
    (h : (Profile.of? (dropLabels (reduce tokens))).map Profile.toUpper =
      (Profile.of? tokens).map Profile.toUpper) : Plain (reduce tokens) := by
  cases tokens with
  | nil => exact ⟨by decide, by decide, by decide⟩
  | cons a rest =>
      obtain ⟨ha, hrest⟩ := List.forall_mem_cons.mp hscanned
      rw [reduce_eq_pass] at h ⊢
      rcases pass_cons a rest with
        ⟨b, more, rfl, -, hb, hpass⟩ | ⟨b, c, more, rfl, hregister, -, -, hpass⟩ | hpass
      · -- The label took a colon that is still among the operands of the scanned tokens.
        have hdrop : dropLabels (pass (a :: b :: more)) = dropLabels (reduce more) := by
          rw [hpass, reduce_eq_pass]
          rfl
        rw [hdrop, Profile.of?, Option.map_some] at h
        obtain ⟨p, hp, hupper⟩ := Option.map_eq_some_iff.mp h
        have hle := separators_of_profile (fun t ht => hrest t (List.mem_cons_of_mem _ ht)) hp
        have hcount : p.separators = Operand.separators (b :: more) :=
          congrArg Profile.separators hupper
        rw [Operand.separators_colon hb] at hcount
        omega
      · -- The mnemonic of the scanned tokens is the register alone.
        have hshifted : (shiftedRule.fold [a, b, numbered c]).kind ≠ .label := by
          rw [Rule.fold_kind]
          decide
        rw [hpass, dropLabels_cons hshifted, Profile.of?, Profile.of?] at h
        have hupper : (shiftedRule.fold [a, b, numbered c]).text.toUpper = a.text.toUpper :=
          congrArg Profile.mnemonic (Option.some.inj h)
        rw [shifted_text, Bytes.toUpper_append (hsplits a List.mem_cons_self hregister _)] at hupper
        exact absurd (List.append_right_eq_self.mp hupper) Bytes.toUpper_ne_nil
      · have hfirst : (numbered a).kind ≠ .label := ha.numbered_kind (by decide) (by decide)
        rw [hpass, dropLabels_cons hfirst, ← reduce_eq_pass, Profile.of?, Profile.of?] at h
        rw [hpass, ← reduce_eq_pass]
        have hprofile := Option.some.inj h
        exact (plain_copied_iff ha hrest).mpr
          ⟨congrArg Profile.separators hprofile, congrArg Profile.endsInRegister hprofile⟩

end Line

end AsmAssist
