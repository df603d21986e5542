import AsmAssist.Proofs.Folding.Rewriting

/- Folding as one pass. Where it stops no pattern is left among the kinds; a token of a kind that no
   pattern holds parts the pass in two; and only a word and a colon in front give a label in front. -/

namespace AsmAssist.Folding

/-- Whether anything can be folded shows in the kinds alone. -/
theorem stuck_iff (tokens : List Token) :
    Stuck tokens ↔ ∀ rule ∈ rules, ¬ rule.pattern <:+: tokens.map Token.kind := by
  constructor
  · rintro h rule hr ⟨before, after, hsplit⟩
    obtain ⟨left, right, rfl, hleft, -⟩ := List.map_eq_append_iff.mp hsplit.symm
    obtain ⟨before, window, rfl, -, hw⟩ := List.map_eq_append_iff.mp hleft
    rw [List.append_assoc] at h
    exact h _ (Rewrites.of_context hr hw before right)
  · intro h tokens' hstep
    obtain ⟨rule, hr, before, window, after, hw, rfl, -⟩ := hstep.context
    refine h rule hr ⟨before.map Token.kind, after.map Token.kind, ?_⟩
    simp only [List.map_append, hw, List.append_assoc]

theorem Stuck.not_literal {tokens : List Token} (h : Stuck tokens) :
    ∀ t ∈ tokens, isLiteral t = false := by
  intro t ht
  obtain ⟨before, after, rfl⟩ := List.append_of_mem ht
  exact h.of_append.head_not_literal

/-- Folding is one pass from the left. It leaves no literal, no word before a colon and no register
    before a shift and a number, so folding again changes nothing. -/
theorem reduce_is_one_pass (tokens : List Token) :
    reduce tokens = pass tokens ∧
    (∀ t ∈ reduce tokens, isLiteral t = false) ∧
    ¬ [.word, .colon] <:+: (reduce tokens).map Token.kind ∧
    ¬ [.register, .shift, .number] <:+: (reduce tokens).map Token.kind ∧
    reduce (reduce tokens) = reduce tokens := by
  have hstuck := reduce_stuck tokens
  have hkinds := (stuck_iff _).mp hstuck
  refine ⟨reduce_eq_pass tokens, hstuck.not_literal, ?_, ?_, ?_⟩
  · exact hkinds labelRule (by simp [rules])
  · exact hkinds shiftedRule (by simp [rules])
  · rw [reduce_eq_pass (reduce tokens), pass_of_stuck hstuck]

/-- The token's kind is in no pattern, so no window reaches over it. -/
def Alone (t : Token) : Prop := ∀ rule ∈ rules, t.kind ∉ rule.pattern

theorem Alone.not_literal {t : Token} (h : Alone t) : isLiteral t = false := by
  rw [← Bool.not_eq_true]
  intro hliteral
  obtain ⟨rule, hr, -, hpattern, -⟩ := numbered_literal hliteral
  exact h rule hr (by simp [hpattern])

theorem reduce_append_of_alone {t : Token} (ht : Alone t) (before after : List Token) :
    reduce (before ++ t :: after) = reduce before ++ t :: reduce after := by
  have hnumbered : numbered t = t := numbered_of_not_literal ht.not_literal
  have hlabel : t.kind ∉ [Kind.word, .colon] := ht labelRule (by simp [rules])
  have hshifted : t.kind ∉ [Kind.register, .shift, .number] := ht shiftedRule (by simp [rules])
  simp only [List.mem_cons, List.not_mem_nil, or_false, not_or] at hlabel hshifted
  simp only [reduce_eq_pass, pass, List.map_append, List.map_cons, hnumbered]
  rw [walk_append (by simp [hlabel, hshifted]), walk_copy (by simp [hlabel, hshifted])]

/-! ### What the pass puts in front -/

theorem numbered_kind {t : Token} {kind : Kind} (h : (numbered t).kind = kind)
    (hkind : kind ≠ .number) : t.kind = kind := by
  cases hliteral : isLiteral t with
  | false => rwa [numbered_of_not_literal hliteral] at h
  | true =>
      obtain ⟨rule, -, hnumbered, -, hnumber⟩ := numbered_literal hliteral
      rw [hnumbered, Rule.fold_kind, hnumber] at h
      exact absurd h.symm hkind

theorem pass_label {a b : Token} (ha : a.kind = .word) (hb : b.kind = .colon) (rest : List Token) :
    pass (a :: b :: rest) = labelRule.fold [a, b] :: pass rest := by
  have ha' : numbered a = a := numbered_of_not_literal (by simp [isLiteral, ha])
  have hb' : numbered b = b := numbered_of_not_literal (by simp [isLiteral, hb])
  simp only [pass, List.map_cons, ha', hb', walk_label ha hb]

theorem pass_shifted {a b c : Token} (ha : a.kind = .register) (hb : b.kind = .shift)
    (hc : (numbered c).kind = .number) (rest : List Token) :
    pass (a :: b :: c :: rest) = shiftedRule.fold [a, b, numbered c] :: pass rest := by
  have ha' : numbered a = a := numbered_of_not_literal (by simp [isLiteral, ha])
  have hb' : numbered b = b := numbered_of_not_literal (by simp [isLiteral, hb])
  simp only [pass, List.map_cons, ha', hb', walk_shifted ha hb hc]

/-- Everything the pass can do with the first token. -/
theorem pass_cons (a : Token) (rest : List Token) :
    (∃ b more, rest = b :: more ∧ a.kind = .word ∧ b.kind = .colon ∧
      pass (a :: rest) = labelRule.fold [a, b] :: pass more) ∨
    (∃ b c more, rest = b :: c :: more ∧ a.kind = .register ∧ b.kind = .shift ∧
      (numbered c).kind = .number ∧
      pass (a :: rest) = shiftedRule.fold [a, b, numbered c] :: pass more) ∨
    pass (a :: rest) = numbered a :: pass rest := by
  cases rest with
  | nil => exact .inr (.inr rfl)
  | cons b more =>
      by_cases hlabel : (numbered a).kind = .word ∧ (numbered b).kind = .colon
      · have ha := numbered_kind hlabel.1 (by decide)
        have hb := numbered_kind hlabel.2 (by decide)
        exact .inl ⟨b, more, rfl, ha, hb, pass_label ha hb more⟩
      · cases more with
        | nil => exact .inr (.inr (by simp [pass, walk, hlabel]))
        | cons c more =>
            by_cases hshifted : (numbered a).kind = .register ∧ (numbered b).kind = .shift ∧
                (numbered c).kind = .number
            · have ha := numbered_kind hshifted.1 (by decide)
              have hb := numbered_kind hshifted.2.1 (by decide)
              have hc := hshifted.2.2
              exact .inr (.inl ⟨b, c, more, rfl, ha, hb, hc, pass_shifted ha hb hc more⟩)
            · exact .inr (.inr (by simp [pass, walk, hlabel, hshifted]))

/-- Without a word and a colon in front there is no label in front, if there was none before. -/
theorem pass_no_label {tokens : List Token} (hlabel : ∀ t ∈ tokens.head?, t.kind ≠ .label)
    (hpair : ∀ a b rest, tokens = a :: b :: rest → ¬ (a.kind = .word ∧ b.kind = .colon)) :
    ∀ t ∈ (pass tokens).head?, t.kind ≠ .label := by
  cases tokens with
  | nil => exact hlabel
  | cons a rest =>
      rcases pass_cons a rest with ⟨b, more, rfl, ha, hb, -⟩ | ⟨b, c, more, -, -, -, -, hpass⟩ | hpass
      · exact absurd ⟨ha, hb⟩ (hpair a b more rfl)
      · rw [hpass]
        rintro _ ⟨⟩
        exact fun h => nomatch h
      · rw [hpass]
        rintro _ ⟨⟩ hkind
        exact hlabel a rfl (numbered_kind hkind (by decide))

end AsmAssist.Folding
