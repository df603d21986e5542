import AsmAssist.Token.Folding
import AsmAssist.Proofs.Window
import Mathlib.Logic.Relation

/- Folding as a rewriting system. Any rule may fold any window that it fits, in any order; one walk
   from the left is an invariant of such a fold, and it leaves a list alone that no rule fits. Hence
   all orders end, and they end in the same tokens. -/

namespace AsmAssist.Folding

open Relation (ReflTransGen)

/-- The tokens from place `i` on have the kinds of the rule's pattern. -/
def Rule.FitsAt (rule : Rule) (tokens : List Token) (i : Nat) : Prop :=
  ((tokens.drop i).take rule.pattern.length).map Token.kind = rule.pattern

/-- One fold, by any of the rules, at any place that it fits. -/
inductive Rewrites (tokens : List Token) : List Token → Prop
  | fold {rule : Rule} {i : Nat} : rule ∈ rules → rule.FitsAt tokens i →
      Rewrites tokens (rule.applyAt tokens i)

def Stuck (tokens : List Token) : Prop := ∀ tokens', ¬ Rewrites tokens tokens'

@[simp] theorem Rule.fold_kind (rule : Rule) (parts : List Token) :
    (rule.fold parts).kind = rule.kind := rfl

/-- A token read as a number if it is a literal; every other token is itself. -/
def numbered (t : Token) : Token :=
  match t.kind with
  | .hexDigits => (digitsRule .hexDigits 16).fold [t]
  | .decimalDigits => (digitsRule .decimalDigits 10).fold [t]
  | .binaryDigits => (digitsRule .binaryDigits 2).fold [t]
  | _ => t

/-- One walk from the left: a word before a colon becomes a label, a register before a shift and a
    number becomes a shifted register, every other token is copied. -/
def walk : List Token → List Token
  | [] => []
  | [a] => [a]
  | [a, b] => if a.kind = .word ∧ b.kind = .colon then [labelRule.fold [a, b]] else [a, b]
  | a :: b :: c :: rest =>
      if a.kind = .word ∧ b.kind = .colon then labelRule.fold [a, b] :: walk (c :: rest)
      else if a.kind = .register ∧ b.kind = .shift ∧ c.kind = .number then
        shiftedRule.fold [a, b, c] :: walk rest
      else a :: walk (b :: c :: rest)

def pass (tokens : List Token) : List Token := walk (tokens.map numbered)

theorem Rewrites.of_context {rule : Rule} (hr : rule ∈ rules) {window : List Token}
    (hw : window.map Token.kind = rule.pattern) (before after : List Token) :
    Rewrites (before ++ (window ++ after)) (before ++ rule.fold window :: after) := by
  have hlen : window.length = rule.pattern.length := by
    rw [← hw, List.length_map]
  have hfit : rule.FitsAt (before ++ (window ++ after)) before.length := by
    simp only [Rule.FitsAt, List.drop_left, ← hlen, List.take_left, hw]
  have h := Rewrites.fold hr hfit
  simpa only [Rule.applyAt, List.drop_left, List.take_left, ← hlen] using h

/-- The rules up to the notation of a literal. -/
theorem rule_cases {rule : Rule} (hr : rule ∈ rules) :
    (∃ kind base, rule = digitsRule kind base ∧
      ∀ t : Token, t.kind = kind → isLiteral t = true ∧ numbered t = rule.fold [t]) ∨
    rule = labelRule ∨ rule = shiftedRule := by
  simp only [rules, List.mem_cons, List.not_mem_nil, or_false] at hr
  rcases hr with rfl | rfl | rfl | rfl | rfl
  · exact .inl ⟨.hexDigits, 16, rfl, fun t ht => by simp [isLiteral, numbered, ht]⟩
  · exact .inl ⟨.decimalDigits, 10, rfl, fun t ht => by simp [isLiteral, numbered, ht]⟩
  · exact .inl ⟨.binaryDigits, 2, rfl, fun t ht => by simp [isLiteral, numbered, ht]⟩
  · exact .inr (.inl rfl)
  · exact .inr (.inr rfl)

/-- A fold replaces a window by one token and leaves the tokens around it alone. -/
theorem Rewrites.context {tokens tokens' : List Token} (h : Rewrites tokens tokens') :
    ∃ rule ∈ rules, ∃ before window after, window.map Token.kind = rule.pattern ∧
      tokens = before ++ (window ++ after) ∧ tokens' = before ++ rule.fold window :: after := by
  cases h with
  | @fold rule i hr hfit =>
      refine ⟨rule, hr, tokens.take i, _, (tokens.drop i).drop rule.pattern.length, hfit, ?_, rfl⟩
      rw [List.take_append_drop, List.take_append_drop]

/-- Everything a fold can do, in context. -/
theorem Rewrites.shape {tokens tokens' : List Token} (h : Rewrites tokens tokens') :
    ∃ before after,
      (∃ t, isLiteral t = true ∧ tokens = before ++ t :: after ∧
        tokens' = before ++ numbered t :: after) ∨
      (∃ a b, a.kind = .word ∧ b.kind = .colon ∧ tokens = before ++ a :: b :: after ∧
        tokens' = before ++ labelRule.fold [a, b] :: after) ∨
      (∃ a b c, a.kind = .register ∧ b.kind = .shift ∧ c.kind = .number ∧
        tokens = before ++ a :: b :: c :: after ∧
        tokens' = before ++ shiftedRule.fold [a, b, c] :: after) := by
  obtain ⟨rule, hr, before, window, after, hw, rfl, rfl⟩ := h.context
  refine ⟨before, after, ?_⟩
  rcases rule_cases hr with ⟨kind, base, rfl, hnum⟩ | rfl | rfl
  · obtain ⟨t, rfl, ht⟩ := List.map_eq_singleton_iff.mp hw
    exact .inl ⟨t, (hnum t ht).1, rfl, by rw [(hnum t ht).2]⟩
  · obtain ⟨a, _, rfl, ha, hw⟩ := List.map_eq_cons_iff.mp hw
    obtain ⟨b, rfl, hb⟩ := List.map_eq_singleton_iff.mp hw
    exact .inr (.inl ⟨a, b, ha, hb, rfl, rfl⟩)
  · obtain ⟨a, _, rfl, ha, hw⟩ := List.map_eq_cons_iff.mp hw
    obtain ⟨b, _, rfl, hb, hw⟩ := List.map_eq_cons_iff.mp hw
    obtain ⟨c, rfl, hc⟩ := List.map_eq_singleton_iff.mp hw
    exact .inr (.inr ⟨a, b, c, ha, hb, hc, rfl, rfl⟩)

theorem numbered_literal {t : Token} (h : isLiteral t = true) :
    ∃ rule ∈ rules, numbered t = rule.fold [t] ∧ rule.pattern = [t.kind] ∧
      rule.kind = .number := by
  simp only [isLiteral, Bool.or_eq_true, beq_iff_eq] at h
  rcases h with (h | h) | h
  · exact ⟨digitsRule .hexDigits 16, by simp [rules], by simp [numbered, h], by rw [h]; rfl, rfl⟩
  · exact ⟨digitsRule .decimalDigits 10, by simp [rules], by simp [numbered, h], by rw [h]; rfl, rfl⟩
  · exact ⟨digitsRule .binaryDigits 2, by simp [rules], by simp [numbered, h], by rw [h]; rfl, rfl⟩

theorem numbered_of_not_literal {t : Token} (h : isLiteral t = false) : numbered t = t := by
  simp only [isLiteral, Bool.or_eq_false_iff, beq_eq_false_iff_ne, ne_eq] at h
  obtain ⟨⟨hhex, hdec⟩, hbin⟩ := h
  unfold numbered
  split <;> first | contradiction | rfl

theorem isLiteral_numbered (t : Token) : isLiteral (numbered t) = false := by
  cases h : isLiteral t with
  | false => rw [numbered_of_not_literal h, h]
  | true =>
      obtain ⟨rule, -, hnum, -, hkind⟩ := numbered_literal h
      simp only [hnum, isLiteral, Rule.fold, hkind]
      rfl

theorem numbered_numbered (t : Token) : numbered (numbered t) = numbered t :=
  numbered_of_not_literal (isLiteral_numbered t)

theorem walk_label {a b : Token} (ha : a.kind = .word) (hb : b.kind = .colon)
    (rest : List Token) : walk (a :: b :: rest) = labelRule.fold [a, b] :: walk rest := by
  cases rest <;> simp [walk, ha, hb]

theorem walk_shifted {a b c : Token} (ha : a.kind = .register) (hb : b.kind = .shift)
    (hc : c.kind = .number) (rest : List Token) :
    walk (a :: b :: c :: rest) = shiftedRule.fold [a, b, c] :: walk rest := by
  simp [walk, ha, hb, hc]

/-- Only a word and a register open a window of the walk. -/
theorem walk_copy {a : Token} (ha : a.kind ∉ [Kind.word, .register]) (rest : List Token) :
    walk (a :: rest) = a :: walk rest := by
  simp only [List.mem_cons, List.not_mem_nil, or_false, not_or] at ha
  match rest with
  | [] => rfl
  | [b] => simp [walk, ha]
  | b :: c :: rest => simp [walk, ha]

/-- No window reaches over a token that only opens windows or stands alone. -/
theorem walk_append {t : Token} (ht : t.kind ∉ [Kind.colon, .shift, .number])
    (before after : List Token) :
    walk (before ++ t :: after) = walk before ++ walk (t :: after) := by
  simp only [List.mem_cons, List.not_mem_nil, or_false, not_or] at ht
  induction before using walk.induct with
  | case1 => rfl
  | case2 a => cases after <;> simp [walk, ht]
  | case3 a b h => simp [walk, h]
  | case4 a b h => cases after <;> simp [walk, h, ht]
  | case5 a b c rest h ih => simpa [walk, h] using ih
  | case6 a b c rest h h' ih => simpa [walk, h, h'] using ih
  | case7 a b c rest h h' ih => simpa [walk, h, h'] using ih

/-- A label may be folded before the walk comes by. -/
theorem walk_fold_label {a b : Token} (ha : a.kind = .word) (hb : b.kind = .colon)
    (before after : List Token) :
    walk (before ++ labelRule.fold [a, b] :: after) = walk (before ++ a :: b :: after) := by
  rw [walk_append (t := a) (by simp [ha]), walk_label ha hb,
    walk_append (by simp [labelRule]), walk_copy (by simp [labelRule])]

theorem walk_fold_shifted {a b c : Token} (ha : a.kind = .register) (hb : b.kind = .shift)
    (hc : c.kind = .number) (before after : List Token) :
    walk (before ++ shiftedRule.fold [a, b, c] :: after) =
      walk (before ++ a :: b :: c :: after) := by
  rw [walk_append (t := a) (by simp [ha]), walk_shifted ha hb hc,
    walk_append (by simp [shiftedRule]), walk_copy (by simp [shiftedRule])]

theorem pass_of_rewrites {tokens tokens' : List Token} (h : Rewrites tokens tokens') :
    pass tokens' = pass tokens := by
  obtain ⟨before, after, h⟩ := h.shape
  rcases h with ⟨t, ht, rfl, rfl⟩ | ⟨a, b, ha, hb, rfl, rfl⟩ | ⟨a, b, c, ha, hb, hc, rfl, rfl⟩
  · simp only [pass, List.map_append, List.map_cons, numbered_numbered]
  -- Neither a folded window nor its folded token is a literal, so only the walk has to be compared.
  · have ha' : numbered a = a := numbered_of_not_literal (by simp [isLiteral, ha])
    have hb' : numbered b = b := numbered_of_not_literal (by simp [isLiteral, hb])
    have hf : numbered (labelRule.fold [a, b]) = labelRule.fold [a, b] := rfl
    simp only [pass, List.map_append, List.map_cons, ha', hb', hf]
    exact walk_fold_label ha hb _ _
  · have ha' : numbered a = a := numbered_of_not_literal (by simp [isLiteral, ha])
    have hb' : numbered b = b := numbered_of_not_literal (by simp [isLiteral, hb])
    have hc' : numbered c = c := numbered_of_not_literal (by simp [isLiteral, hc])
    have hf : numbered (shiftedRule.fold [a, b, c]) = shiftedRule.fold [a, b, c] := rfl
    simp only [pass, List.map_append, List.map_cons, ha', hb', hc', hf]
    exact walk_fold_shifted ha hb hc _ _

theorem pass_of_run {tokens tokens' : List Token} (h : ReflTransGen Rewrites tokens tokens') :
    pass tokens' = pass tokens := by
  induction h with
  | refl => rfl
  | tail _ hstep ih => rw [pass_of_rewrites hstep, ih]

theorem Stuck.of_append {before after : List Token} (h : Stuck (before ++ after)) : Stuck after := by
  intro after' hstep
  cases hstep with
  | @fold rule i hr hfit =>
      apply h (rule.applyAt (before ++ after) (before.length + i))
      refine Rewrites.fold hr ?_
      simpa only [Rule.FitsAt, List.drop_append, List.drop_of_length_le (Nat.le_add_right _ _),
        List.nil_append, Nat.add_sub_cancel_left] using hfit

theorem Stuck.tail {t : Token} {rest : List Token} (h : Stuck (t :: rest)) : Stuck rest :=
  Stuck.of_append (show Stuck ([t] ++ rest) from h)

theorem Stuck.head_not_literal {t : Token} {rest : List Token} (h : Stuck (t :: rest)) :
    isLiteral t = false := by
  cases ht : isLiteral t with
  | false => rfl
  | true =>
      obtain ⟨rule, hr, -, hpat, -⟩ := numbered_literal ht
      have hw : [t].map Token.kind = rule.pattern := hpat.symm
      exact absurd (Rewrites.of_context hr hw [] rest) (h _)

theorem Stuck.not_label {a b : Token} {rest : List Token} (h : Stuck (a :: b :: rest)) :
    ¬ (a.kind = .word ∧ b.kind = .colon) := by
  rintro ⟨ha, hb⟩
  have hw : [a, b].map Token.kind = labelRule.pattern := by simp [labelRule, ha, hb]
  exact h _ (Rewrites.of_context (by simp [rules]) hw [] rest)

theorem Stuck.not_shifted {a b c : Token} {rest : List Token} (h : Stuck (a :: b :: c :: rest)) :
    ¬ (a.kind = .register ∧ b.kind = .shift ∧ c.kind = .number) := by
  rintro ⟨ha, hb, hc⟩
  have hw : [a, b, c].map Token.kind = shiftedRule.pattern := by simp [shiftedRule, ha, hb, hc]
  exact h _ (Rewrites.of_context (by simp [rules]) hw [] rest)

theorem map_numbered_of_stuck {tokens : List Token} (h : Stuck tokens) :
    tokens.map numbered = tokens := by
  induction tokens with
  | nil => rfl
  | cons t rest ih =>
      rw [List.map_cons, ih h.tail, numbered_of_not_literal h.head_not_literal]

theorem walk_of_stuck {tokens : List Token} (h : Stuck tokens) : walk tokens = tokens := by
  induction tokens using walk.induct with
  | case1 => rfl
  | case2 a => rfl
  | case3 a b hlabel => exact absurd hlabel h.not_label
  | case4 a b hlabel => simp [walk, hlabel]
  | case5 a b c rest hlabel _ => exact absurd hlabel h.not_label
  | case6 a b c rest _ hshift _ => exact absurd hshift h.not_shifted
  | case7 a b c rest hlabel hshift ih => simp [walk, hlabel, hshift, ih h.tail]

theorem pass_of_stuck {tokens : List Token} (h : Stuck tokens) : pass tokens = tokens := by
  rw [pass, map_numbered_of_stuck h, walk_of_stuck h]

theorem weight_append (before after : List Token) :
    weight (before ++ after) = weight before + weight after := by
  simp only [weight, List.length_append, List.filter_append]
  omega

theorem weight_cons (t : Token) (rest : List Token) :
    weight (t :: rest) = (if isLiteral t then 2 else 1) + weight rest := by
  cases h : isLiteral t <;> simp [weight, h] <;> omega

/-- Every fold lowers the weight: a literal is read once, the other folds shorten the list. -/
theorem weight_of_rewrites {tokens tokens' : List Token} (h : Rewrites tokens tokens') :
    weight tokens' < weight tokens := by
  obtain ⟨before, after, h⟩ := h.shape
  rcases h with ⟨t, ht, rfl, rfl⟩ | ⟨a, b, ha, hb, rfl, rfl⟩ | ⟨a, b, c, ha, hb, hc, rfl, rfl⟩
  · simp only [weight_append, weight_cons, ht, isLiteral_numbered]
    simp
  · have hf : isLiteral (labelRule.fold [a, b]) = false := rfl
    have ha' : isLiteral a = false := by simp [isLiteral, ha]
    have hb' : isLiteral b = false := by simp [isLiteral, hb]
    simp only [weight_append, weight_cons, hf, ha', hb', Bool.false_eq_true, if_false]
    omega
  · have hf : isLiteral (shiftedRule.fold [a, b, c]) = false := rfl
    have ha' : isLiteral a = false := by simp [isLiteral, ha]
    have hb' : isLiteral b = false := by simp [isLiteral, hb]
    have hc' : isLiteral c = false := by simp [isLiteral, hc]
    simp only [weight_append, weight_cons, hf, ha', hb', hc', Bool.false_eq_true, if_false]
    omega

theorem no_endless_run (run : Nat → List Token) : ¬ ∀ n, Rewrites (run n) (run (n + 1)) := by
  intro hrun
  have hbound : ∀ n, weight (run n) + n ≤ weight (run 0) := by
    intro n
    induction n with
    | zero => exact Nat.le_refl _
    | succ n ih =>
        have hlt := weight_of_rewrites (hrun n)
        omega
  have hlast := hbound (weight (run 0) + 1)
  omega

theorem pattern_ne_nil {rule : Rule} (hr : rule ∈ rules) : rule.pattern ≠ [] := by
  rcases rule_cases hr with ⟨kind, base, rfl, -⟩ | rfl | rfl <;> exact List.cons_ne_nil _ _

/-- A rule fits where its pattern occurs among the kinds of the tokens. -/
theorem fitsAt_iff {rule : Rule} (hr : rule ∈ rules) (tokens : List Token) (i : Nat) :
    rule.FitsAt tokens i ↔
      Sequence.OccursAt (fun t kind => t.kind == kind) rule.pattern tokens i := by
  constructor
  · intro h
    have hpos := List.length_pos_iff.mpr (pattern_ne_nil hr)
    have hlen := congrArg List.length h
    simp only [List.length_map, List.length_take, List.length_drop] at hlen
    refine ⟨pattern_ne_nil hr, by omega, ?_⟩
    intro j hj
    have hkind := @List.getElem_of_eq _ _ _ h j (by rw [h]; exact hj)
    simpa only [beq_iff_eq, List.getElem_map, List.getElem_take, List.getElem_drop] using hkind
  · intro h
    have hfits := h.fits
    refine List.ext_getElem ?_ ?_
    · simp only [List.length_map, List.length_take, List.length_drop]
      omega
    · intro j _ hj
      simpa only [beq_iff_eq, List.getElem_map, List.getElem_take, List.getElem_drop] using
        h.hits j hj

theorem rewrites_of_step? {tokens tokens' : List Token} (h : step? tokens = some tokens') :
    Rewrites tokens tokens' := by
  obtain ⟨rule, hr, happly⟩ := List.exists_of_findSome?_eq_some h
  obtain ⟨i, hi, rfl⟩ := Option.map_eq_some_iff.mp happly
  obtain ⟨hoccurs, -⟩ := Sequence.window?_eq_some_iff.mp hi
  exact .fold hr ((fitsAt_iff hr tokens i).mpr hoccurs)

theorem stuck_of_step? {tokens : List Token} (h : step? tokens = none) : Stuck tokens := by
  intro tokens' hstep
  cases hstep with
  | @fold rule i hr hfit =>
      have hnone := Option.map_eq_none_iff.mp (List.findSome?_eq_none_iff.mp h rule hr)
      exact Sequence.window?_eq_none_iff.mp hnone i ((fitsAt_iff hr tokens i).mp hfit)

/-- With fuel for its weight, the iteration folds until no rule fits. -/
theorem iterate_run {fuel : Nat} {tokens : List Token} (hfuel : weight tokens ≤ fuel) :
    ReflTransGen Rewrites tokens (iterate fuel tokens) ∧ Stuck (iterate fuel tokens) := by
  induction fuel generalizing tokens with
  | zero =>
      refine ⟨.refl, ?_⟩
      intro tokens' hstep
      change Rewrites tokens tokens' at hstep
      have hlt := weight_of_rewrites hstep
      omega
  | succ fuel ih =>
      cases hstep : step? tokens with
      | none =>
          simp only [iterate, hstep]
          exact ⟨.refl, stuck_of_step? hstep⟩
      | some tokens' =>
          have hone := rewrites_of_step? hstep
          have hlt := weight_of_rewrites hone
          obtain ⟨hrun, hstuck⟩ := @ih tokens' (by omega)
          simp only [iterate, hstep]
          exact ⟨.head hone hrun, hstuck⟩

theorem reduce_run (tokens : List Token) : ReflTransGen Rewrites tokens (reduce tokens) :=
  (iterate_run (Nat.le_refl _)).1

theorem reduce_stuck (tokens : List Token) : Stuck (reduce tokens) :=
  (iterate_run (Nat.le_refl _)).2

/-- Folding by priority and from the left is the one pass over the tokens. -/
theorem reduce_eq_pass (tokens : List Token) : reduce tokens = pass tokens := by
  rw [← pass_of_stuck (reduce_stuck tokens), pass_of_run (reduce_run tokens)]

/-- No order of folds goes on for ever, and every order that cannot go on has ended in the reduced
    tokens; the order of `reduce` is one of them. -/
theorem every_order_ends_in_reduce (tokens : List Token) :
    (∀ run : Nat → List Token, run 0 = tokens → ¬ ∀ n, Rewrites (run n) (run (n + 1))) ∧
    (∀ tokens', ReflTransGen Rewrites tokens tokens' → Stuck tokens' → tokens' = reduce tokens) ∧
    ReflTransGen Rewrites tokens (reduce tokens) ∧ Stuck (reduce tokens) := by
  refine ⟨fun run _ => no_endless_run run, ?_, reduce_run tokens, reduce_stuck tokens⟩
  intro tokens' hrun hstuck
  calc tokens' = pass tokens' := (pass_of_stuck hstuck).symm
    _ = pass tokens := pass_of_run hrun
    _ = reduce tokens := (reduce_eq_pass tokens).symm

/-- `l: r1 shl 4`, scanned. -/
def labelledShift : List Token :=
  [⟨.word, .raw (.ofString "l"), ⟨⟨0, 0⟩, ⟨0, 1⟩⟩⟩, ⟨.colon, .raw (.ofString ":"), ⟨⟨0, 1⟩, ⟨0, 2⟩⟩⟩,
    ⟨.register, .raw (.ofString "r1"), ⟨⟨0, 3⟩, ⟨0, 5⟩⟩⟩,
    ⟨.shift, .raw (.ofString "shl"), ⟨⟨0, 6⟩, ⟨0, 9⟩⟩⟩,
    ⟨.decimalDigits, .raw (.ofString "4"), ⟨⟨0, 10⟩, ⟨0, 11⟩⟩⟩]

def labelFirst : List Token :=
  shiftedRule.applyAt
    ((digitsRule .decimalDigits 10).applyAt (labelRule.applyAt labelledShift 0) 3) 1

theorem labelFirst_ends_in_reduce :
    ReflTransGen Rewrites labelledShift labelFirst ∧ Stuck labelFirst ∧
      labelFirst = reduce labelledShift := by
  have hrun : ReflTransGen Rewrites labelledShift labelFirst := by
    refine .head (@Rewrites.fold _ labelRule 0 (by simp [rules]) rfl) ?_
    refine .head (@Rewrites.fold _ (digitsRule .decimalDigits 10) 3 (by simp [rules]) rfl) ?_
    exact .single (@Rewrites.fold _ shiftedRule 1 (by simp [rules]) rfl)
  have hstuck : Stuck labelFirst := stuck_of_step? rfl
  exact ⟨hrun, hstuck, (every_order_ends_in_reduce labelledShift).2.1 labelFirst hrun hstuck⟩

end AsmAssist.Folding
