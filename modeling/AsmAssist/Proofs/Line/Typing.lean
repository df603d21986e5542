import AsmAssist.Proofs.Folding.Pass
import AsmAssist.Proofs.Lexeme.Word
import AsmAssist.Proofs.Line.Plain
import AsmAssist.Proofs.Folding.Locality

/- Lines while they are typed. What is typed next can change how the last word is cut, and it can make a
   label of it, but it leaves all that stands before that word. -/

namespace AsmAssist

namespace Lexeme

theorem Atom.word_or_halts {a : Bytes} (h : Atom a) :
    (∃ b, Ascii.isWord b = true ∧ a = [b]) ∨ Halts a := by
  cases h with
  | gap hc =>
      have hgaps := (Gaps.cons hc .nil).halts
      rw [List.append_nil] at hgaps
      exact .inr hgaps
  | word hb => exact .inl ⟨_, hb, rfl⟩
  | mark hb => exact .inr (by simpa [Halts] using (mark_class _ hb).2)
  | arrow =>
      refine .inr ?_
      rintro _ ⟨⟩
      decide
  | quoted hq _ => exact .inr (by simpa [Halts] using (quote_class _ hq).2.1)

/-- A readable text is a word, or it ends in a word behind an atom that is part of none. -/
theorem Lexable.last_word {l : Bytes} (h : Lexable l) :
    (∀ b ∈ l, Ascii.isWord b = true) ∨
      ∃ before atom word, l = before ++ (atom ++ word) ∧ Lexable before ∧ Atom atom ∧ Halts atom ∧
        ∀ b ∈ word, Ascii.isWord b = true := by
  induction h with
  | nil => exact .inl (by simp)
  | @cons atom rest ha _ ih =>
      rcases ih with hwords | ⟨before, last, word, rfl, hbefore, hlast⟩
      · rcases ha.word_or_halts with ⟨b, hb, rfl⟩ | hhalts
        · exact .inl (List.forall_mem_cons.mpr ⟨hb, hwords⟩)
        · exact .inr ⟨[], atom, rest, rfl, .nil, ha, hhalts, hwords⟩
      · exact .inr ⟨atom ++ before, last, word, by rw [List.append_assoc], .cons ha hbefore, hlast⟩

/-- No rule before the rule of quotations takes anything off a quote. -/
theorem first?_quoted {quote : UInt8} (hq : quote ∈ quotes) {rest : Bytes} {cut : Cut}
    (h : quotation (quote :: rest) = some cut) :
    first? (quote :: rest) = some (.quoted, cut) := by
  have hrules : rules = rules.take 10 ++ ⟨.quoted, quotation⟩ :: rules.drop 11 := rfl
  have hquotes : quote ∈ [34, 39] := hq
  have hnone : ((rules.take 10).findSome? fun rule =>
      (rule.cut? (quote :: rest)).map (rule.kind, ·)) = none := by
    rcases List.mem_pair.mp hquotes with rfl | rfl <;> rfl
  exact first?_of_split hrules hnone h

end Lexeme

namespace Scanner

open Lexeme (Atom Halts Gaps quotation_body first?_quoted)
open Scan (shown operandMarks otherMarks)

/-- An atom that is no part of a word shows the same before all texts. -/
theorem view_atom {atom : Bytes} (ha : Atom atom) (hhalts : Halts atom) (position : Position) :
    ∃ tokens, ∀ r, view ⟨atom ++ r, position⟩ =
      (view ⟨r, position.moveRight atom.runeCount⟩).prepend tokens := by
  have hmark : ∀ {sep kind}, Scan.Separator sep kind → ∃ tokens, ∀ r,
      view ⟨sep ++ r, position⟩ = (view ⟨r, position.moveRight sep.runeCount⟩).prepend tokens :=
    fun hsep => ⟨_, fun r => hsep.view_append r position⟩
  cases ha with
  | gap hc =>
      refine ⟨[], fun r => ?_⟩
      have hgaps := Gaps.cons hc .nil
      rw [List.append_nil] at hgaps
      exact view_gaps hgaps r position
  | word hb => exact absurd hb (by simp [hhalts _ rfl])
  | mark hb =>
      have hall : (Lexeme.marks.all fun b =>
          ((operandMarks ++ otherMarks).map Prod.fst).contains [b]) = true := by decide
      have hmem := List.contains_iff_mem.mp (List.all_eq_true.mp hall _ hb)
      obtain ⟨⟨_, kind⟩, hm, rfl⟩ := List.mem_map.mp hmem
      exact hmark (.mark hm)
  | arrow => exact @hmark _ .comma (.mark (by simp [operandMarks]))
  | @quoted quote body hq hbody =>
      refine ⟨shown (tokenAt position .quoted ⟨body.length + 2, body⟩ (quote :: (body ++ [quote]))),
        fun r => ?_⟩
      have hfirst := first?_quoted hq (quotation_body hq hbody r)
      refine view_take ⟨?_, by simp, List.cons_ne_nil _ _, (Atom.quoted hq hbody).lexable⟩ position
      simpa using hfirst

end Scanner

namespace Scan

open Lexeme (Lexable wordKinds)
open Scanner (view view_atom)

/-- All that is read of a word is of the kinds that start with a byte of a word. -/
theorem kinds_of_words {w : Bytes} (hw : ∀ b ∈ w, Ascii.isWord b = true) (lineNumber : Int) :
    ∀ t ∈ (line w lineNumber).tokens, t.kind ∈ wordKinds := by
  intro t ht
  obtain ⟨pieces, s, hreads, p, hp, rfl⟩ := piece_of_mem ht
  obtain ⟨kind, cut, position, rest, htoken, htakes⟩ := hreads.taken p hp
  obtain ⟨b, text, htext⟩ := List.exists_cons_of_ne_nil htakes.ne_nil
  have hb : b ∈ w := by
    have hline : w = Scanner.texts pieces ++ s.rest := hreads.rest_eq
    have hmem : b ∈ Scanner.texts pieces :=
      List.mem_flatMap.mpr ⟨p, hp, by rw [htext]; exact List.mem_cons_self⟩
    rw [hline]
    exact List.mem_append_left _ hmem
  have hfound := htakes.found
  rw [htext, List.cons_append] at hfound
  rw [htoken]
  exact Lexeme.kind_of_word (hw b hb) hfound

/-- When a line that was read to its end goes on, only what was read of its last word can change. -/
theorem line_continued {text : Bytes} {lineNumber : Int} (h : (line text lineNumber).error = none)
    (more : Bytes) : ∃ kept word changed, (line text lineNumber).tokens = kept ++ word ∧
      (∀ t ∈ word, t.kind ∈ wordKinds) ∧ (line (text ++ more) lineNumber).tokens = kept ++ changed := by
  rcases (lexable_of_complete h).last_word with
    hwords | ⟨before, atom, word, rfl, hbefore, hatom, hhalts, hword⟩
  · exact ⟨[], _, _, rfl, kinds_of_words hwords lineNumber, rfl⟩
  · have hcomplete := complete_of_lexable hbefore lineNumber
    obtain ⟨shown, hshown⟩ := view_atom hatom hhalts ⟨lineNumber, before.runeCount⟩
    have hline : ∀ rest, (line (before ++ (atom ++ rest)) lineNumber).tokens =
        (line before lineNumber).tokens ++ shown ++
          (view ⟨rest, ⟨lineNumber, before.runeCount + atom.runeCount⟩⟩).tokens := by
      intro rest
      rw [line_append hcomplete (hhalts.append hatom.ne_nil rest), hshown]
      simp only [prepend, Position.moveRight, List.append_assoc]
    have hmore := hline (word ++ more)
    rw [← List.append_assoc, ← List.append_assoc, List.append_assoc before] at hmore
    refine ⟨_, _, _, hline word, ?_, hmore⟩
    · rw [view_at]
      simp only [relocate, List.mem_map]
      rintro _ ⟨t, ht, rfl⟩
      rw [Token.relocate_kind]
      exact kinds_of_words hword lineNumber t ht

end Scan

namespace Operand

open Folding

/-- A separator counts, unless it is the colon of a label. -/
def countsBehind (before kind : Kind) : Bool :=
  isSeparator kind && !(before == .word && kind == .colon)

/-- The number of separators that count behind the kind `before`. -/
def countBehind : Kind → List Kind → Nat
  | _, [] => 0
  | before, kind :: kinds => (if countsBehind before kind then 1 else 0) + countBehind kind kinds

/-- The number of separators that count behind the mnemonic, which stands behind the labels in front. -/
def progress : List Kind → Nat
  | [] => 0
  | [_] => 0
  | first :: second :: kinds =>
      if first == .word && second == .colon then progress kinds
      else countBehind first (second :: kinds)

section Kinds

variable {tokens : List Token}

/-! ### Progress along a line -/

theorem countBehind_append (before : Kind) (kinds more : List Kind) :
    countBehind before kinds ≤ countBehind before (kinds ++ more) := by
  induction kinds generalizing before with
  | nil => exact Nat.zero_le _
  | cons kind kinds ih => exact Nat.add_le_add_left (ih kind) _

theorem countBehind_of_none {kinds : List Kind} (h : ∀ kind ∈ kinds, isSeparator kind = false)
    (before : Kind) : countBehind before kinds = 0 := by
  induction kinds generalizing before with
  | nil => rfl
  | cons kind kinds ih =>
      obtain ⟨hkind, hkinds⟩ := List.forall_mem_cons.mp h
      rw [countBehind, ih hkinds, countsBehind, hkind]
      rfl

theorem countBehind_append_of_none {more : List Kind}
    (h : ∀ kind ∈ more, isSeparator kind = false) (before : Kind) (kinds : List Kind) :
    countBehind before (kinds ++ more) = countBehind before kinds := by
  induction kinds generalizing before with
  | nil => exact countBehind_of_none h before
  | cons kind kinds ih => rw [List.cons_append, countBehind, countBehind, ih kind]

theorem countBehind_le (before : Kind) (kinds : List Kind) :
    countBehind before kinds ≤ (kinds.filter isSeparator).length := by
  induction kinds generalizing before with
  | nil => exact Nat.le_refl _
  | cons kind kinds ih =>
      have hrest := ih kind
      rw [countBehind, countsBehind]
      cases hkind : isSeparator kind with
      | false => simpa [hkind] using hrest
      | true =>
          rw [List.filter_cons_of_pos hkind, List.length_cons]
          split <;> omega

theorem progress_append (kinds more : List Kind) : progress kinds ≤ progress (kinds ++ more) := by
  fun_induction progress kinds with
  | case1 => exact Nat.zero_le _
  | case2 => exact Nat.zero_le _
  | case3 first second kinds hlabel ih =>
      rw [List.cons_append, List.cons_append, progress, if_pos hlabel]
      exact ih
  | case4 first second kinds hlabel =>
      rw [List.cons_append, List.cons_append, progress, if_neg hlabel]
      exact countBehind_append first (second :: kinds) more

theorem progress_le (kinds : List Kind) :
    progress kinds ≤ (kinds.tail.filter isSeparator).length := by
  fun_induction progress kinds with
  | case1 => exact Nat.zero_le _
  | case2 => exact Nat.zero_le _
  | case3 first second kinds _ ih =>
      have hsublist : List.Sublist kinds.tail (second :: kinds) :=
        (List.tail_sublist kinds).trans (List.sublist_cons_self second kinds)
      exact ih.trans (hsublist.filter _).length_le
  | case4 first second kinds _ => exact countBehind_le first (second :: kinds)

/-- Kinds that are no separators make no progress. -/
theorem progress_append_of_none {more : List Kind} (h : ∀ kind ∈ more, isSeparator kind = false)
    (kinds : List Kind) : progress (kinds ++ more) ≤ progress kinds := by
  have hnone : ∀ {kinds : List Kind}, List.Sublist kinds.tail more → progress kinds ≤ 0 := by
    intro kinds hsublist
    have hle := (progress_le kinds).trans (hsublist.filter _).length_le
    rwa [List.filter_eq_nil_iff.mpr (by simpa using h)] at hle
  fun_induction progress kinds with
  | case1 => exact hnone (List.tail_sublist more)
  | case2 => exact hnone (List.Sublist.refl more)
  | case3 first second kinds hlabel ih =>
      rw [List.cons_append, List.cons_append, progress, if_pos hlabel]
      exact ih
  | case4 first second kinds hlabel =>
      rw [List.cons_append, List.cons_append, progress, if_neg hlabel]
      exact Nat.le_of_eq (countBehind_append_of_none h first (second :: kinds))

/-! ### Progress and folding -/

theorem separators_cons (t : Token) (rest : List Token) :
    separators (t :: rest) = (if isSeparator t.kind then 1 else 0) + separators rest := by
  cases h : isSeparator t.kind <;> simp [separators, h, Nat.add_comm]

theorem isSeparator_numbered (t : Token) : isSeparator (numbered t).kind = isSeparator t.kind := by
  unfold numbered
  split
  · next h => rw [h]; rfl
  · next h => rw [h]; rfl
  · next h => rw [h]; rfl
  · rfl

/-- A register and a shift with an amount show no separator, and no label starts with the amount. -/
theorem countBehind_shifted {b c : Token} (hb : b.kind = .shift) (hc : (numbered c).kind = .number)
    (before : Kind) (kinds : List Kind) :
    countBehind before (b.kind :: c.kind :: kinds) = countBehind c.kind kinds ∧ c.kind ≠ .word := by
  have hamount : isSeparator c.kind = false := by
    rw [← isSeparator_numbered, hc]
    rfl
  have hshift : isSeparator .shift = false := rfl
  refine ⟨by simp [countBehind, countsBehind, hb, hamount, hshift], ?_⟩
  intro hword
  rw [numbered_of_not_literal (by simp [isLiteral, hword]), hword] at hc
  cases hc

/-- The pass leaves the separators that count, unless the first belongs to a label before it. -/
theorem separators_pass {before : Kind} {tokens : List Token}
    (h : ∀ t ∈ tokens.head?, ¬ (before = .word ∧ t.kind = .colon)) :
    separators (pass tokens) = countBehind before (tokens.map Token.kind) := by
  -- On the length: a label and a shifted register take several tokens at once.
  induction hn : tokens.length using Nat.strongRecOn generalizing before tokens with
  | ind n ih =>
      cases tokens with
      | nil => rfl
      | cons a rest =>
          have hfirst : countsBehind before a.kind = isSeparator a.kind := by
            have hnot := h a rfl
            cases hsep : isSeparator a.kind <;> simp [countsBehind, hsep, not_and_or.mp hnot]
          rw [List.map_cons, countBehind, hfirst]
          by_cases hpair : ∀ b ∈ rest.head?, ¬ (a.kind = .word ∧ b.kind = .colon)
          · rcases pass_cons a rest with
              ⟨b, more, rfl, ha, hb, -⟩ | ⟨b, c, more, rfl, ha, hb, hc, hpass⟩ | hpass
            · exact absurd ⟨ha, hb⟩ (hpair b rfl)
            · obtain ⟨hcount, hword⟩ := countBehind_shifted hb hc a.kind (more.map Token.kind)
              rw [hpass, separators_cons, Rule.fold_kind, List.map_cons, List.map_cons, hcount,
                ih _ (by simp at hn; omega) (fun t _ hnot => hword hnot.1) rfl, ha]
              rfl
            · rw [hpass, separators_cons, isSeparator_numbered, ih _ (by simp at hn; omega) hpair rfl]
          · cases rest with
            | nil => exact absurd (by simp) hpair
            | cons b more =>
                obtain ⟨ha, hb⟩ : a.kind = .word ∧ b.kind = .colon := by simpa using hpair
                have hcolon : countsBehind .word .colon = false := rfl
                have hword : isSeparator labelRule.kind = isSeparator .word := rfl
                rw [pass_label ha hb, separators_cons, Rule.fold_kind, List.map_cons, countBehind,
                  @ih _ (by simp at hn; omega) .colon more (by simp) rfl, ha, hb, hcolon, hword]
                simp

/-- Behind a token that does not name a label, the pass leaves the separators that count. -/
theorem separators_behind {a : Token} {rest : List Token}
    (hpair : ∀ b ∈ rest.head?, ¬ (a.kind = .word ∧ b.kind = .colon)) :
    separators (pass (a :: rest)).tail = countBehind a.kind (rest.map Token.kind) := by
  rcases pass_cons a rest with
    ⟨b, more, rfl, ha, hb, -⟩ | ⟨b, c, more, rfl, -, hb, hc, hpass⟩ | hpass
  · exact absurd ⟨ha, hb⟩ (hpair b rfl)
  · obtain ⟨hcount, hword⟩ := countBehind_shifted hb hc a.kind (more.map Token.kind)
    rw [hpass, List.map_cons, List.map_cons, hcount]
    exact separators_pass fun t _ hnot => hword hnot.1
  · rw [hpass]
    exact separators_pass hpair

/-- Folded operands have as many separators as the scanned line has made progress. -/
theorem separators_operands {tokens : List Token} (h : ∀ t ∈ tokens, t.kind ≠ .label) :
    separators (Line.dropLabels (reduce tokens)).tail = progress (tokens.map Token.kind) := by
  rw [reduce_eq_pass]
  induction hn : tokens.length using Nat.strongRecOn generalizing tokens with
  | ind n ih =>
      cases tokens with
      | nil => rfl
      | cons a rest =>
          by_cases hpair : ∀ b ∈ rest.head?, ¬ (a.kind = .word ∧ b.kind = .colon)
          · have hunlabelled : ∀ t ∈ (pass (a :: rest)).head?, t.kind ≠ .label := by
              refine pass_no_label (fun t ht => h t (List.mem_of_mem_head? ht)) ?_
              rintro a b rest ⟨rfl, rfl⟩
              exact hpair b rfl
            have hdrop : Line.dropLabels (pass (a :: rest)) = pass (a :: rest) := by
              cases hpass : pass (a :: rest) with
              | nil => rfl
              | cons t folded => exact Line.dropLabels_cons (hunlabelled t (by rw [hpass]; rfl)) folded
            rw [hdrop, separators_behind hpair]
            cases rest with
            | nil => rfl
            | cons b more =>
                have hnot : ¬ (a.kind == .word && b.kind == .colon) = true := by
                  simpa using hpair b rfl
                simp only [List.map_cons]
                rw [progress, if_neg hnot]
          · cases rest with
            | nil => exact absurd (by simp) hpair
            | cons b more =>
                obtain ⟨ha, hb⟩ : a.kind = .word ∧ b.kind = .colon := by simpa using hpair
                have hrest := ih more.length (by simp at hn; omega)
                  (fun t ht => h t (List.mem_cons_of_mem _ (List.mem_cons_of_mem _ ht))) rfl
                have hlabel : Line.dropLabels (pass (a :: b :: more)) = Line.dropLabels (pass more) := by
                  rw [pass_label ha hb]
                  rfl
                have hprogress : progress (.word :: .colon :: more.map Token.kind) =
                    progress (more.map Token.kind) := by
                  rw [progress.eq_def]
                  rfl
                rw [hlabel, hrest, List.map_cons, List.map_cons, ha, hb, hprogress]

end Kinds

theorem analyze_mono {tokens others : List Token} (h : separators tokens ≤ separators others)
    (arity registerArity : Int64) :
    (analyze tokens arity registerArity).arguments ≤ (analyze others arity registerArity).arguments ∧
      (analyze tokens arity registerArity).activeParameter ≤
        (analyze others arity registerArity).activeParameter := by
  refine ⟨h, Int.toNat_le_toNat ?_⟩
  exact min_le_min_right _ (Int.ofNat_le.mpr h)

end Operand

namespace Line

open Operand (progress separators)

variable {text : Bytes} {lineNumber : Int}

theorem operands_eq (text : Bytes) (lineNumber : Int) :
    operands text lineNumber = (dropLabels (tokenize text lineNumber)).tail := by
  rw [operands, instruction]
  cases dropLabels (tokenize text lineNumber) <;> rfl

theorem separators_of_complete (h : (Scan.line text lineNumber).error = none) :
    separators (operands text lineNumber) =
      progress ((Scan.line text lineNumber).tokens.map Token.kind) := by
  rw [operands_eq, Folding.tokenize_of_complete h]
  exact Operand.separators_operands fun t ht => (Folding.scanned_of_mem t ht).not_label

/-- Also on a line that is not folded, no separator that counts is missed. -/
theorem progress_le_separators (text : Bytes) (lineNumber : Int) :
    progress ((Scan.line text lineNumber).tokens.map Token.kind) ≤
      separators (operands text lineNumber) := by
  cases herror : (Scan.line text lineNumber).error with
  | none => exact Nat.le_of_eq (separators_of_complete herror).symm
  | some e =>
      have hflat : operands text lineNumber = (Scan.line text lineNumber).tokens.tail := by
        rw [operands_eq, tokenize]
        simp only [herror, dropLabels_scanned Folding.scanned_of_mem]
      rw [hflat, Operand.separators_eq, List.map_tail]
      exact Operand.progress_le _

/-- However a line that was read to its end goes on, its operands are not further back than before:
    neither has the instruction fewer separators, nor is an earlier parameter active. -/
theorem typing_never_moves_back (h : (Scan.line text lineNumber).error = none) (more : Bytes)
    (arity registerArity : Int64) :
    (Operand.analyze (operands text lineNumber) arity registerArity).arguments ≤
        (Operand.analyze (operands (text ++ more) lineNumber) arity registerArity).arguments ∧
      (Operand.analyze (operands text lineNumber) arity registerArity).activeParameter ≤
        (Operand.analyze (operands (text ++ more) lineNumber) arity registerArity).activeParameter := by
  obtain ⟨kept, word, changed, htext, hword, hmore⟩ := Scan.line_continued h more
  have hnone : ∀ kind ∈ word.map Token.kind, Operand.isSeparator kind = false := by
    have hkinds : ∀ kind ∈ Lexeme.wordKinds, Operand.isSeparator kind = false := by decide
    exact List.forall_mem_map.mpr fun t ht => hkinds _ (hword t ht)
  refine Operand.analyze_mono ?_ arity registerArity
  calc separators (operands text lineNumber)
      = progress (kept.map Token.kind ++ word.map Token.kind) := by
        rw [separators_of_complete h, htext, List.map_append]
    _ ≤ progress (kept.map Token.kind) := Operand.progress_append_of_none hnone _
    _ ≤ progress (kept.map Token.kind ++ changed.map Token.kind) := Operand.progress_append _ _
    _ ≤ separators (operands (text ++ more) lineNumber) := by
        rw [← List.map_append, ← hmore]
        exact progress_le_separators _ _

/-- The last word is cut anew, it becomes the name of a label, and then nothing is folded. -/
theorem typing_through_last_word :
    (Scan.line (.ofString "loop: ld 1: r1, 0b1") 0).error = none ∧
    (Operand.analyze (operands (.ofString "loop: ld 1: r1, 0b1") 0) 3 1).arguments ≤
      (Operand.analyze (operands (.ofString "loop: ld 1: r1, 0b1" ++ .ofString "2x: %") 0) 3 1).arguments ∧
    (Operand.analyze (operands (.ofString "loop: ld 1: r1, 0b1") 0) 3 1).activeParameter ≤
      (Operand.analyze (operands (.ofString "loop: ld 1: r1, 0b1" ++ .ofString "2x: %") 0) 3
        1).activeParameter := by
  have hcomplete : (Scan.line (.ofString "loop: ld 1: r1, 0b1") 0).error = none := by decide
  exact ⟨hcomplete, typing_never_moves_back hcomplete (.ofString "2x: %") 3 1⟩

end Line

end AsmAssist
