import AsmAssist.Proofs.Lexeme.Register
import AsmAssist.Proofs.Line.Typing
import AsmAssist.Proofs.Scanner.Spacing

/- What a line ends in. A register opens a window of folding or stands alone, so a line is folded apart
   before it: behind an instruction, an operand that starts with a register is seen as it is seen on
   its own, whatever marks follow it. -/

namespace AsmAssist

namespace Scan

open Lexeme (NamesRegister)

/-- A name of a register is a line of one token. -/
theorem line_of_register {name : Bytes} (h : NamesRegister name) (lineNumber : Int) :
    ∃ t, line name lineNumber = ⟨[t], none⟩ ∧ t.content = (.register, name) :=
  ⟨_, line_of_takes (Scanner.takes_of_first? h.first? rfl) lineNumber, rfl⟩

theorem line_of_digits {digits : Bytes} (hne : digits ≠ [])
    (h : ∀ b ∈ digits, Ascii.isDigit b = true) (lineNumber : Int) :
    ∃ t, line digits lineNumber = ⟨[t], none⟩ ∧ t.content = (.decimalDigits, digits) := by
  obtain ⟨kind, hkind, hfirst⟩ := (Lexeme.Written.decimal hne h).first?
  obtain rfl : kind = .decimalDigits := by simpa [Lexeme.literals] using hkind
  exact ⟨_, line_of_takes (Scanner.takes_of_first? hfirst rfl) lineNumber, rfl⟩

/-- `r` and more than two digits are a register and a number. -/
theorem line_of_long {r : UInt8} {digits : Bytes} (hr : Ascii.isLetterOf 'r' r = true)
    (hlen : 2 < digits.length) (hdigits : ∀ b ∈ digits, Ascii.isDigit b = true) (lineNumber : Int) :
    (line (r :: digits) lineNumber).error = none ∧
      (line (r :: digits) lineNumber).tokens.map Token.content =
        [(.register, (r :: digits).take 3), (.decimalDigits, (r :: digits).drop 3)] := by
  have hsplit : (r :: digits).take 3 ++ (r :: digits).drop 3 = r :: digits :=
    List.take_append_drop 3 _
  have hwords : ∀ b ∈ r :: digits, Ascii.isWord b = true := by
    refine List.forall_mem_cons.mpr ⟨(Lexeme.register_letter r (by simp [hr])).1, ?_⟩
    exact fun b hb => Lexeme.hex_word b (Lexeme.digit_hex b (hdigits b hb)).1
  have htakes : Scanner.Takes .register ⟨3, (r :: digits).take 3⟩ ((r :: digits).take 3)
      ((r :: digits).drop 3) := by
    refine ⟨?_, ?_, by simp, Lexeme.lexable_of_words fun b hb => hwords b (List.mem_of_mem_take hb)⟩
    · rw [hsplit]
      exact Lexeme.first?_long hr hlen hdigits
    · exact List.length_take_of_le (Nat.succ_le_succ (Nat.le_of_lt hlen))
  have hrest : (r :: digits).drop 3 ≠ [] := by simpa using hlen
  obtain ⟨number, hnumber, hcontent⟩ :=
    line_of_digits hrest (fun b hb => hdigits b (List.mem_of_mem_drop hb)) lineNumber
  have hline := Scanner.view_take htakes ⟨lineNumber, 0⟩
  rw [hsplit, Position.moveRight, view_at (List.drop _ _), hnumber] at hline
  change line (r :: digits) lineNumber = _ at hline
  rw [hline, ← hcontent]
  refine ⟨rfl, ?_⟩
  simp only [prepend, relocate, List.map_append, List.map_cons, List.map_nil, Token.content_relocate]
  rfl

end Scan

namespace Folding

theorem reduce_append_of_register {t : Token} (ht : t.kind = .register) (before after : List Token) :
    reduce (before ++ t :: after) = reduce before ++ reduce (t :: after) := by
  have hnumbered : numbered t = t := numbered_of_not_literal (by simp [isLiteral, ht])
  simp only [reduce_eq_pass, pass, List.map_append, List.map_cons, hnumbered]
  exact walk_append (by simp [ht]) _ _

/-- Every pattern holds a kind that is no mark, so nothing is folded among marks. -/
theorem reduce_marks {marks : List Token}
    (h : ∀ t ∈ marks, Operand.isSeparator t.kind = true) : reduce marks = marks := by
  have hpatterns : ∀ rule ∈ rules, ∃ kind ∈ rule.pattern, Operand.isSeparator kind = false := by
    decide
  have hstuck : Stuck marks := by
    rw [stuck_iff]
    intro rule hr hfits
    obtain ⟨kind, hkind, hother⟩ := hpatterns rule hr
    obtain ⟨t, ht, rfl⟩ := List.mem_map.mp (hfits.mem hkind)
    rw [h t ht] at hother
    cases hother
  rw [reduce_eq_pass, pass_of_stuck hstuck]

/-- Digits behind a register become a number, and the register stays a register. -/
theorem reduce_register_digits {register digits : Token} (hregister : register.kind = .register)
    (hdigits : digits.kind = .decimalDigits) {marks : List Token}
    (h : ∀ t ∈ marks, Operand.isSeparator t.kind = true) :
    reduce (register :: digits :: marks) = [numbered register] ++ numbered digits :: marks := by
  have hnumber : pass (digits :: marks) = numbered digits :: pass marks := by
    rcases pass_cons digits marks with ⟨-, -, -, hword, -⟩ | ⟨-, -, -, -, hother, -⟩ | hpass
    · rw [hdigits] at hword
      cases hword
    · rw [hdigits] at hother
      cases hother
    · exact hpass
  rw [reduce_eq_pass]
  rcases pass_cons register (digits :: marks) with
    ⟨-, -, -, hword, -⟩ | ⟨shift, _, _, hsplit, -, hshift, -⟩ | hpass
  · rw [hregister] at hword
    cases hword
  · obtain ⟨rfl, -⟩ := List.cons.inj hsplit
    rw [hdigits] at hshift
    cases hshift
  · rw [hpass, hnumber, ← reduce_eq_pass, reduce_marks h]
    rfl

end Folding

namespace Operand

open Folding

/-- What an operand ends in does not depend on what stands before it. -/
theorem lastKind_append {operand : List Token} (h : lastKind operand ≠ .unknown)
    (before : List Token) : lastKind (before ++ operand) = lastKind operand := by
  simp only [lastKind, List.filter_append, List.getLast?_append] at h ⊢
  cases hlast : (operand.filter fun t => !isSeparator t.kind).getLast? with
  | none => simp [hlast] at h
  | some t => rfl

theorem lastKind_before_marks {t : Token} (ht : isSeparator t.kind = false) {marks : List Token}
    (h : ∀ m ∈ marks, isSeparator m.kind = true) (before : List Token) :
    lastKind (before ++ t :: marks) = t.kind := by
  have hnone : marks.filter (fun m => !isSeparator m.kind) = [] := by
    rw [List.filter_eq_nil_iff]
    intro m hm
    simp [h m hm]
  simp [lastKind, ht, hnone]

end Operand

namespace Line

open Folding

/-- A line in which a text is the last operand. The text stands behind an instruction, set apart by a
    gap or a mark; marks may follow it, and what cannot be read. -/
inductive EndsIn (operand : Bytes) (lineNumber : Int) : Bytes → Prop
  | intro {before sep after : Bytes} {kind : Kind} : (Scan.line before lineNumber).error = none →
      Scan.Separator sep kind → instruction (before ++ sep) lineNumber ≠ [] → Lexeme.Halts after →
      (∀ t ∈ (Scan.line after lineNumber).tokens, Operand.isSeparator t.kind = true) →
      EndsIn operand lineNumber (before ++ sep ++ (operand ++ after))

example : EndsIn (.ofString "lr") 0 (.ofString "l: ldr r1, [r2 + lr ] @") :=
  @EndsIn.intro _ _ (.ofString "l: ldr r1, [r2 +") Scan.blank (.ofString " ] @") _ (by decide)
    Scan.separator_blank (by decide) (by rintro _ ⟨⟩; decide) (by decide)

variable {operand text : Bytes} {lineNumber : Int}

/-- The tokens of the operand have the kinds that they have on their own. -/
theorem EndsIn.tokens (h : EndsIn operand lineNumber text)
    (hoperand : (Scan.line operand lineNumber).error = none) :
    ∃ front own marks, (Scan.line text lineNumber).tokens = front ++ (own ++ marks) ∧
      dropLabels (reduce front) ≠ [] ∧
      own.map Token.kind = (Scan.line operand lineNumber).tokens.map Token.kind ∧
      ∀ t ∈ marks, Operand.isSeparator t.kind = true := by
  cases h with
  | @intro before sep after kind hbefore hsep hinstruction hafter hmarks =>
      have hempty : Scan.line [] lineNumber = ⟨[], none⟩ := rfl
      have hfront := Scan.line_separator hbefore hsep []
      rw [List.append_nil, hempty] at hfront
      have hcomplete : (Scan.line (before ++ sep) lineNumber).error = none := by
        rw [hfront]
        rfl
      have htokens := congrArg Scan.tokens (Scan.line_separator hbefore hsep (operand ++ after))
      rw [Scan.line_append hoperand hafter, Scan.view_at] at htokens
      have hsplit : (Scan.line (before ++ sep ++ (operand ++ after)) lineNumber).tokens =
          (Scan.line (before ++ sep) lineNumber).tokens ++
            ((Scan.line operand lineNumber).tokens.map (Token.moveRight (before ++ sep).runeCount) ++
              ((Scan.line after lineNumber).tokens.map (Token.moveRight operand.runeCount)).map
                (Token.moveRight (before ++ sep).runeCount)) := by
        rw [htokens, hfront]
        simp only [Scan.prepend, Scan.relocate, List.map_append, List.map_nil, List.append_nil]
      refine ⟨_, _, _, hsplit, ?_, Token.map_kind_relocate _ _, ?_⟩
      · intro hnil
        rw [instruction, tokenize_of_complete hcomplete, hnil] at hinstruction
        exact hinstruction rfl
      · simp only [List.forall_mem_map, Token.moveRight, Token.relocate_kind]
        exact hmarks

theorem dropLabels_append_of_ne_nil {tokens : List Token} (h : dropLabels tokens ≠ [])
    (more : List Token) : dropLabels (tokens ++ more) = dropLabels tokens ++ more := by
  rw [dropLabels, List.dropWhile_append, if_neg (by simpa [dropLabels] using h)]
  rfl

/-- Behind the instruction the operand is folded apart, or nothing on the line is folded. -/
theorem EndsIn.operands (h : EndsIn operand lineNumber text)
    (hoperand : (Scan.line operand lineNumber).error = none) {kinds : List Kind}
    (hkinds : (Scan.line operand lineNumber).tokens.map Token.kind = .register :: kinds) :
    ∃ front register own marks, register.kind = .register ∧ own.map Token.kind = kinds ∧
      (∀ t ∈ marks, Operand.isSeparator t.kind = true) ∧
      (operands text lineNumber = front ++ reduce (register :: (own ++ marks)) ∨
        operands text lineNumber = front ++ register :: (own ++ marks)) := by
  obtain ⟨front, own, marks, htokens, hfront, hown, hmarks⟩ := h.tokens hoperand
  obtain ⟨register, own, rfl, hregister, hrest⟩ := List.map_eq_cons_iff.mp (hown.trans hkinds)
  rw [operands_eq]
  cases herror : (Scan.line text lineNumber).error with
  | none =>
      obtain ⟨first, rest, hsplit⟩ := List.exists_cons_of_ne_nil hfront
      refine ⟨rest, register, own, marks, hregister, hrest, hmarks, .inl ?_⟩
      rw [tokenize_of_complete herror, htokens, List.cons_append,
        reduce_append_of_register hregister, dropLabels_append_of_ne_nil hfront, hsplit]
      rfl
  | some e =>
      have hne : front ≠ [] := by
        rintro rfl
        exact hfront rfl
      obtain ⟨first, rest, rfl⟩ := List.exists_cons_of_ne_nil hne
      refine ⟨rest, register, own, marks, hregister, hrest, hmarks, .inr ?_⟩
      simp only [tokenize, herror, dropLabels_scanned scanned_of_mem]
      rw [htokens]
      rfl

/-- A line that ends in a register is seen to end in one. -/
theorem EndsIn.lastKind_register (h : EndsIn operand lineNumber text)
    (hoperand : (Scan.line operand lineNumber).error = none)
    (hkinds : (Scan.line operand lineNumber).tokens.map Token.kind = [.register]) :
    Operand.lastKind (Line.operands text lineNumber) = .register := by
  obtain ⟨front, register, own, marks, hregister, hown, hmarks, hoperands⟩ :=
    h.operands hoperand hkinds
  obtain rfl := List.map_eq_nil_iff.mp hown
  have hlast : Operand.lastKind (register :: marks) = .register :=
    (Operand.lastKind_before_marks (by rw [hregister]; rfl) hmarks []).trans hregister
  rcases hoperands with hoperands | hoperands
  · have hfolded := (Operand.lastKind_reduce _).mpr hlast
    rw [hoperands, List.nil_append, Operand.lastKind_append (by simp [hfolded]), hfolded]
  · rw [hoperands, List.nil_append, Operand.lastKind_append (by simp [hlast]), hlast]

/-- A line that ends in a register and digits is seen to end in a number. -/
theorem EndsIn.lastKind_digits (h : EndsIn operand lineNumber text)
    (hoperand : (Scan.line operand lineNumber).error = none)
    (hkinds : (Scan.line operand lineNumber).tokens.map Token.kind = [.register, .decimalDigits]) :
    Operand.lastKind (Line.operands text lineNumber) ∈ [Kind.number, .decimalDigits] := by
  obtain ⟨front, register, own, marks, hregister, hown, hmarks, hoperands⟩ :=
    h.operands hoperand hkinds
  obtain ⟨digits, rfl, hdigits⟩ := List.map_eq_singleton_iff.mp hown
  have hnumber : (numbered digits).kind = .number := by
    simp only [numbered, hdigits]
    rfl
  have hfolded := reduce_register_digits hregister hdigits hmarks
  rcases hoperands with hoperands | hoperands
  · rw [hoperands, List.singleton_append, hfolded, ← List.append_assoc,
      Operand.lastKind_before_marks (by rw [hnumber]; rfl) hmarks, hnumber]
    decide
  · have hsplit : front ++ register :: ([digits] ++ marks) =
        (front ++ [register]) ++ digits :: marks := by simp
    rw [hoperands, hsplit, Operand.lastKind_before_marks (by rw [hdigits]; rfl) hmarks, hdigits]
    decide

end Line

end AsmAssist
