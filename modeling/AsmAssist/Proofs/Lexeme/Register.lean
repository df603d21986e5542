import AsmAssist.Proofs.Decimal
import AsmAssist.Proofs.Lexeme.Word

/- Names of registers. A text that starts with one is cut behind it, whatever follows: no rule before
   the rule of registers takes anything off such a text. A third digit is not part of a name, so `r`
   and the digits of a number are one lexeme for numbers below 100 and two for all others. -/

namespace AsmAssist.Lexeme

/-- The whole text is `r` and one or two digits, `pc` or `lr`, in either case. -/
inductive NamesRegister : Bytes → Prop
  | general {r : UInt8} {digits : Bytes} : Ascii.isLetterOf 'r' r = true → digits ≠ [] →
      digits.length ≤ 2 → (∀ b ∈ digits, Ascii.isDigit b = true) → NamesRegister (r :: digits)
  | counter {p c : UInt8} : Ascii.isLetterOf 'p' p = true → Ascii.isLetterOf 'c' c = true →
      NamesRegister [p, c]
  | link {l r : UInt8} : Ascii.isLetterOf 'l' l = true → Ascii.isLetterOf 'r' r = true →
      NamesRegister [l, r]

/-! ### The rules before the rule of registers -/

/-- A register starts with a letter that is a digit in no base. -/
theorem register_letter : ∀ b,
    (Ascii.isLetterOf 'r' b || Ascii.isLetterOf 'p' b || Ascii.isLetterOf 'l' b) = true →
      Ascii.isWord b = true ∧ hexDigit b = false := by
  refine forall_byte ?_
  decide +kernel

theorem letter_of_width {first second : UInt8} {rest : Bytes}
    (h : registerWidth first second rest ≠ 0) :
    Ascii.isWord first = true ∧ hexDigit first = false := by
  apply register_letter
  simp only [registerWidth] at h
  split_ifs at h with hgeneral hcounter hlink
  · simp only [Bool.and_eq_true] at hgeneral
    simp [hgeneral.1]
  · simp only [Bool.and_eq_true] at hcounter
    simp [hcounter.1]
  · simp only [Bool.and_eq_true] at hlink
    simp [hlink.1]
  · exact absurd rfl h

/-- No shift starts with a register. -/
theorem shift_of_width {first second : UInt8} {rest : Bytes}
    (h : registerWidth first second rest ≠ 0) :
    spellings shiftNames (first :: second :: rest) = none := by
  have hnames : ∀ t ∈ shiftNames.map Bytes.ofString, ∃ x y more, t = x :: y :: more ∧
      ∀ rest, registerWidth x y rest = 0 := by
    simp only [shiftNames, List.map_cons, List.map_nil, List.forall_mem_cons]
    refine ⟨⟨_, _, _, rfl, ?_⟩, ⟨_, _, _, rfl, ?_⟩, ⟨_, _, _, rfl, ?_⟩, ⟨_, _, _, rfl, ?_⟩, by simp⟩
    all_goals exact fun _ => rfl
  rw [Option.eq_none_iff_forall_ne_some]
  intro cut hcut
  obtain ⟨t, hfind, -, -⟩ := spelling_eq_some.mp hcut
  obtain ⟨x, y, more, rfl, hzero⟩ := hnames t (List.mem_of_find?_eq_some hfind)
  obtain ⟨rfl, hrest⟩ := List.cons_prefix_cons.mp (leads_of_find? hfind)
  obtain ⟨rfl, -⟩ := List.cons_prefix_cons.mp hrest
  exact h (hzero rest)

section Letter

variable {letter : Char} {inClass : UInt8 → Bool} {b : UInt8} (hb : inClass b = false) (s : Bytes)

include hb

theorem takeWhile_letter : (b :: s).takeWhile inClass = [] := by
  simp [hb]

theorem closed_letter : closed letter inClass (b :: s) = none := by
  rw [Option.eq_none_iff_forall_ne_some]
  intro cut hcut
  obtain ⟨last, rest, -, -, hne, -⟩ := closed_eq_some.mp hcut
  exact hne (takeWhile_letter hb s)

theorem run_letter : run inClass (b :: s) = none := by
  rw [run, takeWhile_letter hb]
  rfl

end Letter

theorem marked_letter {letter : Char} {inClass : UInt8 → Bool} {b : UInt8} (hb : hexDigit b = false)
    (s : Bytes) : marked letter inClass (b :: s) = none := by
  rw [Option.eq_none_iff_forall_ne_some]
  intro cut hcut
  obtain ⟨mark, rest, hsplit, -⟩ := marked_eq_some.mp hcut
  obtain ⟨rfl, -⟩ := List.cons.inj hsplit
  exact absurd hb (by decide)

/-- A text that starts with a register is cut behind it. -/
theorem first?_of_width {first second : UInt8} {rest : Bytes}
    (h : registerWidth first second rest ≠ 0) :
    first? (first :: second :: rest) = some (.register, ⟨registerWidth first second rest,
      (first :: second :: rest).take (registerWidth first second rest)⟩) := by
  obtain ⟨hword, hhex⟩ := letter_of_width h
  have hbinary : binaryDigit first = false :=
    Bool.eq_false_iff.mpr fun hb => absurd (binary_hex first hb) (by simp [hhex])
  have hdecimal : Ascii.isDigit first = false :=
    Bool.eq_false_iff.mpr fun hb => absurd (digit_hex first hb).1 (by simp [hhex])
  obtain ⟨hgap, hquote⟩ := no_gap_no_quotation hword (second :: rest)
  have hothers : ∀ rule ∈ rules.take 16,
      (rule.cut? (first :: second :: rest)).map (rule.kind, ·) = none := by
    simp only [rules, List.take, List.forall_mem_cons, Option.map_eq_none_iff]
    refine ⟨hgap, shift_of_width h, ?_, ?_, ?_, ?_, ?_, ?_, ?_, ?_, hquote, marked_letter hhex _,
      closed_letter hhex _, marked_letter hhex _, closed_letter hbinary _, run_letter hdecimal _,
      by simp⟩
    all_goals exact spelling_of_head Ascii.isWord (by decide) hword _
  have hrules : rules = rules.take 16 ++ ⟨.register, registerName⟩ :: rules.drop 17 := rfl
  have hcut := (registerName_cons first second rest).trans (whole_eq_some.mpr ⟨h, rfl⟩)
  exact first?_of_split hrules (List.findSome?_eq_none_iff.mpr hothers) hcut

/-- A second digit, where there is one, is all that a name has behind its first. -/
theorem width_general {r d : UInt8} (hr : Ascii.isLetterOf 'r' r = true)
    (hd : Ascii.isDigit d = true) {more : Bytes} (hmore : ∀ b ∈ more, Ascii.isDigit b = true) :
    registerWidth r d more = 2 + (more.take 1).length := by
  have hsecond : secondDigit more = more.take 1 :=
    List.takeWhile_eq_self_iff.mpr fun b hb => hmore b (List.mem_of_mem_take hb)
  simp only [registerWidth, hr, hd, Bool.and_self, if_true, hsecond]

/-- A name of a register is one lexeme. -/
theorem NamesRegister.first? {name : Bytes} (h : NamesRegister name) :
    first? name = some (.register, ⟨name.length, name⟩) := by
  have hwhole : ∀ {first second : UInt8} {rest : Bytes},
      registerWidth first second rest = (first :: second :: rest).length →
      Lexeme.first? (first :: second :: rest) =
        some (.register, ⟨(first :: second :: rest).length, first :: second :: rest⟩) := by
    intro first second rest hwidth
    rw [first?_of_width (by simp [hwidth]), hwidth, List.take_length]
  cases h with
  | @general r digits hr hne hlen hdigits =>
      obtain ⟨d, more, rfl⟩ := List.exists_cons_of_ne_nil hne
      obtain ⟨hd, hmore⟩ := List.forall_mem_cons.mp hdigits
      apply hwhole
      rw [width_general hr hd hmore, List.take_of_length_le (Nat.le_of_succ_le_succ hlen)]
      simp only [List.length_cons]
      omega
  | counter hp hc =>
      apply hwhole
      simp only [registerWidth, hp, hc, Bool.and_self, if_true]
      split_ifs <;> rfl
  | link hl hr =>
      apply hwhole
      simp only [registerWidth, hl, hr, Bool.and_self, if_true]
      split_ifs <;> rfl

/-- With three digits or more, a name ends behind the second. -/
theorem first?_long {r : UInt8} {digits : Bytes} (hr : Ascii.isLetterOf 'r' r = true)
    (hlen : 2 < digits.length) (hdigits : ∀ b ∈ digits, Ascii.isDigit b = true) :
    first? (r :: digits) = some (.register, ⟨3, (r :: digits).take 3⟩) := by
  obtain ⟨d, more, rfl⟩ := List.exists_cons_of_length_pos (Nat.zero_lt_of_lt hlen)
  obtain ⟨hd, hmore⟩ := List.forall_mem_cons.mp hdigits
  have hwidth : registerWidth r d more = 3 := by
    rw [width_general hr hd hmore, List.length_take_of_le (by simp at hlen; omega)]
  have hne : registerWidth r d more ≠ 0 := by
    rw [hwidth]
    decide
  rw [first?_of_width hne, hwidth]

end AsmAssist.Lexeme
