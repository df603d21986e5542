import AsmAssist.Proofs.Lexeme.Retention

/- How numbers are written: hexadecimal and binary digits behind a mark or before a closing letter,
   and decimal digits alone. A text in one of these notations is one lexeme of the kind of its base,
   and every lexeme of such a kind is written in a notation of its base. So no text is written in two
   notations, though the digits of one may be letters of another. -/

namespace AsmAssist.Lexeme

/-- The kinds of literals, with the bases of their digits. -/
def literals : List (Kind × Nat) := [(.hexDigits, 16), (.decimalDigits, 10), (.binaryDigits, 2)]

/-- The text is the digits of a base in one of its notations. -/
inductive Written : Nat → Bytes → Bytes → Prop
  | hexMarked {mark : UInt8} {digits : Bytes} : Ascii.isLetterOf 'x' mark = true → digits ≠ [] →
      (∀ b ∈ digits, hexDigit b = true) → Written 16 digits ('0'.toUInt8 :: mark :: digits)
  | hexClosed {last : UInt8} {digits : Bytes} : Ascii.isLetterOf 'h' last = true → digits ≠ [] →
      (∀ b ∈ digits, hexDigit b = true) → Written 16 digits (digits ++ [last])
  | binaryMarked {mark : UInt8} {digits : Bytes} : Ascii.isLetterOf 'b' mark = true → digits ≠ [] →
      (∀ b ∈ digits, binaryDigit b = true) → Written 2 digits ('0'.toUInt8 :: mark :: digits)
  | binaryClosed {last : UInt8} {digits : Bytes} : Ascii.isLetterOf 'b' last = true → digits ≠ [] →
      (∀ b ∈ digits, binaryDigit b = true) → Written 2 digits (digits ++ [last])
  | decimal {digits : Bytes} : digits ≠ [] → (∀ b ∈ digits, Ascii.isDigit b = true) →
      Written 10 digits digits

/-! ### Digits and letters -/

theorem hex_letters : ∀ b, hexDigit b = true →
    Ascii.isLetterOf 'x' b = false ∧ Ascii.isLetterOf 'h' b = false := by
  refine forall_byte ?_
  decide +kernel

theorem closing_letter : ∀ b, Ascii.isLetterOf 'h' b = true →
    hexDigit b = false ∧ Ascii.isLetterOf 'x' b = false := by
  refine forall_byte ?_
  decide +kernel

/-- The letter of binary numbers is a hexadecimal digit, and no binary one. -/
theorem binary_letter : ∀ b, Ascii.isLetterOf 'b' b = true →
    hexDigit b = true ∧ binaryDigit b = false := by
  refine forall_byte ?_
  decide +kernel

theorem binary_hex : ∀ b, binaryDigit b = true → hexDigit b = true := by
  refine forall_byte ?_
  decide +kernel

theorem digit_hex : ∀ b, Ascii.isDigit b = true →
    hexDigit b = true ∧ Ascii.isLetterOf 'b' b = false := by
  refine forall_byte ?_
  decide +kernel

section Absent

variable {letter : Char} {inClass : UInt8 → Bool}

/-- A text without the letter is not marked by it. -/
theorem marked_eq_none {s : Bytes} (h : ∀ b ∈ s, Ascii.isLetterOf letter b = false) :
    marked letter inClass s = none := by
  rw [Option.eq_none_iff_forall_ne_some]
  intro cut hcut
  obtain ⟨mark, rest, rfl, hmark, -⟩ := marked_eq_some.mp hcut
  rw [h mark (by simp)] at hmark
  cases hmark

/-- A text without the letter is not closed by it. -/
theorem closed_eq_none {s : Bytes} (h : ∀ b ∈ s, Ascii.isLetterOf letter b = false) :
    closed letter inClass s = none := by
  rw [Option.eq_none_iff_forall_ne_some]
  intro cut hcut
  obtain ⟨last, rest, hdrop, hlast, -⟩ := closed_eq_some.mp hcut
  have hmem : last ∈ s := by
    apply (List.dropWhile_suffix inClass).mem
    rw [hdrop]
    exact List.mem_cons_self
  rw [h last hmem] at hlast
  cases hlast

/-- Digits behind a mark are all cut off if nothing follows them. -/
theorem marked_digits {mark : UInt8} {digits : Bytes} (hmark : Ascii.isLetterOf letter mark = true)
    (hne : digits ≠ []) (hdigits : ∀ b ∈ digits, inClass b = true) :
    marked letter inClass ('0'.toUInt8 :: mark :: digits) = some ⟨digits.length + 2, digits⟩ := by
  have htake : digits.takeWhile inClass = digits := List.takeWhile_eq_self_iff.mpr hdigits
  refine marked_eq_some.mpr ⟨mark, digits, rfl, hmark, ?_⟩
  rw [htake]
  exact ⟨hne, rfl⟩

theorem closed_digits {last : UInt8} {digits : Bytes} (hlast : Ascii.isLetterOf letter last = true)
    (hstop : inClass last = false) (hne : digits ≠ []) (hdigits : ∀ b ∈ digits, inClass b = true) :
    closed letter inClass (digits ++ [last]) = some ⟨digits.length + 1, digits⟩ := by
  obtain ⟨htake, hdrop⟩ := takeWhile_stop hdigits hstop []
  refine closed_eq_some.mpr ⟨last, [], hdrop, hlast, ?_⟩
  rw [htake]
  exact ⟨hne, rfl⟩

end Absent

/-! ### Which rules a number meets -/

theorem spelling_of_head (inClass : UInt8 → Bool) {texts : List Bytes}
    (h : ∀ t ∈ texts, t.head?.any (!inClass ·) = true) {b : UInt8} (hb : inClass b = true)
    (s : Bytes) : spelling texts (b :: s) = none := by
  rw [Option.eq_none_iff_forall_ne_some]
  intro cut hcut
  obtain ⟨t, hfind, hne, -⟩ := spelling_eq_some.mp hcut
  have hhead := h t (List.mem_of_find?_eq_some hfind)
  obtain ⟨c, t, rfl⟩ := List.exists_cons_of_ne_nil hne
  obtain ⟨rfl, -⟩ := List.cons_prefix_cons.mp (leads_of_find? hfind)
  simp [hb] at hhead

theorem no_gap_no_quotation {b : UInt8} (hb : Ascii.isWord b = true) (s : Bytes) :
    gap (b :: s) = none ∧ quotation (b :: s) = none := by
  constructor
  · rw [gap, gapLength_stop ((word_solid b hb).lead s)]
    rfl
  · apply quotation_of_not_quote
    intro hq
    rw [(quote_class b hq).2.1] at hb
    cases hb

/-- A text that starts with a digit of some base meets only the rules of numbers and words. -/
theorem first?_of_hexDigit {s : Bytes} (h : s.head?.any hexDigit = true) :
    first? s = (rules.drop 11).findSome? fun rule => (rule.cut? s).map (rule.kind, ·) := by
  cases s with
  | nil => cases h
  | cons b s =>
      have hb : hexDigit b = true := h
      obtain ⟨hgap, hquote⟩ := no_gap_no_quotation (hex_word b hb) s
      have hothers : ∀ rule ∈ rules.take 11, (rule.cut? (b :: s)).map (rule.kind, ·) = none := by
        simp only [rules, List.take, List.forall_mem_cons, Option.map_eq_none_iff]
        refine ⟨hgap, ?_, ?_, ?_, ?_, ?_, ?_, ?_, ?_, ?_, hquote, by simp⟩
        all_goals exact spelling_of_head hexDigit (by decide) hb s
      rw [first?, ← List.take_append_drop 11 rules, List.findSome?_append,
        List.findSome?_eq_none_iff.mpr hothers, Option.none_or, List.take_append_drop]

theorem head_hexDigit {digits : Bytes} (hne : digits ≠ [])
    (hdigits : ∀ b ∈ digits, hexDigit b = true) (r : Bytes) :
    (digits ++ r).head?.any hexDigit = true := by
  obtain ⟨b, rest, rfl⟩ := List.exists_cons_of_ne_nil hne
  exact hdigits b List.mem_cons_self

/-- Nothing but hexadecimal digits is no hexadecimal number: the mark or the closing letter is
    missing. -/
theorem hex_rules_eq_none {s : Bytes} (h : ∀ b ∈ s, hexDigit b = true) :
    marked 'x' hexDigit s = none ∧ closed 'h' hexDigit s = none :=
  ⟨marked_eq_none fun b hb => (hex_letters b (h b hb)).1,
    closed_eq_none fun b hb => (hex_letters b (h b hb)).2⟩

/-- The closing letter of a binary number is not taken for a mark, since nothing follows it. -/
theorem marked_binary_eq_none {last : UInt8} {digits : Bytes}
    (hdigits : ∀ b ∈ digits, binaryDigit b = true) :
    marked 'b' binaryDigit (digits ++ [last]) = none := by
  rw [Option.eq_none_iff_forall_ne_some]
  intro cut hcut
  obtain ⟨mark, rest, hsplit, hmark, hne, -⟩ := marked_eq_some.mp hcut
  rcases List.eq_nil_or_concat rest with rfl | ⟨front, b, rfl⟩
  · exact hne rfl
  · have hwhole : digits ++ [last] = ('0'.toUInt8 :: mark :: front) ++ [b] := by simpa using hsplit
    obtain ⟨rfl, -⟩ := List.append_inj' hwhole rfl
    have hbinary := hdigits mark (by simp)
    rw [(binary_letter mark hmark).2] at hbinary
    cases hbinary

/-- A text in a notation of a base is one lexeme of the kind of that base. -/
theorem Written.first? {base : Nat} {digits text : Bytes} (h : Written base digits text) :
    ∃ kind, (kind, base) ∈ literals ∧ first? text = some (kind, ⟨text.length, digits⟩) := by
  cases h with
  | @hexMarked mark _ hmark hne hdigits =>
      have hcut := marked_digits hmark hne hdigits
      refine ⟨.hexDigits, by simp [literals], ?_⟩
      rw [first?_of_hexDigit rfl]
      simp only [rules, List.drop, List.findSome?_cons, hcut, Option.map_some]
      rfl
  | @hexClosed last _ hlast hne hdigits =>
      obtain ⟨hstop, hmark⟩ := closing_letter last hlast
      have hcut := closed_digits hlast hstop hne hdigits
      have hunmarked : marked 'x' hexDigit (digits ++ [last]) = none := by
        apply marked_eq_none
        simp only [List.forall_mem_append, List.forall_mem_singleton]
        exact ⟨fun b hb => (hex_letters b (hdigits b hb)).1, hmark⟩
      refine ⟨.hexDigits, by simp [literals], ?_⟩
      rw [first?_of_hexDigit (head_hexDigit hne hdigits _)]
      simp only [rules, List.drop, List.findSome?_cons, hunmarked, hcut, Option.map_none,
        Option.map_some, List.length_append, List.length_singleton]
  | @binaryMarked mark _ hmark hne hdigits =>
      have hcut := marked_digits hmark hne hdigits
      have hhex : ∀ b ∈ '0'.toUInt8 :: mark :: digits, hexDigit b = true := by
        simp only [List.forall_mem_cons]
        exact ⟨rfl, (binary_letter mark hmark).1, fun b hb => binary_hex b (hdigits b hb)⟩
      obtain ⟨hunmarked, hunclosed⟩ := hex_rules_eq_none hhex
      refine ⟨.binaryDigits, by simp [literals], ?_⟩
      rw [first?_of_hexDigit rfl]
      simp only [rules, List.drop, List.findSome?_cons, hunmarked, hunclosed, hcut,
        Option.map_none, Option.map_some]
      rfl
  | @binaryClosed last _ hlast hne hdigits =>
      obtain ⟨hlasthex, hstop⟩ := binary_letter last hlast
      have hcut := closed_digits hlast hstop hne hdigits
      have hdigitshex : ∀ b ∈ digits, hexDigit b = true := fun b hb => binary_hex b (hdigits b hb)
      have hhex : ∀ b ∈ digits ++ [last], hexDigit b = true := by
        simp only [List.forall_mem_append, List.forall_mem_singleton]
        exact ⟨hdigitshex, hlasthex⟩
      obtain ⟨hunmarked, hunclosed⟩ := hex_rules_eq_none hhex
      refine ⟨.binaryDigits, by simp [literals], ?_⟩
      rw [first?_of_hexDigit (head_hexDigit hne hdigitshex _)]
      simp only [rules, List.drop, List.findSome?_cons, hunmarked, hunclosed,
        marked_binary_eq_none hdigits, hcut, Option.map_none, Option.map_some, List.length_append,
        List.length_singleton]
  | decimal hne hdigits =>
      have hhex : ∀ b ∈ digits, hexDigit b = true := fun b hb => (digit_hex b (hdigits b hb)).1
      have hletter : ∀ b ∈ digits, Ascii.isLetterOf 'b' b = false :=
        fun b hb => (digit_hex b (hdigits b hb)).2
      have hself : digits.takeWhile Ascii.isDigit = digits := List.takeWhile_eq_self_iff.mpr hdigits
      have hcut : run Ascii.isDigit digits = some ⟨digits.length, digits⟩ := by
        rw [run_eq_some, hself]
        exact ⟨hne, rfl⟩
      obtain ⟨hunmarked, hunclosed⟩ := hex_rules_eq_none hhex
      have hhead := head_hexDigit hne hhex []
      rw [List.append_nil] at hhead
      refine ⟨.decimalDigits, by simp [literals], ?_⟩
      rw [first?_of_hexDigit hhead]
      simp only [rules, List.drop, List.findSome?_cons, hunmarked, hunclosed,
        marked_eq_none hletter, closed_eq_none hletter, hcut, Option.map_none, Option.map_some]

/-- The notation of a text fixes the base and the digits. -/
theorem Written.unique {base base' : Nat} {digits digits' text : Bytes}
    (h : Written base digits text) (h' : Written base' digits' text) :
    base' = base ∧ digits' = digits := by
  obtain ⟨kind, hkind, hfirst⟩ := h.first?
  obtain ⟨kind', hkind', hfirst'⟩ := h'.first?
  rw [hfirst] at hfirst'
  cases hfirst'
  have hbases : ∀ a ∈ literals, ∀ b ∈ literals, a.1 = b.1 → a.2 = b.2 := by decide
  exact ⟨(hbases _ hkind _ hkind' rfl).symm, rfl⟩

section Whole

variable {letter : Char} {inClass : UInt8 → Bool} {s : Bytes} {cut : Cut}

theorem digits_of_takeWhile {t : Bytes} (hne : t.takeWhile inClass ≠ [])
    (hlen : t.length = (t.takeWhile inClass).length) :
    t.takeWhile inClass = t ∧ t ≠ [] ∧ ∀ b ∈ t, inClass b = true := by
  have hself := (List.takeWhile_prefix inClass).eq_of_length hlen.symm
  exact ⟨hself, hself ▸ hne, List.takeWhile_eq_self_iff.mp hself⟩

theorem digits_of_marked (h : marked letter inClass s = some cut) (hlen : s.length = cut.length) :
    ∃ mark, Ascii.isLetterOf letter mark = true ∧ cut.value ≠ [] ∧
      (∀ b ∈ cut.value, inClass b = true) ∧ s = '0'.toUInt8 :: mark :: cut.value := by
  obtain ⟨mark, rest, rfl, hmark, hne, rfl⟩ := marked_eq_some.mp h
  obtain ⟨hself, hrest, hdigits⟩ := digits_of_takeWhile hne (by simpa using hlen)
  rw [hself]
  exact ⟨mark, hmark, hrest, hdigits, rfl⟩

theorem digits_of_closed (h : closed letter inClass s = some cut) (hlen : s.length = cut.length) :
    ∃ last, Ascii.isLetterOf letter last = true ∧ cut.value ≠ [] ∧
      (∀ b ∈ cut.value, inClass b = true) ∧ s = cut.value ++ [last] := by
  obtain ⟨last, rest, hdrop, hlast, hne, rfl⟩ := closed_eq_some.mp h
  have hsplit : s = s.takeWhile inClass ++ last :: rest := by
    rw [← hdrop, List.takeWhile_append_dropWhile]
  -- Nothing is left behind the closing letter, for the lexeme is the whole text.
  have hrest : rest = [] := by
    rw [hsplit, List.length_append, List.length_cons, ← hsplit] at hlen
    exact List.length_eq_zero_iff.mp (Nat.add_right_cancel (Nat.add_left_cancel hlen))
  rw [hrest] at hsplit
  exact ⟨last, hlast, hne, fun b hb => List.mem_takeWhile_imp hb, hsplit⟩

theorem digits_of_run (h : run inClass s = some cut) (hlen : s.length = cut.length) :
    cut.value ≠ [] ∧ (∀ b ∈ cut.value, inClass b = true) ∧ s = cut.value := by
  obtain ⟨hne, rfl⟩ := run_eq_some.mp h
  obtain ⟨hself, hs, hdigits⟩ := digits_of_takeWhile hne hlen
  rw [hself]
  exact ⟨hs, hdigits, rfl⟩

end Whole

/-- Every lexeme of the kind of a base is written in a notation of that base. -/
theorem written_of_first? {kind : Kind} {base : Nat} {text rest : Bytes} {cut : Cut}
    (hbase : (kind, base) ∈ literals) (h : first? (text ++ rest) = some (kind, cut))
    (hlen : text.length = cut.length) : Written base cut.value text := by
  obtain ⟨rule, hr, hkind, hcut⟩ := first?_rule (first?_alone h hlen)
  simp only [literals, List.mem_cons, List.not_mem_nil, or_false, Prod.mk.injEq] at hbase
  rcases hbase with ⟨rfl, rfl⟩ | ⟨rfl, rfl⟩ | ⟨rfl, rfl⟩
  · have honly : ∀ rule ∈ rules, rule.kind = .hexDigits →
        rule.cut? = marked 'x' hexDigit ∨ rule.cut? = closed 'h' hexDigit := by simp [rules]
    rcases honly rule hr hkind with hrule | hrule
    · obtain ⟨mark, hmark, hne, hdigits, htext⟩ := digits_of_marked (hrule ▸ hcut) hlen
      rw [htext]
      exact .hexMarked hmark hne hdigits
    · obtain ⟨last, hlast, hne, hdigits, htext⟩ := digits_of_closed (hrule ▸ hcut) hlen
      rw [htext]
      exact .hexClosed hlast hne hdigits
  · have honly : ∀ rule ∈ rules, rule.kind = .decimalDigits → rule.cut? = run Ascii.isDigit := by
      simp [rules]
    obtain ⟨hne, hdigits, htext⟩ := digits_of_run (honly rule hr hkind ▸ hcut) hlen
    rw [htext]
    exact .decimal hne hdigits
  · have honly : ∀ rule ∈ rules, rule.kind = .binaryDigits →
        rule.cut? = marked 'b' binaryDigit ∨ rule.cut? = closed 'b' binaryDigit := by simp [rules]
    rcases honly rule hr hkind with hrule | hrule
    · obtain ⟨mark, hmark, hne, hdigits, htext⟩ := digits_of_marked (hrule ▸ hcut) hlen
      rw [htext]
      exact .binaryMarked hmark hne hdigits
    · obtain ⟨last, hlast, hne, hdigits, htext⟩ := digits_of_closed (hrule ▸ hcut) hlen
      rw [htext]
      exact .binaryClosed hlast hne hdigits

end AsmAssist.Lexeme
