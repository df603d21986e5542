import AsmAssist.Proofs.Lexeme.Numeral

/- Which words are one lexeme. No rule asks where a word ends, so a word that starts with a shift, with
   a register or with a number is cut behind it, however it goes on. Every other word is read whole. -/

namespace AsmAssist.Lexeme

def shiftNames : List String := ["shr", "shl", "ror", "shx"]

/-- The text starts with what a rule before the rule of words takes off it. Shifts are spelled in
    lower case, registers in either case, and digits count together with the letter that closes
    them. -/
inductive Shadowed : Bytes → Prop
  | digit {b : UInt8} {rest : Bytes} : Ascii.isDigit b = true → Shadowed (b :: rest)
  | shift {name rest : Bytes} : name ∈ shiftNames.map Bytes.ofString → Shadowed (name ++ rest)
  | register {r d : UInt8} {rest : Bytes} : Ascii.isLetterOf 'r' r = true →
      Ascii.isDigit d = true → Shadowed (r :: d :: rest)
  | counter {p c : UInt8} {rest : Bytes} : Ascii.isLetterOf 'p' p = true →
      Ascii.isLetterOf 'c' c = true → Shadowed (p :: c :: rest)
  | link {l r : UInt8} {rest : Bytes} : Ascii.isLetterOf 'l' l = true →
      Ascii.isLetterOf 'r' r = true → Shadowed (l :: r :: rest)
  | hexadecimal {digits rest : Bytes} {last : UInt8} : digits ≠ [] →
      (∀ b ∈ digits, hexDigit b = true) → Ascii.isLetterOf 'h' last = true →
      Shadowed (digits ++ last :: rest)
  | binary {digits rest : Bytes} {last : UInt8} : digits ≠ [] →
      (∀ b ∈ digits, binaryDigit b = true) → Ascii.isLetterOf 'b' last = true →
      Shadowed (digits ++ last :: rest)

/-- The kinds of lexemes that start with a byte of a word. -/
def wordKinds : List Kind :=
  [.shift, .hexDigits, .binaryDigits, .decimalDigits, .register, .word]

/-! ### What the rules before words take off a word -/

section Start

variable {letter : Char} {inClass : UInt8 → Bool} {s : Bytes} {cut : Cut}

theorem shadowed_of_marked (h : marked letter inClass s = some cut) : Shadowed s := by
  obtain ⟨mark, rest, rfl, -⟩ := marked_eq_some.mp h
  exact .digit (by decide)

theorem closed_split (h : closed letter inClass s = some cut) :
    ∃ digits last rest, s = digits ++ last :: rest ∧ digits ≠ [] ∧
      (∀ b ∈ digits, inClass b = true) ∧ Ascii.isLetterOf letter last = true := by
  obtain ⟨last, rest, hdrop, hlast, hne, -⟩ := closed_eq_some.mp h
  refine ⟨s.takeWhile inClass, last, rest, ?_, hne, fun b hb => List.mem_takeWhile_imp hb, hlast⟩
  rw [← hdrop, List.takeWhile_append_dropWhile]

theorem shadowed_of_digits (h : run Ascii.isDigit s = some cut) : Shadowed s := by
  obtain ⟨hne, -⟩ := run_eq_some.mp h
  cases s with
  | nil => exact absurd rfl hne
  | cons b s =>
      cases hb : Ascii.isDigit b with
      | true => exact .digit hb
      | false => simp [hb] at hne

theorem shadowed_of_register (h : registerName s = some cut) : Shadowed s := by
  obtain ⟨first, second, rest, rfl, htwo, hwidth⟩ := registerName_eq_some h
  simp only [registerWidth, Bool.and_eq_true] at hwidth
  split_ifs at hwidth with hregister hcounter hlink
  · exact .register hregister.1 hregister.2
  · exact .counter hcounter.1 hcounter.2
  · exact .link hlink.1 hlink.2
  · omega

/-- Of a text that starts with a byte of a word, every rule before the rule of words takes what
    shadows it, or nothing. -/
theorem shadowed_of_cut {b : UInt8} (hb : Ascii.isWord b = true) (s : Bytes) :
    ∀ rule ∈ rules.dropLast, ∀ cut, rule.cut? (b :: s) = some cut →
      rule.kind ∈ wordKinds ∧ Shadowed (b :: s) := by
  obtain ⟨hgap, hquote⟩ := no_gap_no_quotation hb s
  have habsent : ∀ {kind : Kind} {found : Option Cut}, found = none → ∀ cut, found = some cut →
      kind ∈ wordKinds ∧ Shadowed (b :: s) := by
    rintro kind found rfl cut h
    cases h
  have hmark : ∀ {kind : Kind} {texts : List String},
      (∀ t ∈ texts.map Bytes.ofString, t.head?.any (!Ascii.isWord ·) = true) →
      ∀ cut, spellings texts (b :: s) = some cut → kind ∈ wordKinds ∧ Shadowed (b :: s) :=
    fun htexts => habsent (spelling_of_head Ascii.isWord htexts hb s)
  simp only [rules, List.dropLast, List.forall_mem_cons]
  refine ⟨habsent hgap, ?shift, hmark ?_, hmark ?_, hmark ?_, hmark ?_, hmark ?_, hmark ?_, hmark ?_,
    hmark ?_, habsent hquote, ?hexMarked, ?hexClosed, ?binaryMarked, ?binaryClosed, ?decimal,
    ?register, by simp⟩
  case shift =>
    intro cut h
    obtain ⟨t, hfind, -, -⟩ := spelling_eq_some.mp h
    obtain ⟨rest, hrest⟩ := leads_of_find? hfind
    rw [← hrest]
    exact ⟨by decide, .shift (List.mem_of_find?_eq_some hfind)⟩
  case hexMarked => exact fun cut h => ⟨by decide, shadowed_of_marked h⟩
  case hexClosed =>
    intro cut h
    obtain ⟨digits, last, rest, hsplit, hne, hdigits, hlast⟩ := closed_split h
    rw [hsplit]
    exact ⟨by decide, .hexadecimal hne hdigits hlast⟩
  case binaryMarked => exact fun cut h => ⟨by decide, shadowed_of_marked h⟩
  case binaryClosed =>
    intro cut h
    obtain ⟨digits, last, rest, hsplit, hne, hdigits, hlast⟩ := closed_split h
    rw [hsplit]
    exact ⟨by decide, .binary hne hdigits hlast⟩
  case decimal => exact fun cut h => ⟨by decide, shadowed_of_digits h⟩
  case register => exact fun cut h => ⟨by decide, shadowed_of_register h⟩
  all_goals decide

end Start

/-- What shadows a text is taken off it by some rule before the rule of words. -/
theorem Shadowed.exists_cut {s : Bytes} (h : Shadowed s) :
    ∃ rule ∈ rules.dropLast, ∃ cut, rule.cut? s = some cut := by
  have hregister : ∀ {first second : UInt8} {rest : Bytes}, registerWidth first second rest ≠ 0 →
      ∃ rule ∈ rules.dropLast, ∃ cut, rule.cut? (first :: second :: rest) = some cut := by
    intro first second rest hwidth
    obtain ⟨cut, hcut⟩ := exists_whole hwidth (first :: second :: rest)
    rw [← registerName_cons] at hcut
    exact ⟨⟨.register, registerName⟩, by simp [rules], cut, hcut⟩
  cases h with
  | @digit b rest hb =>
      have hcut : run Ascii.isDigit (b :: rest) = some _ := run_eq_some.mpr ⟨by simp [hb], rfl⟩
      exact ⟨⟨.decimalDigits, run Ascii.isDigit⟩, by simp [rules], _, hcut⟩
  | @shift name rest hname =>
      refine ⟨⟨.shift, spellings shiftNames⟩, by simp [rules, shiftNames], ?_⟩
      have hlead : name.isPrefixOf (name ++ rest) = true :=
        List.isPrefixOf_iff_prefix.mpr (List.prefix_append name rest)
      obtain ⟨t, ht⟩ := Option.isSome_iff_exists.mp
        (List.find?_isSome (p := (·.isPrefixOf (name ++ rest))).mpr ⟨name, hname, hlead⟩)
      have hne : t ≠ [] := by
        rintro rfl
        exact absurd (List.mem_of_find?_eq_some ht) (by decide)
      exact ⟨_, spelling_eq_some.mpr ⟨t, ht, hne, rfl⟩⟩
  | register hr hd => exact hregister (by simp [registerWidth, hr, hd])
  | counter hp hc =>
      apply hregister
      simp only [registerWidth, hp, hc, Bool.and_self, if_true]
      split_ifs <;> omega
  | link hl hr =>
      apply hregister
      simp only [registerWidth, hl, hr, Bool.and_self, if_true]
      split_ifs <;> omega
  | hexadecimal hne hdigits hlast =>
      obtain ⟨htake, hdrop⟩ := takeWhile_stop hdigits (closing_letter _ hlast).1 _
      exact ⟨⟨.hexDigits, closed 'h' hexDigit⟩, by simp [rules], _,
        closed_eq_some.mpr ⟨_, _, hdrop, hlast, by rwa [htake], rfl⟩⟩
  | binary hne hdigits hlast =>
      obtain ⟨htake, hdrop⟩ := takeWhile_stop hdigits (binary_letter _ hlast).2 _
      exact ⟨⟨.binaryDigits, closed 'b' binaryDigit⟩, by simp [rules], _,
        closed_eq_some.mpr ⟨_, _, hdrop, hlast, by rwa [htake], rfl⟩⟩

/-! ### Words -/

/-- The rule of words comes last: it is asked only about what no other rule takes anything off. -/
theorem first?_eq (s : Bytes) :
    first? s = (rules.dropLast.findSome? fun rule => (rule.cut? s).map (rule.kind, ·)).or
      ((run Ascii.isWord s).map (.word, ·)) := by
  have hrules : rules = rules.dropLast ++ [⟨.word, run Ascii.isWord⟩] := rfl
  rw [first?, hrules, List.findSome?_append]
  cases hrun : run Ascii.isWord s <;> simp [hrun]

/-- A shadowed text starts with a lexeme of another kind. -/
theorem Shadowed.kind_ne_word {s : Bytes} (h : Shadowed s) {kind : Kind} {cut : Cut}
    (hfirst : first? s = some (kind, cut)) : kind ≠ .word := by
  obtain ⟨rule, hr, found, hcut⟩ := h.exists_cut
  have hsome : (rules.dropLast.findSome? fun rule => (rule.cut? s).map (rule.kind, ·)).isSome := by
    rw [List.findSome?_isSome_iff]
    exact ⟨rule, hr, by simp [hcut]⟩
  rw [first?_eq, Option.or_of_isSome hsome] at hfirst
  obtain ⟨other, hother, hsame⟩ := List.exists_of_findSome?_eq_some hfirst
  obtain ⟨_, -, heq⟩ := Option.map_eq_some_iff.mp hsame
  cases heq
  have hkinds : ∀ rule ∈ rules.dropLast, rule.kind ≠ .word := by simp [rules]
  exact hkinds other hother

theorem kind_of_word {b : UInt8} (hb : Ascii.isWord b = true) {s : Bytes} {kind : Kind} {cut : Cut}
    (h : first? (b :: s) = some (kind, cut)) : kind ∈ wordKinds := by
  obtain ⟨rule, hr, rfl, hcut⟩ := first?_rule h
  have hrules : rules = rules.dropLast ++ [⟨.word, run Ascii.isWord⟩] := rfl
  rw [hrules] at hr
  rcases List.mem_append.mp hr with hr | hr
  · exact (shadowed_of_cut hb s rule hr cut hcut).1
  · rw [List.mem_singleton.mp hr]
    decide

/-- A word is one lexeme if and only if it is not shadowed. -/
theorem first?_word_iff {w : Bytes} (hne : w ≠ []) (hw : ∀ b ∈ w, Ascii.isWord b = true) :
    first? w = some (.word, ⟨w.length, w⟩) ↔ ¬ Shadowed w := by
  constructor
  · intro hfirst hshadowed
    exact hshadowed.kind_ne_word hfirst rfl
  · intro hfree
    obtain ⟨b, s, rfl⟩ := List.exists_cons_of_ne_nil hne
    have hothers : rules.dropLast.findSome?
        (fun rule => (rule.cut? (b :: s)).map (rule.kind, ·)) = none := by
      rw [List.findSome?_eq_none_iff]
      intro rule hr
      rw [Option.map_eq_none_iff, Option.eq_none_iff_forall_ne_some]
      intro cut hcut
      exact hfree (shadowed_of_cut (hw b List.mem_cons_self) s rule hr cut hcut).2
    have hself : (b :: s).takeWhile Ascii.isWord = b :: s := List.takeWhile_eq_self_iff.mpr hw
    have hrun : run Ascii.isWord (b :: s) = some ⟨(b :: s).length, b :: s⟩ := by
      rw [run_eq_some, hself]
      exact ⟨hne, rfl⟩
    rw [first?_eq, hothers, hrun]
    rfl

end AsmAssist.Lexeme
