import AsmAssist.Proofs.Lexeme.Cut

/- Lexemes on their own. A rule that matches goes on matching when text is added behind, and what it
   cuts off it also cuts off when nothing is left behind. So the first rule that matches a text is
   the first that matches its lexeme, and the lexeme alone is cut as it was in its text. -/

namespace AsmAssist.Lexeme

/-- What a rule has to see of a text is the lexeme that it cuts off. -/
structure Rule.Retentive (rule : Rule) : Prop where
  lasts : ∀ p r cut, rule.cut? p = some cut → ∃ cut', rule.cut? (p ++ r) = some cut'
  alone : ∀ p r cut, rule.cut? (p ++ r) = some cut → p.length = cut.length → rule.cut? p = some cut

theorem exists_whole {n : Nat} (h : n ≠ 0) (s : Bytes) : ∃ cut, whole s n = some cut :=
  ⟨_, whole_eq_some.mpr ⟨h, rfl⟩⟩

/-- A lexeme that is its own value is cut off whole where nothing follows it. -/
theorem whole_alone {p r : Bytes} {n : Nat} {cut : Cut} (h : whole (p ++ r) n = some cut)
    (hlen : p.length = cut.length) : p.length = n ∧ whole p n = some cut := by
  obtain ⟨-, rfl⟩ := whole_eq_some.mp h
  obtain rfl : p.length = n := hlen
  exact ⟨rfl, by rw [← h, whole_append (Nat.le_refl _)]⟩

theorem gap_retentive : (⟨.space, gap⟩ : Rule).Retentive where
  lasts := by
    intro p r cut h
    obtain ⟨gaps, rest, rfl, hgaps, hstop⟩ := gap_run p
    change gap (gaps ++ rest) = some cut at h
    rw [gap_eq hgaps hstop] at h
    have hne := (whole_eq_some.mp h).1
    apply exists_whole
    rw [List.append_assoc, hgaps.gapLength]
    omega
  alone := by
    intro p r cut h hlen
    obtain ⟨gaps, rest, hsplit, hgaps, hstop⟩ := gap_run (p ++ r)
    change gap (p ++ r) = some cut at h
    rw [hsplit, gap_eq hgaps hstop, ← hsplit] at h
    obtain ⟨hp, hwhole⟩ := whole_alone h hlen
    obtain ⟨rfl, -⟩ := List.append_inj hsplit hp
    have hgap : gap p = whole p p.length := by simpa using gap_eq (r := []) hgaps rfl
    exact hgap.trans hwhole

theorem leads_of_find? {texts : List Bytes} {s t : Bytes}
    (h : texts.find? (·.isPrefixOf s) = some t) : t <+: s := by
  have hleads := List.find?_some h
  exact List.isPrefixOf_iff_prefix.mp hleads

/-- The first spelling that leads a text is cut off. -/
theorem spelling_eq_some {texts : List Bytes} {s : Bytes} {cut : Cut} :
    spelling texts s = some cut ↔
      ∃ t, texts.find? (·.isPrefixOf s) = some t ∧ t ≠ [] ∧ cut = ⟨t.length, t⟩ := by
  simp only [spelling]
  constructor
  · intro h
    split at h
    · next t hfind =>
        obtain ⟨hne, rfl⟩ := whole_eq_some.mp h
        refine ⟨t, hfind, mt List.length_eq_zero_iff.mpr hne, ?_⟩
        rw [← List.prefix_iff_eq_take.mp (leads_of_find? hfind)]
    · cases h
  · rintro ⟨t, hfind, hne, rfl⟩
    rw [hfind]
    refine whole_eq_some.mpr ⟨mt List.length_eq_zero_iff.mp hne, ?_⟩
    rw [← List.prefix_iff_eq_take.mp (leads_of_find? hfind)]

theorem spelling_retentive {kind : Kind} {texts : List Bytes} (hne : [] ∉ texts) :
    (⟨kind, spelling texts⟩ : Rule).Retentive where
  lasts := by
    intro p r cut h
    obtain ⟨t, hfind, -, -⟩ := spelling_eq_some.mp h
    have hleads : t <+: p ++ r := (leads_of_find? hfind).trans (List.prefix_append p r)
    -- Another spelling may lead the longer text, but some spelling does.
    cases hother : texts.find? (·.isPrefixOf (p ++ r)) with
    | none =>
        have hmiss := List.find?_eq_none.mp hother t (List.mem_of_find?_eq_some hfind)
        exact absurd (List.isPrefixOf_iff_prefix.mpr hleads) hmiss
    | some u =>
        have hu : u ≠ [] := fun hnil => hne (hnil ▸ List.mem_of_find?_eq_some hother)
        exact ⟨_, spelling_eq_some.mpr ⟨u, hother, hu, rfl⟩⟩
  alone := by
    intro p r cut h hlen
    obtain ⟨t, hfind, ht, rfl⟩ := spelling_eq_some.mp h
    obtain rfl : t = p :=
      (List.prefix_of_prefix_length_le (leads_of_find? hfind) (List.prefix_append p r)
        hlen.ge).eq_of_length hlen.symm
    obtain ⟨-, before, after, hsplit, hbefore⟩ := List.find?_eq_some_iff_append.mp hfind
    refine spelling_eq_some.mpr ⟨t, List.find?_eq_some_iff_append.mpr ?_, ht, rfl⟩
    refine ⟨List.isPrefixOf_iff_prefix.mpr (List.prefix_refl t), before, after, hsplit, ?_⟩
    intro u hu
    -- A spelling that leads the lexeme also leads the text.
    have hmiss := hbefore u hu
    simp only [Bool.not_eq_true', ← Bool.not_eq_true, List.isPrefixOf_iff_prefix] at hmiss ⊢
    exact fun hlead => hmiss (hlead.trans (List.prefix_append t r))

theorem quotation_eq_some {s : Bytes} {cut : Cut} (h : quotation s = some cut) :
    ∃ quote body rest, quote ∈ quotes ∧ Body quote body ∧ s = quote :: (body ++ quote :: rest) ∧
      cut = ⟨body.length + 2, body⟩ := by
  cases s with
  | nil => cases h
  | cons quote s =>
      by_cases hq : quote ∈ quotes
      · have hclosing := h
        rw [quotation_of_quote hq] at hclosing
        obtain ⟨n, hn, -⟩ := Option.map_eq_some_iff.mp hclosing
        obtain ⟨body, rest, rfl, hbody, -⟩ := body_of_closing? hn
        rw [quotation_body hq hbody] at h
        exact ⟨quote, body, rest, hq, hbody, rfl, (Option.some.inj h).symm⟩
      · rw [quotation_of_not_quote hq] at h
        cases h

theorem quotation_retentive : (⟨.quoted, quotation⟩ : Rule).Retentive where
  lasts := by
    intro p r cut h
    obtain ⟨quote, body, rest, hq, hbody, rfl, -⟩ := quotation_eq_some h
    refine ⟨⟨body.length + 2, body⟩, ?_⟩
    simpa using quotation_body hq hbody (rest ++ r)
  alone := by
    intro p r cut h hlen
    obtain ⟨quote, body, rest, hq, hbody, hsplit, rfl⟩ := quotation_eq_some h
    have hpiece : p ++ r = (quote :: (body ++ [quote])) ++ rest := by simp [hsplit]
    obtain ⟨rfl, -⟩ := List.append_inj hpiece (by simpa using hlen)
    exact quotation_body hq hbody []

section Words

variable {kind : Kind} {letter : Char} {inClass : UInt8 → Bool}

theorem takeWhile_append_ne_nil {p : Bytes} (h : p.takeWhile inClass ≠ []) (r : Bytes) :
    (p ++ r).takeWhile inClass ≠ [] := by
  cases p with
  | nil => exact absurd rfl h
  | cons b p =>
      cases hb : inClass b with
      | false => simp [hb] at h
      | true => simp [hb]

/-- Digits before a byte that is none are all the digits in front. -/
theorem takeWhile_stop {digits : Bytes} (hdigits : ∀ b ∈ digits, inClass b = true) {last : UInt8}
    (hlast : inClass last = false) (rest : Bytes) :
    (digits ++ last :: rest).takeWhile inClass = digits ∧
      (digits ++ last :: rest).dropWhile inClass = last :: rest := by
  have hstop : ∀ b ∈ (last :: rest).head?, inClass b = false := by simpa using hlast
  have htake : (digits ++ last :: rest).takeWhile inClass = digits := by
    rw [takeWhile_append_of_stop digits hstop, List.takeWhile_eq_self_iff.mpr hdigits]
  refine ⟨htake, ?_⟩
  rw [← drop_takeWhile_length, htake, List.drop_left]

/-- A run of the class is cut off as far as it goes. -/
theorem run_eq_some {s : Bytes} {cut : Cut} :
    run inClass s = some cut ↔ s.takeWhile inClass ≠ [] ∧
      cut = ⟨(s.takeWhile inClass).length, s.takeWhile inClass⟩ := by
  have htake : s.take (s.takeWhile inClass).length = s.takeWhile inClass :=
    (List.prefix_iff_eq_take.mp (List.takeWhile_prefix inClass)).symm
  rw [run, whole_eq_some, htake, Ne, List.length_eq_zero_iff]

theorem run_retentive : (⟨kind, run inClass⟩ : Rule).Retentive where
  lasts := by
    intro p r cut h
    obtain ⟨hne, -⟩ := run_eq_some.mp h
    exact ⟨_, run_eq_some.mpr ⟨takeWhile_append_ne_nil hne r, rfl⟩⟩
  alone := by
    intro p r cut h hlen
    obtain ⟨hne, rfl⟩ := run_eq_some.mp h
    obtain hp : p = (p ++ r).takeWhile inClass :=
      (List.prefix_of_prefix_length_le (List.prefix_append p r) (List.takeWhile_prefix inClass)
        hlen.le).eq_of_length hlen
    have hself : p.takeWhile inClass = p := by
      rw [hp, List.takeWhile_idem]
    refine run_eq_some.mpr ?_
    rw [hself, ← hp]
    exact ⟨hp ▸ hne, rfl⟩

theorem marked_eq_some {s : Bytes} {cut : Cut} :
    marked letter inClass s = some cut ↔ ∃ mark rest, s = '0'.toUInt8 :: mark :: rest ∧
      Ascii.isLetterOf letter mark = true ∧ rest.takeWhile inClass ≠ [] ∧
      cut = ⟨(rest.takeWhile inClass).length + 2, rest.takeWhile inClass⟩ := by
  constructor
  · intro h
    match s with
    | [] => cases h
    | [_] => cases h
    | zero :: mark :: rest =>
        simp only [marked] at h
        split at h
        · next hcond =>
            simp only [Bool.and_eq_true, beq_iff_eq, Bool.not_eq_true', List.isEmpty_eq_false_iff]
              at hcond
            obtain ⟨⟨rfl, hmark⟩, hne⟩ := hcond
            exact ⟨mark, rest, rfl, hmark, hne, (Option.some.inj h).symm⟩
        · cases h
  · rintro ⟨mark, rest, rfl, hmark, hne, rfl⟩
    simp [marked, hmark, hne]

theorem marked_retentive : (⟨kind, marked letter inClass⟩ : Rule).Retentive where
  lasts := by
    intro p r cut h
    obtain ⟨mark, rest, rfl, hmark, hne, -⟩ := marked_eq_some.mp h
    exact ⟨_, marked_eq_some.mpr ⟨mark, rest ++ r, rfl, hmark, takeWhile_append_ne_nil hne r, rfl⟩⟩
  alone := by
    intro p r cut h hlen
    obtain ⟨mark, rest, hsplit, hmark, hne, rfl⟩ := marked_eq_some.mp h
    have hpiece : p ++ r =
        ('0'.toUInt8 :: mark :: rest.takeWhile inClass) ++ rest.dropWhile inClass := by
      rw [hsplit, List.cons_append, List.cons_append, List.takeWhile_append_dropWhile]
    obtain ⟨rfl, -⟩ := List.append_inj hpiece hlen
    refine marked_eq_some.mpr ⟨mark, _, rfl, hmark, ?_⟩
    rw [List.takeWhile_idem]
    exact ⟨hne, rfl⟩

/-- Digits are cut off up to the letter that closes them, which is no digit. -/
theorem closed_eq_some {s : Bytes} {cut : Cut} :
    closed letter inClass s = some cut ↔ ∃ last rest, s.dropWhile inClass = last :: rest ∧
      Ascii.isLetterOf letter last = true ∧ s.takeWhile inClass ≠ [] ∧
      cut = ⟨(s.takeWhile inClass).length + 1, s.takeWhile inClass⟩ := by
  simp only [closed, drop_takeWhile_length]
  constructor
  · intro h
    split at h
    · next last rest hdrop =>
        split at h
        · next hcond =>
            simp only [Bool.and_eq_true, Bool.not_eq_true', List.isEmpty_eq_false_iff] at hcond
            exact ⟨last, rest, hdrop, hcond.1, hcond.2, (Option.some.inj h).symm⟩
        · cases h
    · cases h
  · rintro ⟨last, rest, hdrop, hlast, hne, rfl⟩
    simp [hdrop, hlast, hne]

theorem closed_retentive : (⟨kind, closed letter inClass⟩ : Rule).Retentive where
  lasts := by
    intro p r cut h
    obtain ⟨last, rest, hdrop, hlast, hne, -⟩ := closed_eq_some.mp h
    refine ⟨_, closed_eq_some.mpr ⟨last, rest ++ r, ?_, hlast, takeWhile_append_ne_nil hne r, rfl⟩⟩
    rw [List.dropWhile_append, hdrop]
    rfl
  alone := by
    intro p r cut h hlen
    obtain ⟨last, rest, hdrop, hlast, hne, rfl⟩ := closed_eq_some.mp h
    have hstop : inClass last = false := by
      have hhead := List.head?_dropWhile_not inClass (p ++ r)
      rwa [hdrop] at hhead
    have hpiece : p ++ r = ((p ++ r).takeWhile inClass ++ [last]) ++ rest := by
      rw [List.append_assoc, List.singleton_append, ← hdrop, List.takeWhile_append_dropWhile]
    obtain ⟨hp, -⟩ := List.append_inj hpiece (by simpa using hlen)
    have hdigits : ∀ b ∈ (p ++ r).takeWhile inClass, inClass b = true :=
      fun b hb => List.mem_takeWhile_imp hb
    obtain ⟨htake, hrest⟩ := takeWhile_stop hdigits hstop []
    rw [← hp] at htake hrest
    refine closed_eq_some.mpr ⟨last, [], hrest, hlast, ?_⟩
    rw [htake]
    exact ⟨hne, rfl⟩

end Words

/-- How many bytes of a text are the name of a register. -/
def registerWidth (first second : UInt8) (rest : Bytes) : Nat :=
  if Ascii.isLetterOf 'r' first && Ascii.isDigit second then 2 + (secondDigit rest).length
  else if Ascii.isLetterOf 'p' first && Ascii.isLetterOf 'c' second then 2
  else if Ascii.isLetterOf 'l' first && Ascii.isLetterOf 'r' second then 2
  else 0

theorem registerName_cons (first second : UInt8) (rest : Bytes) :
    registerName (first :: second :: rest) =
      whole (first :: second :: rest) (registerWidth first second rest) := by
  simp only [registerName, registerWidth, secondDigit]
  split_ifs <;> rfl

/-- Behind two bytes that start a register only a second digit may belong to it. -/
theorem registerWidth_cases (first second : UInt8) :
    (∀ rest, registerWidth first second rest = 2 + (secondDigit rest).length) ∨
      (∀ rest, registerWidth first second rest = 2) ∨
      ∀ rest, registerWidth first second rest = 0 := by
  simp only [registerWidth]
  split_ifs <;> simp

theorem registerName_eq_some {s : Bytes} {cut : Cut} (h : registerName s = some cut) :
    ∃ first second rest, s = first :: second :: rest ∧ 2 ≤ cut.length ∧
      cut.length = registerWidth first second rest := by
  match s with
  | [] => cases h
  | [_] => cases h
  | first :: second :: rest =>
      rw [registerName_cons] at h
      obtain ⟨hwidth, rfl⟩ := whole_eq_some.mp h
      refine ⟨first, second, rest, rfl, ?_, rfl⟩
      rcases registerWidth_cases first second with hall | hall | hall
      · simp [hall]
      · simp [hall]
      · exact absurd (hall rest) hwidth

theorem register_retentive : (⟨.register, registerName⟩ : Rule).Retentive where
  lasts := by
    intro p r cut h
    obtain ⟨first, second, rest, rfl, htwo, hwidth⟩ := registerName_eq_some h
    simp only [List.cons_append, registerName_cons]
    apply exists_whole
    rcases registerWidth_cases first second with hall | hall | hall
    · simp [hall]
    · simp [hall]
    · rw [hwidth, hall] at htwo
      omega
  alone := by
    intro p r cut h hlen
    obtain ⟨-, -, -, -, htwo, -⟩ := registerName_eq_some h
    match p with
    | [] => simp only [List.length_nil] at hlen; omega
    | [_] => simp only [List.length_singleton] at hlen; omega
    | first :: second :: rest =>
        simp only [List.cons_append, registerName_cons] at h ⊢
        obtain ⟨hwidth, hwhole⟩ := whole_alone (p := first :: second :: rest) h hlen
        have hsame : registerWidth first second rest = registerWidth first second (rest ++ r) := by
          rcases registerWidth_cases first second with hall | hall | hall
          · cases rest with
            | cons b rest => rw [hall, hall]; rfl
            | nil =>
                rw [← hwidth, hall]
                rfl
          · rw [hall, hall]
          · rw [hall, hall]
        rw [hsame]
        exact hwhole

theorem rules_retentive : ∀ rule ∈ rules, rule.Retentive := by
  simp only [rules, List.forall_mem_cons]
  refine ⟨gap_retentive, spelling_retentive ?_, spelling_retentive ?_, spelling_retentive ?_,
    spelling_retentive ?_, spelling_retentive ?_, spelling_retentive ?_, spelling_retentive ?_,
    spelling_retentive ?_, spelling_retentive ?_, quotation_retentive, marked_retentive,
    closed_retentive, marked_retentive, closed_retentive, run_retentive, register_retentive,
    run_retentive, by simp⟩
  all_goals decide

/-- A lexeme alone is cut as it was in its text. -/
theorem first?_alone {p r : Bytes} {kind : Kind} {cut : Cut}
    (h : first? (p ++ r) = some (kind, cut)) (hlen : p.length = cut.length) :
    first? p = some (kind, cut) := by
  have hrules := rules_retentive
  unfold first? at h ⊢
  generalize rules = list at h hrules
  induction list with
  | nil => cases h
  | cons rule list ih =>
      obtain ⟨hrule, hlist⟩ := List.forall_mem_cons.mp hrules
      rw [List.findSome?_cons] at h ⊢
      cases hlonger : rule.cut? (p ++ r) with
      | some found =>
          rw [hlonger] at h
          cases h
          rw [hrule.alone p r cut hlonger hlen]
          rfl
      | none =>
          have hnone : rule.cut? p = none := by
            cases halone : rule.cut? p with
            | none => rfl
            | some found =>
                obtain ⟨cut', hcut'⟩ := hrule.lasts p r found halone
                rw [hlonger] at hcut'
                cases hcut'
          rw [hlonger] at h
          rw [hnone]
          exact ih h hlist

end AsmAssist.Lexeme
