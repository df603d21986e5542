import AsmAssist.Family
import AsmAssist.Proofs.Pattern.Group
import AsmAssist.Proofs.Pattern.Spans
import AsmAssist.Proofs.Rune

/- Which family a mnemonic belongs to. The pattern of a family is put together as text. Of all that a
   pattern may hold only a quotation that is left open gets out of the group around it: it takes the
   closing parenthesis for a quoted character, and the family is lost. Whatever else the mnemonics hold
   means inside the group what it means on its own. -/

namespace AsmAssist

namespace Pattern

theorem compile_eq_ok {limits : Limits} {text : Bytes} {p : Pattern} :
    compile limits text = .ok p ↔
      text.isUtf8 = true ∧ limits.excess? text.runes = none ∧ read text.runes = .ok p := by
  unfold compile
  grind

theorem spans_anchored (input : Input) (p : Pattern) (i j : Nat) :
    Spans input p.anchored i j ↔ i = 0 ∧ j = input.size ∧ Spans input p i j := by
  simp only [anchored, Spans, Assertion.holds, beq_iff_eq]
  constructor
  · rintro ⟨_, ⟨rfl, hstart⟩, _, hspans, rfl, hstop⟩
    exact ⟨hstart, hstop, hspans⟩
  · rintro ⟨hstart, hstop, hspans⟩
    exact ⟨i, ⟨rfl, hstart⟩, j, hspans, rfl, hstop⟩

theorem isIn_anchored (p : Pattern) (text : Bytes) :
    p.anchored.isIn text = true ↔ Spans (characters text) p 0 (characters text).size := by
  rw [isIn_iff]
  simp only [spans_anchored]
  constructor
  · rintro ⟨_, _, _, rfl, rfl, hspans⟩
    exact hspans
  · intro hspans
    exact ⟨0, Nat.zero_le _, _, rfl, rfl, hspans⟩

end Pattern

namespace Family

variable {limits : Pattern.Limits} {f : Family} {mnemonic : Bytes}

/-- The mnemonics of the family are a pattern on their own. -/
def WellFormed (limits : Pattern.Limits) (f : Family) : Prop :=
  ∃ p, Pattern.compile limits f.mnemonics = .ok p

/-- The pattern of the mnemonics, on its own but in either case. -/
def ownPattern (f : Family) : Except Pattern.ReadError Pattern :=
  Pattern.read ("(?i)".toList ++ f.mnemonics.runes)

/-- The family can be used, and its mnemonics match the whole of the given one, in either case. -/
def Names (limits : Pattern.Limits) (f : Family) (mnemonic : Bytes) : Prop :=
  (∃ p, f.patternIn limits = .ok p) ∧
    ∃ q, f.ownPattern = .ok q ∧
      Pattern.Spans (Pattern.characters mnemonic) q 0 (Pattern.characters mnemonic).size

/-- What is put around the mnemonics is ASCII, so no character reaches over its ends. -/
theorem glyphs_patternText (f : Family) : f.patternText.glyphs =
    (Bytes.ofString "(?i)^(?:").glyphs ++ f.mnemonics.glyphs ++ (Bytes.ofString ")$").glyphs := by
  have hbefore : Rune.Splits 0 (.ofString "(?i)^(?:") (f.mnemonics ++ .ofString ")$") :=
    @Rune.splits_of_ascii_end ':'.toUInt8 (by decide) 0 (.ofString "(?i)^(?") (Nat.zero_le _) _
  have hbehind : Rune.Splits 0 f.mnemonics (.ofString ")$") :=
    @Rune.splits_before_ascii ')'.toUInt8 (by decide) 0 _ (Nat.zero_le _) ['$'.toUInt8]
  rw [patternText, List.append_assoc, Bytes.glyphs_append hbefore, Bytes.glyphs_append hbehind,
    List.append_assoc]

theorem runes_patternText (f : Family) :
    f.patternText.runes = "(?i)^(?:".toList ++ f.mnemonics.runes ++ ")$".toList := by
  simp only [Bytes.runes, glyphs_patternText, List.map_append]
  rfl

theorem isUtf8_patternText (f : Family) : f.patternText.isUtf8 = f.mnemonics.isUtf8 := by
  have hbefore : (Bytes.ofString "(?i)^(?:").isUtf8 = true := by decide +kernel
  have hbehind : (Bytes.ofString ")$").isUtf8 = true := by decide +kernel
  unfold Bytes.isUtf8 at hbefore hbehind ⊢
  rw [glyphs_patternText, List.all_append, List.all_append, hbefore, hbehind, Bool.true_and,
    Bool.and_true]

theorem patternIn_eq_ok (h : f.WellFormed limits) {p : Pattern} : f.patternIn limits = .ok p ↔
    limits.excess? f.patternText.runes = none ∧
      Pattern.Reader.QuotationsClosed f.mnemonics.runes ∧ ∃ q, f.ownPattern = .ok q ∧ p = q.anchored := by
  obtain ⟨own, hown⟩ := h
  obtain ⟨hutf8, -, hread⟩ := Pattern.compile_eq_ok.mp hown
  have hwhole : Pattern.read f.patternText.runes = .ok p ↔
      Pattern.Reader.QuotationsClosed f.mnemonics.runes ∧ ∃ q, f.ownPattern = .ok q ∧ p = q.anchored := by
    rw [runes_patternText]
    exact Pattern.Reader.read_anchored_iff hread
  rw [patternIn, Pattern.compile_eq_ok, isUtf8_patternText, hwhole]
  simp only [hutf8, true_and]

theorem exists_ownPattern (h : f.WellFormed limits) : ∃ q, f.ownPattern = .ok q := by
  obtain ⟨own, hown⟩ := h
  exact Pattern.Reader.read_folded (Pattern.compile_eq_ok.mp hown).2.2

theorem acceptsIn_iff (h : f.WellFormed limits) :
    f.acceptsIn limits mnemonic = true ↔ f.Names limits mnemonic := by
  unfold acceptsIn Names
  cases hp : f.patternIn limits with
  | error e => simp
  | ok p =>
      obtain ⟨-, -, q, hq, rfl⟩ := (patternIn_eq_ok h).mp hp
      rw [hq]
      simp [Pattern.isIn_anchored]

theorem findIn?_eq_some_iff {families : List Family} (hwell : ∀ f ∈ families, f.WellFormed limits) :
    findIn? limits families mnemonic = some f ↔ ∃ before after, families = before ++ f :: after ∧
      f.Names limits mnemonic ∧ ∀ g ∈ before, ¬ g.Names limits mnemonic := by
  unfold findIn?
  rw [List.find?_eq_some_iff_append]
  constructor
  · rintro ⟨haccepts, before, after, rfl, hbefore⟩
    refine ⟨before, after, rfl, (acceptsIn_iff (hwell f (by simp))).mp haccepts, ?_⟩
    intro g hg hnames
    have haccepts := (acceptsIn_iff (hwell g (List.mem_append_left _ hg))).mpr hnames
    simpa [haccepts] using hbefore g hg
  · rintro ⟨before, after, rfl, hnames, hbefore⟩
    refine ⟨(acceptsIn_iff (hwell f (by simp))).mpr hnames, before, after, rfl, ?_⟩
    intro g hg
    rw [Bool.not_eq_true', ← Bool.not_eq_true, acceptsIn_iff (hwell g (List.mem_append_left _ hg))]
    exact hbefore g hg

theorem findIn?_eq_none_iff {families : List Family} (hwell : ∀ f ∈ families, f.WellFormed limits) :
    findIn? limits families mnemonic = none ↔ ∀ f ∈ families, ¬ f.Names limits mnemonic := by
  unfold findIn?
  rw [List.find?_eq_none]
  exact forall₂_congr fun f hf => not_congr (acceptsIn_iff (hwell f hf))

/-- Whatever a matcher may take, a mnemonic belongs to the first family that names it as a whole, and to
    none if no family does. A family with a quotation that is left open names nothing, and neither does
    one whose pattern is within the limits only without the text around it. For all others this text
    ties the mnemonics to the ends of what they match and changes nothing else. -/
theorem named_by_first_family (limits : Pattern.Limits) (families : List Family) (mnemonic : Bytes)
    (hwell : ∀ f ∈ families, f.WellFormed limits) :
    (∀ f, findIn? limits families mnemonic = some f ↔
        ∃ before after, families = before ++ f :: after ∧
          f.Names limits mnemonic ∧ ∀ g ∈ before, ¬ g.Names limits mnemonic) ∧
      (findIn? limits families mnemonic = none ↔ ∀ f ∈ families, ¬ f.Names limits mnemonic) ∧
      ∀ f ∈ families, ∃ q, f.ownPattern = .ok q ∧
        ((∃ p, f.patternIn limits = .ok p) ↔
          Pattern.Reader.QuotationsClosed f.mnemonics.runes ∧
            limits.excess? f.patternText.runes = none) ∧
        ∀ p, f.patternIn limits = .ok p → ∀ input i j,
          Pattern.Spans input p i j ↔ i = 0 ∧ j = input.size ∧ Pattern.Spans input q i j := by
  refine ⟨fun f => findIn?_eq_some_iff hwell, findIn?_eq_none_iff hwell, ?_⟩
  intro f hf
  obtain ⟨q, hq⟩ := exists_ownPattern (hwell f hf)
  refine ⟨q, hq, ?_, ?_⟩
  · simp only [patternIn_eq_ok (hwell f hf), hq, Except.ok.injEq, exists_eq_left', exists_and_left,
      exists_eq, and_true]
    exact And.comm
  · intro p hp input i j
    obtain ⟨-, -, q', hq', rfl⟩ := (patternIn_eq_ok (hwell f hf)).mp hp
    cases hq.symm.trans hq'
    exact Pattern.spans_anchored input q i j

/-- A quotation that is never closed. -/
def openQuotation : Family := { blank with mnemonics := .ofString "\\Qsub" }

/-- Beside it a family with two mnemonics, of which the second has to be in small letters. -/
def sampleFamilies : List Family :=
  [openQuotation, { blank with mnemonics := .ofString "ADD|(?-i)sub" }]

theorem sampleFamilies_wellFormed : ∀ f ∈ sampleFamilies, f.WellFormed .standard := by
  intro f hf
  simp only [sampleFamilies, List.mem_cons, List.not_mem_nil, or_false] at hf
  rcases hf with rfl | rfl
  · exact ⟨_, rfl⟩
  · exact ⟨_, rfl⟩

theorem sampleFamilies_named : (∀ f ∈ sampleFamilies, f.WellFormed .standard) ∧
    (∃ f before after, sampleFamilies = before ++ f :: after ∧ f.Names .standard (.ofString "sub") ∧
      ∀ g ∈ before, ¬ g.Names .standard (.ofString "sub")) ∧
    ∀ f ∈ sampleFamilies, ¬ f.Names .standard (.ofString "SUB") := by
  have hwell := sampleFamilies_wellFormed
  obtain ⟨hsub, -⟩ := named_by_first_family .standard sampleFamilies (.ofString "sub") hwell
  obtain ⟨-, hnone, -⟩ := named_by_first_family .standard sampleFamilies (.ofString "SUB") hwell
  exact ⟨hwell, ⟨_, (hsub sampleFamilies[1]).mp (by decide +kernel)⟩, hnone.mp (by decide +kernel)⟩

/-- The mnemonics `\Qsub` match `sub` as they stand, and still their family does not name it. -/
theorem open_quotation_gets_out : openQuotation.WellFormed .standard ∧
    (∃ q, openQuotation.ownPattern = .ok q ∧ Pattern.Spans (Pattern.characters (.ofString "sub")) q 0 3) ∧
    openQuotation.pattern =
      .error (.unreadable ⟨.missingParen, "(?i)^(?:\\Qsub)$".toList⟩) ∧
    find? [openQuotation] (.ofString "sub") = none := by
  have hwell := sampleFamilies_wellFormed openQuotation (List.mem_cons_self ..)
  refine ⟨hwell, ⟨_, rfl, ?_⟩, rfl, by decide +kernel⟩
  exact (Pattern.isIn_anchored _ (.ofString "sub")).mp (by decide +kernel)

end Family

end AsmAssist
