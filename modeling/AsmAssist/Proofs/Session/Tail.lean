import AsmAssist.Proofs.Folding.Locality
import AsmAssist.Proofs.Line.Plain
import AsmAssist.Proofs.Session.History
import AsmAssist.Proofs.Symbol.Source

/- Help on a line with an end that cannot be read. What stands before the end is then not folded, so
   help sees colons where labels were and a number where a shifted register ended the line. Plain lines
   are helped with as if the end were not there; for every other line some catalog tells the two
   apart. -/

namespace AsmAssist

/-- A token that is written as its value is read as whole characters. -/
theorem Scan.splits_of_mem {text : Bytes} {lineNumber : Int} {t : Token}
    (ht : t ∈ (line text lineNumber).tokens) (hkind : t.kind ∉ Lexeme.dressedKinds) (rest : Bytes) :
    Rune.Splits 0 t.text rest := by
  have hsource := (Symbol.scanned_source ht).eq_value_iff.mpr hkind
  rw [← hsource]
  exact (lexable_of_complete (line_slice ht 0).1).splits rest

namespace Line

variable {text tail : Bytes} {lineNumber : Int}

/-- Before an end that cannot be read the tokens of a line stay as they were scanned. -/
theorem tokenize_before_tail (h : (Scan.line text lineNumber).error = none) (hne : tail ≠ [])
    (htail : Lexeme.first? tail = none) :
    tokenize (text ++ Scan.blank ++ tail) lineNumber = (Scan.line text lineNumber).tokens := by
  obtain ⟨b, more, rfl⟩ := List.exists_cons_of_ne_nil hne
  have hunread : Scan.line (b :: more) lineNumber =
      ⟨[], some ⟨⟨lineNumber, 0⟩, (Rune.lead b more).1⟩⟩ :=
    Scan.line_of_run (.stop _) (.failure rfl htail)
  rw [tokenize, Scan.line_separator h Scan.separator_blank, hunread]
  simp [Scan.relocate, Scan.prepend, Scan.shown, Scan.separatorToken, Kind.isHidden]

/-- No label is left out before such an end, since none was made. -/
theorem instruction_before_tail (h : (Scan.line text lineNumber).error = none) (hne : tail ≠ [])
    (htail : Lexeme.first? tail = none) :
    instruction (text ++ Scan.blank ++ tail) lineNumber =
      markMnemonic (Scan.line text lineNumber).tokens := by
  rw [instruction, tokenize_before_tail h hne htail, dropLabels_scanned Folding.scanned_of_mem]

end Line

theorem Catalog.shown_markMnemonic (c : Catalog) (tokens : List Token) :
    c.shown (Line.markMnemonic tokens) = c.shown tokens := by
  cases tokens with
  | nil => rfl
  | cons first operands =>
      cases first
      rfl

namespace Session

/-- What help shows on a line: whether there is an instruction of a known family, its forms, which of
    them is meant and which parameter is written. -/
def shownHelp (s : Session) (line : Bytes) :
    Except CatalogError (Option (List Signature × Nat × Nat)) :=
  (s.signature line).answer.map (Option.map Help.shown)

theorem shownHelp_eq (s : Session) (line : Bytes) :
    s.shownHelp line = s.askCatalog.answer.map fun c => c.shown (Line.instruction line 0) := by
  rw [shownHelp, signature_help]
  cases s.askCatalog.answer with
  | error e => rfl
  | ok c =>
      cases hline : Line.instruction line 0 with
      | nil => simp only [Request.help, hline, Except.map, Catalog.shown, Option.map_none]
      | cons first operands =>
          simp only [Request.help, hline, Except.map, Catalog.shown, Option.map_map,
            Function.comp_def]

/-- A session that has loaded a catalog. -/
def ofCatalog (c : Catalog) : Session := ⟨.standard, astray, .debug, some (.ok c), .empty⟩

/-- All sessions show the same on two lines if all catalogs do. -/
theorem shownHelp_eq_iff {line other : Bytes} :
    (∀ s : Session, s.shownHelp line = s.shownHelp other) ↔
      ∀ c : Catalog, c.shown (Line.instruction line 0) = c.shown (Line.instruction other 0) := by
  constructor
  · intro h c
    have hshown := h (ofCatalog c)
    rw [shownHelp_eq, shownHelp_eq] at hshown
    exact Except.ok.inj hshown
  · intro h s
    simp only [shownHelp_eq, h]

section Unread

variable {text tail : Bytes} (h : (Scan.line text 0).error = none) (hne : tail ≠ [])
  (htail : Lexeme.first? tail = none)

include h hne htail

/-- Behind the end, help is about the scanned tokens; before it, about the folded ones. -/
theorem shown_before_tail :
    (∀ s : Session, s.shownHelp (text ++ Scan.blank ++ tail) = s.shownHelp text) ↔
      ∀ c : Catalog, c.shown (Scan.line text 0).tokens =
        c.shown (Line.dropLabels (Folding.reduce (Scan.line text 0).tokens)) := by
  rw [shownHelp_eq_iff, Line.instruction_before_tail h hne htail, Line.instruction,
    Folding.tokenize_of_complete h]
  simp only [Catalog.shown_markMnemonic]

/-- Before an end that cannot be read a line is not folded. On a plain line this does not show in any
    help, whatever the catalog; on every other line whose tokens a word can count there is a catalog
    with which it shows. -/
theorem unread_tail_shows_unless_plain :
    Line.instruction (text ++ Scan.blank ++ tail) 0 =
        Line.markMnemonic (Scan.line text 0).tokens ∧
      (Line.Plain (Line.tokenize text 0) →
        ∀ s : Session, s.shownHelp (text ++ Scan.blank ++ tail) = s.shownHelp text) ∧
      (Profile.FitsWord (Scan.line text 0).tokens.length →
        (∀ s : Session, s.shownHelp (text ++ Scan.blank ++ tail) = s.shownHelp text) →
        Line.Plain (Line.tokenize text 0)) := by
  have hscanned : ∀ t ∈ (Scan.line text 0).tokens, Folding.Scanned t := Folding.scanned_of_mem
  rw [shown_before_tail h hne htail, Folding.tokenize_of_complete h]
  refine ⟨Line.instruction_before_tail h hne htail, ?_, ?_⟩
  · intro hplain c
    exact c.shown_of_profile (Line.profile_of_plain hscanned hplain).symm
  · intro hlength hshown
    have hbound : ∀ n, n ≤ Operand.separators (Scan.line text 0).tokens → Profile.FitsWord n :=
      fun n hn => hlength.mono (Nat.le_trans hn (List.length_filter_le _ _))
    refine Line.plain_of_profile hscanned ?_ (Catalog.profile_of_shown hshown ?_ ?_).symm
    · intro t ht hkind
      exact Scan.splits_of_mem ht (by rw [hkind]; decide)
    · exact fun p hp => hbound _ (Profile.separators_le hp)
    · exact fun p hp => hbound _ (Line.separators_of_profile hscanned hp)

end Unread

/-- A shifted register that is neither the mnemonic nor the last operand does not show. -/
theorem inner_shift_does_not_show :
    (Scan.line (.ofString "add r1 shl 4, r2") 0).error = none ∧
      Lexeme.first? (.ofString "@") = none ∧
      Line.Plain (Line.tokenize (.ofString "add r1 shl 4, r2") 0) ∧
      ∀ s : Session, s.shownHelp (.ofString "add r1 shl 4, r2" ++ Scan.blank ++ .ofString "@") =
        s.shownHelp (.ofString "add r1 shl 4, r2") := by
  have hcomplete : (Scan.line (.ofString "add r1 shl 4, r2") 0).error = none := by decide
  have htail : Lexeme.first? (.ofString "@") = none := by decide
  have hplain : Line.Plain (Line.tokenize (.ofString "add r1 shl 4, r2") 0) :=
    ⟨by decide +kernel, by decide +kernel, by decide +kernel⟩
  exact ⟨hcomplete, htail, hplain,
    (unread_tail_shows_unless_plain hcomplete (by decide) htail).2.1 hplain⟩

/-- Where a label stands in front, help is about the label. -/
theorem unread_tail_shows :
    ¬ ∀ (s : Session) (text tail : Bytes), (Scan.line text 0).error = none → tail ≠ [] →
      Lexeme.first? tail = none →
      s.shownHelp (text ++ Scan.blank ++ tail) = s.shownHelp text := by
  intro h
  have hdiffer : (Catalog.probe 4 2).shown
        (Line.instruction (.ofString "loop: ADD r1, r2, r3" ++ Scan.blank ++ .ofString "@") 0) ≠
      (Catalog.probe 4 2).shown (Line.instruction (.ofString "loop: ADD r1, r2, r3") 0) := by
    decide +kernel
  have hsame := h (ofCatalog (.probe 4 2)) (.ofString "loop: ADD r1, r2, r3") (.ofString "@")
    (by decide) (by decide) (by decide)
  rw [shownHelp_eq, shownHelp_eq] at hsame
  exact hdiffer (Except.ok.inj hsame)

end Session

end AsmAssist
