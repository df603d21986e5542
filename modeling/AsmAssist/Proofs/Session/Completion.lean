import AsmAssist.Proofs.Line.Labels
import AsmAssist.Proofs.Line.Plain
import AsmAssist.Proofs.Session.Tail

/- Where completion goes over from instructions to operands: behind the first word, or behind a blank if
   something else was typed before it, so that a blank behind a label counts like one behind a
   mnemonic. -/

namespace AsmAssist

namespace Rune

theorem bytes_ne_nil (skip : Nat) (s : Bytes) : ∀ g ∈ glyphsAfter skip s, g.bytes ≠ [] := by
  fun_induction glyphsAfter skip s with
  | case1 => simp
  | case2 skip b rest ih => exact ih
  | case3 b rest c more hlead ih => exact List.forall_mem_cons.mpr ⟨List.cons_ne_nil _ _, ih⟩

end Rune

namespace Bytes

theorem endsWith_byte (s : Bytes) (b : UInt8) : s.endsWith [b] = true ↔ s.getLast? = some b := by
  rw [← List.head?_reverse, endsWith, List.reverse_singleton]
  cases s.reverse with
  | nil => simp
  | cons x rest => simp [@eq_comm _ b x]

/-- A text without white space at its start. -/
def trimStart (s : Bytes) : Bytes :=
  (s.glyphs.dropWhile fun g => Blank.isSpace g.rune).flatMap Glyph.bytes

theorem trimStart_suffix (s : Bytes) : s.trimStart <:+ s := by
  refine ⟨(s.glyphs.takeWhile fun g => Blank.isSpace g.rune).flatMap Glyph.bytes, ?_⟩
  rw [trimStart, ← List.flatMap_append, List.takeWhile_append_dropWhile, glyphs_bytes]

theorem trimStart_cons {b : UInt8} {rest : Bytes} (h : Blank.isSpace (Rune.lead b rest).1 = false) :
    trimStart (b :: rest) = b :: rest := by
  have hkept : (glyphs (b :: rest)).dropWhile (fun g => Blank.isSpace g.rune) = glyphs (b :: rest) := by
    simp only [glyphs, Rune.glyphsAfter, List.dropWhile_cons, h, Bool.false_eq_true, if_false]
  rw [trimStart, hkept, glyphs_bytes]

theorem trimStart_encode {c : Char} (h : Blank.isSpace c = true) (rest : Bytes) :
    trimStart (Rune.encode c ++ rest) = trimStart rest := by
  obtain ⟨b, tail, hencode, hlead⟩ := Rune.lead_encode c
  simp only [trimStart, hencode, glyphs, List.cons_append, Rune.glyphsAfter, hlead,
    Rune.glyphsAfter_skip, List.dropWhile_cons, h, if_true]

theorem trimStart_eq_nil {s : Bytes} :
    s.trimStart = [] ↔ s.runes.all Blank.isSpace = true := by
  have hall : s.runes.all Blank.isSpace = true ↔
      (s.glyphs.dropWhile fun g => Blank.isSpace g.rune) = [] := by
    rw [List.dropWhile_eq_nil_iff, runes, List.all_map, List.all_eq_true]
    rfl
  rw [hall, trimStart, List.flatMap_eq_nil_iff, List.eq_nil_iff_forall_not_mem]
  constructor
  · intro h g hg
    exact Rune.bytes_ne_nil 0 s g ((List.dropWhile_sublist _).mem hg) (h g hg)
  · intro h g hg
    exact absurd hg (h g)

/-- White space at the end of a text stays there, unless there is nothing else. -/
theorem endsWith_trimStart (s : Bytes) (b : UInt8) : s.trimStart.endsWith [b] = true ↔
    s.endsWith [b] = true ∧ s.runes.all Blank.isSpace = false := by
  rw [← Bool.not_eq_true, ← trimStart_eq_nil, endsWith_byte, endsWith_byte]
  obtain ⟨dropped, hsplit⟩ := s.trimStart_suffix
  generalize s.trimStart = kept at hsplit
  subst hsplit
  cases kept with
  | nil => simp
  | cons x kept => simp [List.getLast?_append]

end Bytes

namespace Lexeme

theorem solid_not_space : ∀ b : UInt8, Solid b → Blank.isSpace (Char.ofNat b.toNat) = false := by
  refine forall_byte ?_
  decide +kernel

/-- What a readable text loses at its start as white space is a gap. -/
theorem Lexable.trimStart {text : Bytes} (h : Lexable text) :
    ∃ gap, Gaps gap ∧ text = gap ++ text.trimStart := by
  induction h with
  | nil => exact ⟨[], .nil, rfl⟩
  | @cons atom rest ha _ ih =>
      rcases ha.gap_or_solid with ⟨c, hc, rfl⟩ | ⟨b, tail, hb, rfl⟩
      · cases hspace : Blank.isSpace c with
        | true =>
            obtain ⟨gap, hgap, hrest⟩ := ih
            refine ⟨Rune.encode c ++ gap, .cons hc hgap, ?_⟩
            rw [Bytes.trimStart_encode hspace, List.append_assoc, ← hrest]
        | false =>
            obtain ⟨b, tail, hencode, hlead⟩ := Rune.lead_encode c
            refine ⟨[], .nil, ?_⟩
            rw [hencode, List.cons_append, Bytes.trimStart_cons (by rw [hlead, hspace])]
            rfl
      · have hspace : Blank.isSpace (Rune.lead b (tail ++ rest)).1 = false := by
          rw [Rune.lead_one hb.1]
          exact solid_not_space b hb
        exact ⟨[], .nil, (Bytes.trimStart_cons hspace).symm⟩

end Lexeme

namespace Symbol

open Folding (LabelRow)

/-- The labels in front are a row of words and colons; they end where the row ends, and behind it there
    is no label in front. -/
theorem leading_row (tokens : List Token) :
    ∃ row rest, tokens = row ++ rest ∧ LabelRow row ∧ leading rest = [] ∧
      (leading tokens).getLast?.map (·.range.stop) = row.getLast?.map (·.range.stop) := by
  fun_induction leading tokens with
  | case1 name colon rest hpair ih =>
      obtain ⟨row, behind, rfl, hrow, hbehind, hstop⟩ := ih
      refine ⟨name :: colon :: row, behind, rfl, .cons hpair.1 hpair.2 hrow, hbehind, ?_⟩
      rw [List.getLast?_cons, List.getLast?_cons_cons, List.getLast?_cons]
      cases hlast : row.getLast? with
      | none => simp_all
      | some t =>
        rw [hlast] at hstop
        obtain ⟨symbol, hsymbol, heq⟩ := Option.map_eq_some_iff.mp hstop
        rw [hsymbol]
        simpa using heq
  | case2 name colon rest hpair => exact ⟨[], _, rfl, .nil, by rw [leading, if_neg hpair], rfl⟩
  | case3 tokens hshort =>
      refine ⟨[], tokens, rfl, .nil, ?_, rfl⟩
      rw [leading]
      exact hshort

end Symbol

namespace Scanner

open Scan (visible visible_cons shown)

/-- A run can be parted behind any of the tokens that it shows. -/
theorem Reads.part {s t : Scanner} {pieces : List Piece} (h : Reads s pieces t) {row rest : List Token}
    (hvisible : visible pieces = row ++ rest) :
    ∃ front back mid, Reads s front mid ∧ Reads mid back t ∧ visible back = rest ∧
      mid.position = (row.getLast?.map (·.range.stop)).getD s.position := by
  induction h generalizing row with
  | stop s =>
      obtain ⟨rfl, rfl⟩ := List.append_eq_nil_iff.mp hvisible.symm
      exact ⟨[], [], s, .stop s, .stop s, rfl, rfl⟩
  | @step kind cut text after position pieces t htakes hrest ih =>
      cases row with
      | nil => exact ⟨[], _, _, .stop _, .step htakes hrest, hvisible, rfl⟩
      | cons first row =>
          rw [visible_cons] at hvisible
          cases hhidden : kind.isHidden with
          | true =>
              have hnone : shown (tokenAt position kind cut text) = [] := by
                simp [shown, tokenAt, hhidden]
              rw [hnone, List.nil_append] at hvisible
              obtain ⟨front, back, mid, hfront, hback, hshown, hmid⟩ := ih hvisible
              refine ⟨_, back, mid, .step htakes hfront, hback, hshown, ?_⟩
              rw [hmid, List.getLast?_cons]
              rfl
          | false =>
              have hone : shown (tokenAt position kind cut text) = [tokenAt position kind cut text] := by
                simp [shown, tokenAt, hhidden]
              rw [hone, List.singleton_append, List.cons_append, List.cons.injEq] at hvisible
              obtain ⟨rfl, hvisible⟩ := hvisible
              obtain ⟨front, back, mid, hfront, hback, hshown, hmid⟩ := ih hvisible
              refine ⟨_, back, mid, .step htakes hfront, hback, hshown, ?_⟩
              rw [hmid, List.getLast?_cons]
              cases row.getLast? <;> rfl

end Scanner

namespace Line

open Folding (LabelRow reduce reduce_relocate tokenize_of_complete)
open Lexeme (Gaps gapLength gap_run)

/-- The column behind the labels in front of a text. -/
def labelEnd (text : Bytes) (lineNumber : Int) : Int :=
  ((Symbol.ofLine text lineNumber).getLast?.map (·.range.stop.column)).getD 0

def dropGap (text : Bytes) : Bytes := text.drop (gapLength 0 text)

/-- A text without the labels in front and without the gaps before, between and behind them. A bracket
    before the last of the labels goes with them. -/
def unlabelled (text : Bytes) (lineNumber : Int) : Bytes :=
  dropGap (text.drop (text.takeRunes (labelEnd text lineNumber)).length)

variable {text gap : Bytes} {lineNumber : Int}

theorem scan_behind_gap (hgap : Gaps gap) (text : Bytes) (lineNumber : Int) :
    Scan.line (gap ++ text) lineNumber =
      (Scan.line text lineNumber).relocate (·.moveRight gap.runeCount) := by
  rw [← Scan.view_at]
  refine (Scanner.view_gaps hgap text ⟨lineNumber, 0⟩).trans ?_
  simp only [Position.moveRight, Int.zero_add]

/-- A gap in front of a text moves its tokens to the right. -/
theorem tokenize_behind_gap (hgap : Gaps gap) (text : Bytes) (lineNumber : Int) :
    tokenize (gap ++ text) lineNumber =
      (tokenize text lineNumber).map (Token.moveRight gap.runeCount) := by
  rw [tokenize, tokenize, scan_behind_gap hgap]
  cases herror : (Scan.line text lineNumber).error with
  | none =>
      simp only [Scan.relocate, herror, Option.map_none]
      exact reduce_relocate _ _
  | some e => simp only [Scan.relocate, herror, Option.map_some, Token.moveRight]

theorem dropGap_eq (text : Bytes) : ∃ gap, Gaps gap ∧ text = gap ++ dropGap text := by
  obtain ⟨gap, rest, rfl, hgap, hstop⟩ := gap_run text
  refine ⟨gap, hgap, ?_⟩
  rw [dropGap, hgap.gapLength, hstop, Nat.add_zero, List.drop_left]

/-- Without its labels a text shows what it shows behind the row of words and colons. -/
theorem scan_unlabelled (h : (Scan.line text lineNumber).error = none) :
    ∃ row rest columns, (Scan.line text lineNumber).tokens = row ++ rest ∧ LabelRow row ∧
      Symbol.leading rest = [] ∧ (Scan.line (unlabelled text lineNumber) lineNumber).error = none ∧
      (Scan.line (unlabelled text lineNumber) lineNumber).tokens.map (Token.moveRight columns) =
        rest := by
  obtain ⟨pieces, hreads, -, htokens⟩ := Scan.complete_run h
  obtain ⟨row, rest, hsplit, hrow, hnone, hlast⟩ :=
    Symbol.leading_row (Scan.line text lineNumber).tokens
  obtain ⟨front, back, mid, hfront, hback, rfl, hmid⟩ := hreads.part (htokens.symm.trans hsplit)
  have htext : text = Scanner.texts front ++ mid.rest := hfront.rest_eq
  have hposition : mid.position = ⟨lineNumber, (Scanner.texts front).runeCount⟩ := by
    rw [hfront.position_eq]
    simp only [Scanner.start, Position.moveRight, Int.zero_add]
  have hend : labelEnd text lineNumber = mid.position.column := by
    have hleading : Symbol.ofLine text lineNumber =
        Symbol.leading (Scan.line text lineNumber).tokens := by
      rw [Symbol.ofLine_eq_declared, Symbol.declared, h]
    rw [labelEnd, hleading, hmid, ← hlast]
    cases (Symbol.leading (Scan.line text lineNumber).tokens).getLast? <;> rfl
  have hbehind : unlabelled text lineNumber = dropGap mid.rest := by
    rw [unlabelled, hend, hposition, htext, Bytes.takeRunes_runeCount (hfront.lexable.splits _),
      List.drop_left]
  obtain ⟨gap, hgap, hrest⟩ := dropGap_eq mid.rest
  have hview : Scanner.view mid = Scanner.view ⟨dropGap mid.rest, mid.position.moveRight gap.runeCount⟩ := by
    rw [← Scanner.view_gaps hgap, ← hrest]
  have hrun : Scanner.view mid = ⟨Scan.visible back, none⟩ :=
    Scan.view_of_run hback (.finished rfl)
  rw [hposition] at hview
  rw [hview, Position.moveRight, Scan.view_at, Scan.relocate, Scan.mk.injEq,
    Option.map_eq_none_iff] at hrun
  rw [hbehind]
  exact ⟨row, _, _, hsplit, hrow, hnone, hrun.2, hrun.1⟩

/-- Where no word and colon stand in front, folding puts no label in front. -/
theorem dropLabels_reduce {tokens : List Token} (hscanned : ∀ t ∈ tokens, t.kind ≠ .label)
    (h : Symbol.leading tokens = []) : dropLabels (reduce tokens) = reduce tokens := by
  have hnone := Symbol.leading_of_reduce hscanned
  rw [h, List.map_eq_nil_iff] at hnone
  have hwhole := @List.takeWhile_append_dropWhile _ (·.kind == .label) (reduce tokens)
  rwa [hnone, List.nil_append] at hwhole

/-- Behind its labels a text has the tokens that it has without them, further right. -/
theorem dropLabels_tokenize (h : (Scan.line text lineNumber).error = none) :
    ∃ columns, dropLabels (tokenize text lineNumber) =
      (tokenize (unlabelled text lineNumber) lineNumber).map (Token.moveRight columns) := by
  obtain ⟨row, rest, columns, hsplit, hrow, hnone, hcomplete, htokens⟩ := scan_unlabelled h
  have hscanned : ∀ t ∈ rest, t.kind ≠ .label := fun t ht =>
    (Folding.scanned_of_mem t (hsplit ▸ List.mem_append_right row ht)).not_label
  obtain ⟨labels, hlabels, hreduce⟩ := hrow.reduce_append rest
  refine ⟨columns, ?_⟩
  rw [tokenize_of_complete h, hsplit, hreduce, dropLabels_append hlabels,
    dropLabels_reduce hscanned hnone, tokenize_of_complete hcomplete, ← htokens, reduce_relocate]

example : unlabelled (.ofString " a: b : [ld r1") 0 = .ofString "[ld r1" := by decide

theorem length_markMnemonic (tokens : List Token) :
    (markMnemonic tokens).length = tokens.length := by
  cases tokens <;> rfl

/-- White space in front and labels do not count. -/
theorem length_instruction_trimStart (h : (Scan.line text lineNumber).error = none) :
    (instruction text.trimStart lineNumber).length =
      (tokenize (unlabelled text lineNumber) lineNumber).length := by
  obtain ⟨gap, hgap, htrim⟩ := (Scan.lexable_of_complete h).trimStart
  have hmoved := tokenize_behind_gap hgap text.trimStart lineNumber
  rw [← htrim] at hmoved
  obtain ⟨columns, hbare⟩ := dropLabels_tokenize h
  have hlength := congrArg List.length hbare
  rw [hmoved, List.length_map] at hlength
  rw [instruction, length_markMnemonic, ← hlength]
  have hdropped := congrArg List.length
    (dropLabels_relocate (·.moveRight gap.runeCount) (tokenize text.trimStart lineNumber))
  rw [List.length_map] at hdropped
  exact hdropped.symm

end Line

namespace Completion

/-- The line up to the cursor. -/
def upToCursor (document : Bytes) (line column : Int) : Bytes :=
  (Lines.line document line).takeRunes column

def instructions (c : Catalog) : List Completion := c.mnemonics.map ofInstruction

def operands (c : Catalog) (document : Bytes) : List Completion :=
  c.registers.map ofRegister ++ (Symbol.index document).map ofSymbol

/-- Behind the labels nothing is typed, or one token that ends at the cursor. -/
def OneWord (typed : Bytes) (line : Int) : Prop :=
  Line.unlabelled typed line = [] ∨
    ∃ t, Line.tokenize (Line.unlabelled typed line) line = [t] ∧
      t.range = ⟨⟨line, 0⟩, ⟨line, (Line.unlabelled typed line).runeCount⟩⟩

/-- The first word is being typed: it ends at the cursor, and no blank was typed last, unless there is
    only white space. -/
def AtFirstWord (typed : Bytes) (line : Int) : Prop :=
  OneWord typed line ∧ (typed.endsWith [0x20] = true → typed.runes.all Blank.isSpace = true)

/-- The first word is over: there is another behind it, or a blank behind anything but gaps. -/
def BehindFirstWord (typed : Bytes) (line : Int) : Prop :=
  2 ≤ (Line.tokenize (Line.unlabelled typed line) line).length ∨
    typed.endsWith [0x20] = true ∧ ¬ Lexeme.Gaps typed

theorem OneWord.length_le {typed : Bytes} {line : Int} (h : OneWord typed line) :
    (Line.tokenize (Line.unlabelled typed line) line).length ≤ 1 := by
  rcases h with hnone | ⟨t, hone, -⟩
  · rw [hnone]
    exact Nat.zero_le 1
  · rw [hone]
    exact Nat.le_refl 1

section

variable {document : Bytes} {line column : Int}
  (h : (Scan.line (upToCursor document line column) line).error = none)

include h

theorem isFirstWord_iff :
    isFirstWord (typed document line column) line = true ↔
      (Line.tokenize (Line.unlabelled (upToCursor document line column) line) line).length ≤ 1 ∧
        ((upToCursor document line column).endsWith [0x20] = true →
          (upToCursor document line column).runes.all Blank.isSpace = true) := by
  have htyped : typed document line column = (upToCursor document line column).trimStart := rfl
  have hlength := Line.length_instruction_trimStart h
  have hblank := Bytes.endsWith_trimStart (upToCursor document line column) 0x20
  rw [isFirstWord, htyped, hlength, Bool.and_eq_true, Bool.not_eq_true', decide_eq_true_eq, and_comm,
    ← Bool.not_eq_true, hblank, not_and, Bool.not_eq_false]

theorem AtFirstWord.isFirstWord (hfirst : AtFirstWord (upToCursor document line column) line) :
    isFirstWord (typed document line column) line = true :=
  (isFirstWord_iff h).mpr ⟨hfirst.1.length_le, hfirst.2⟩

theorem BehindFirstWord.isFirstWord (hbehind : BehindFirstWord (upToCursor document line column) line) :
    isFirstWord (typed document line column) line = false := by
  rw [← Bool.not_eq_true, isFirstWord_iff h]
  rintro ⟨hlength, hwhite⟩
  rcases hbehind with htwo | ⟨hblank, hgaps⟩
  · omega
  · -- White space in a text that is understood is a gap.
    obtain ⟨gap, hgap, htrim⟩ := (Scan.lexable_of_complete h).trimStart
    rw [Bytes.trimStart_eq_nil.mpr (hwhite hblank), List.append_nil] at htrim
    exact hgaps (htrim ▸ hgap)

end

/-- No list of instructions is a list of operands, for that has the entry point in it. -/
theorem instructions_ne_operands (c : Catalog) (document : Bytes) :
    instructions c ≠ operands c document := by
  intro heq
  have hentry : ofSymbol Symbol.entryPoint ∈ instructions c := by
    rw [heq]
    exact List.mem_append_right _ List.mem_cons_self
  obtain ⟨i, -, hi⟩ := List.mem_map.mp hentry
  exact nomatch congrArg kind hi

end Completion

namespace Session

open Completion (upToCursor OneWord AtFirstWord BehindFirstWord)

/-- A session with a catalog completes from it and from the symbols of the document. -/
theorem complete_answer {s : Session} {c : Catalog} {last : Option Bytes}
    (hcatalog : s.askCatalog.answer = .ok c) (hcache : s.cache.Holds last) (document : Bytes)
    (line column : Int) : (s.complete document line column).answer =
      if Completion.isFirstWord (Completion.typed document line column) line then
        .ok (Completion.instructions c)
      else .ok (Completion.operands c document) := by
  have hkept : s.askCatalog.session.cache.Holds last := by
    rw [(askCatalog_frame s).2.2.2]
    exact hcache
  simp only [complete, hcatalog]
  split
  · rfl
  · simp only [askSymbols, SymbolCache.ask_of_holds hkept, Completion.operands]

/-- If the line up to the cursor is understood, completion offers the instructions while the first word
    behind the labels is typed, and the registers and all symbols of the document once it is over. It
    offers one of the two whatever is typed. -/
theorem completion_switches_behind_first_word {s : Session} {c : Catalog} {last : Option Bytes}
    (hcatalog : s.askCatalog.answer = .ok c) (hcache : s.cache.Holds last) {document : Bytes}
    {line column : Int} (h : (Scan.line (upToCursor document line column) line).error = none) :
    (AtFirstWord (upToCursor document line column) line →
      (s.complete document line column).answer = .ok (Completion.instructions c)) ∧
    (BehindFirstWord (upToCursor document line column) line →
      (s.complete document line column).answer = .ok (Completion.operands c document)) ∧
    ((s.complete document line column).answer = .ok (Completion.instructions c) ∨
      (s.complete document line column).answer = .ok (Completion.operands c document)) ∧
    Completion.instructions c ≠ Completion.operands c document := by
  rw [complete_answer hcatalog hcache]
  refine ⟨fun hfirst => ?_, fun hbehind => ?_, ?_, Completion.instructions_ne_operands c document⟩
  · rw [if_pos (hfirst.isFirstWord h)]
  · rw [if_neg (Bool.eq_false_iff.mp (hbehind.isFirstWord h))]
  · split
    · exact .inl rfl
    · exact .inr rfl

/-- A catalog with one instruction and one register. -/
def smallCatalog : Catalog :=
  ⟨[], [⟨.ofString "ADD", .ofString "ADD Rd, Rm", []⟩], [], [⟨.ofString "r0", []⟩]⟩

/-- A blank behind the label is enough to be offered operands, though no mnemonic was typed. -/
theorem completion_behind_label :
    (Scan.line (upToCursor (.ofString "loop: AD") 0 8) 0).error = none ∧
      ((ofCatalog smallCatalog).complete (.ofString "loop: AD") 0 8).answer =
        .ok [⟨.ofString "ADD", .instruction, [], .ofString "ADD Rd, Rm"⟩] ∧
      ((ofCatalog smallCatalog).complete (.ofString "loop: AD") 0 6).answer =
        .ok [⟨.ofString "r0", .register, [], []⟩, ⟨.ofString "_start", .symbol, .ofString "Symbol", []⟩,
          ⟨.ofString "loop", .symbol, .ofString "Symbol", []⟩] := by
  have hcatalog : (ofCatalog smallCatalog).askCatalog.answer = .ok smallCatalog := rfl
  have hcache : (ofCatalog smallCatalog).cache.Holds none := rfl
  have htyped : (Scan.line (upToCursor (.ofString "loop: AD") 0 8) 0).error = none := by decide
  have hblank : (Scan.line (upToCursor (.ofString "loop: AD") 0 6) 0).error = none := by decide
  have hword : AtFirstWord (upToCursor (.ofString "loop: AD") 0 8) 0 :=
    ⟨.inr ⟨_, rfl, by decide⟩, by decide⟩
  have hbehind : BehindFirstWord (upToCursor (.ofString "loop: AD") 0 6) 0 :=
    .inr ⟨by decide, fun hgaps => absurd (hgaps.halts 'l'.toUInt8 rfl) (by decide)⟩
  exact ⟨htyped, (completion_switches_behind_first_word hcatalog hcache htyped).1 hword,
    (completion_switches_behind_first_word hcatalog hcache hblank).2.1 hbehind⟩

/-- What is left without the labels does not decide alone. -/
theorem completion_not_by_unlabelled :
    ¬ ∀ (s : Session) (c : Catalog) (document : Bytes) (line column : Int),
      s.askCatalog.answer = .ok c → s.cache.Holds none →
      (Scan.line (upToCursor document line column) line).error = none →
      ((s.complete document line column).answer = .ok (Completion.instructions c) ↔
        OneWord (upToCursor document line column) line) := by
  intro h
  have hempty : Line.unlabelled (upToCursor (.ofString "loop: ") 0 6) 0 = [] := by decide
  have hanswer := (h (ofCatalog smallCatalog) smallCatalog (.ofString "loop: ") 0 6 rfl rfl
    (by decide)).mpr (.inl hempty)
  have hfirst : ¬ Completion.isFirstWord (Completion.typed (.ofString "loop: ") 0 6) 0 = true := by
    decide
  rw [complete_answer rfl (show (ofCatalog smallCatalog).cache.Holds none from rfl),
    if_neg hfirst] at hanswer
  exact Completion.instructions_ne_operands _ _ (Except.ok.inj hanswer).symm

end Session

end AsmAssist
