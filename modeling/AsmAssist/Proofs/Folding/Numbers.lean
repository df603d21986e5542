import AsmAssist.Proofs.Decimal
import AsmAssist.Proofs.Folding.Trees
import AsmAssist.Proofs.Scanner.Spacing

/- Numbers are read exactly. Every number of a line was read from one literal, whose notation gives
   its base and its digits; it is valid if the digits denote a number that fits in a word, and then it
   is that number. And every such number, in every notation, is read back as itself. -/

namespace AsmAssist.Folding

open Decimal (Denotes)
open Lexeme (literals Written)

/-- Digits without the underscores that group them. -/
def plainDigits (digits : Bytes) : Bytes := digits.filter fun b => !Ascii.isUnderscore b

/-- The numeral says what digits say in a base. -/
structure ReadsExactly (base : Nat) (digits : Bytes) (n : Numeral Token) : Prop where
  base_eq : n.base = base
  text_eq : Token.numeralText n = digits
  valid_iff : n.valid = true ↔
    plainDigits digits ≠ [] ∧ ∃ v < 2 ^ 64, Denotes base (plainDigits digits) v
  value_eq : ∀ v < 2 ^ 64, plainDigits digits ≠ [] → Denotes base (plainDigits digits) v →
    n.value.toNat = v
  invalid : n.valid = false → n.value = 0

/-- The numerals that a token holds: its own, the amount of a shifted register, and those of its
    parts. -/
inductive Holds (n : Numeral Token) : Token → Prop
  | number {kind : Kind} {range : Range} : Holds n ⟨kind, .number n, range⟩
  | amount {kind : Kind} {parts : List Token} {register shift : Bytes} {range : Range} :
      Holds n ⟨kind, .shifted parts register shift n, range⟩
  | part {t p : Token} : p ∈ t.payload.parts → Holds n p → Holds n t

theorem readNumeral_text (base : Nat) (literal : Token) :
    Token.numeralText (readNumeral base [literal]) = literal.text := by
  have hparts := readNumeral_parts base [literal]
  generalize readNumeral base [literal] = n at hparts
  obtain ⟨parts, base, value, valid⟩ := n
  cases hparts
  simp [Token.numeralText, Token.texts]

theorem readNumeral_eq (base : Nat) (literal : Token) :
    readNumeral base [literal] =
      match Decimal.readWord base (plainDigits literal.text) with
      | .ok value => ⟨[literal], base, UInt64.ofNat value, true⟩
      | .error _ => ⟨[literal], base, 0, false⟩ := rfl

/-- A literal is read exactly, in whatever base. -/
theorem readNumeral_exact {base : Nat} (hbase : 0 < base) (literal : Token) :
    ReadsExactly base literal.text (readNumeral base [literal]) := by
  have hword := Decimal.readWord_eq_ok hbase (plainDigits literal.text)
  refine ⟨readNumeral_base base [literal], readNumeral_text base literal, ?_, ?_, ?_⟩
  · rw [readNumeral_eq]
    cases hread : Decimal.readWord base (plainDigits literal.text) with
    | ok v =>
        obtain ⟨hne, hv, hdenotes⟩ := (hword v).mp hread
        simp only [true_iff]
        exact ⟨hne, v, hv, hdenotes⟩
    | error e =>
        simp only [Bool.false_eq_true, false_iff]
        rintro ⟨hne, v, hv, hdenotes⟩
        rw [(hword v).mpr ⟨hne, hv, hdenotes⟩] at hread
        cases hread
  · intro v hv hne hdenotes
    rw [readNumeral_eq, (hword v).mpr ⟨hne, hv, hdenotes⟩]
    exact Nat.mod_eq_of_lt hv
  · intro hinvalid
    rw [readNumeral_eq] at hinvalid ⊢
    cases hread : Decimal.readWord base (plainDigits literal.text) with
    | ok v =>
        rw [hread] at hinvalid
        cases hinvalid
    | error e => rfl

/-! ### The numbers of a line -/

theorem Scanned.holds_nothing {t : Token} (h : Scanned t) (n : Numeral Token) : ¬ Holds n t := by
  obtain ⟨text, htext⟩ := h.raw
  intro hholds
  cases hholds with
  | number => cases htext
  | amount => cases htext
  | part hpart _ =>
      rw [htext] at hpart
      cases hpart

/-- A literal that folding left alone was there from the start. -/
theorem Grown.seed_of_literal {seed : Token → Prop} {t : Token} (h : Grown seed t) {base : Nat}
    (hbase : (t.kind, base) ∈ literals) : seed t := by
  cases h with
  | seed ht => exact ht
  | fold hr hw _ =>
      have hkinds : ∀ rule ∈ rules, ∀ literal ∈ literals, literal.1 ≠ rule.kind := by
        simp [rules, literals, digitsRule, labelRule, shiftedRule]
      exact absurd rfl (hkinds _ hr _ hbase)

/-- Every numeral in a tree was read from one of the literals it grew from. -/
theorem Grown.numeral {seed : Token → Prop} (hseed : ∀ t, seed t → Scanned t) {t : Token}
    (h : Grown seed t) {n : Numeral Token} (hn : Holds n t) :
    ∃ literal base, seed literal ∧ (literal.kind, base) ∈ literals ∧
      n = readNumeral base [literal] := by
  induction h with
  | seed ht => exact absurd hn ((hseed _ ht).holds_nothing n)
  | fold hr hw hgrown ih =>
      rcases fold_cases hr hw with ⟨literal, base, rfl, hbase, hfold⟩ |
        ⟨name, colon, rfl, -, -, hfold⟩ | ⟨register, shift, amount, rfl, -, -, hamount, hfold⟩
      · rw [hfold] at hn
        cases hn with
        | number =>
            have hliteral := hgrown literal (by simp)
            exact ⟨literal, base, hliteral.seed_of_literal hbase, hbase, rfl⟩
        | @part _ p hpart hp =>
            exact ih p (readNumeral_parts base [literal] ▸ hpart) hp
      · rw [hfold] at hn
        cases hn with
        | @part _ p hpart hp => exact ih p hpart hp
      · rw [hfold] at hn
        cases hn with
        | amount =>
            have hgrows := hgrown amount (by simp)
            obtain ⟨m, hm⟩ := (hgrows.wellTyped hseed).number_payload hamount
            have hholds : Holds amount.payload.numeral amount := by
              obtain ⟨kind, payload, range⟩ := amount
              cases hm
              exact .number
            exact ih amount (by simp) hholds
        | @part _ p hpart hp => exact ih p hpart hp

/-- The notation of its source gives the base and the digits of a scanned literal. -/
theorem written_of_mem {text : Bytes} {lineNumber : Int} {literal : Token}
    (h : literal ∈ (Scan.line text lineNumber).tokens) {base : Nat}
    (hbase : (literal.kind, base) ∈ literals) :
    Written base literal.text (literal.range.slice text) := by
  obtain ⟨pieces, s, hreads, p, hp, rfl⟩ := Scan.piece_of_mem h
  obtain ⟨kind, cut, position, rest, htoken, htakes⟩ := hreads.taken p hp
  rw [hreads.slice_of_mem hp]
  rw [htoken] at hbase ⊢
  exact Lexeme.written_of_first? hbase htakes.found htakes.length_eq

theorem literals_pos : ∀ literal ∈ literals, 0 < literal.2 := by decide

/-- A numeral of a line was read from one literal of the line. -/
theorem numeral_of_line {text : Bytes} {lineNumber : Int}
    (hcomplete : (Scan.line text lineNumber).error = none) {t : Token}
    (ht : t ∈ Line.tokenize text lineNumber) {n : Numeral Token} (hn : Holds n t) :
    ∃ base digits, Written base digits ((span n.parts).slice text) ∧ ReadsExactly base digits n := by
  obtain ⟨literal, base, hmem, hbase, rfl⟩ :=
    (grown_tokenize hcomplete t ht).numeral scanned_of_mem hn
  refine ⟨base, literal.text, ?_, readNumeral_exact (literals_pos _ hbase) literal⟩
  rw [readNumeral_parts]
  exact written_of_mem hmem hbase

theorem numbered_of_literal {t : Token} {base : Nat} (h : (t.kind, base) ∈ literals) :
    numbered t = ⟨.number, .number (readNumeral base [t]), t.range⟩ := by
  simp only [literals, List.mem_cons, List.not_mem_nil, or_false, Prod.mk.injEq] at h
  rcases h with ⟨hkind, rfl⟩ | ⟨hkind, rfl⟩ | ⟨hkind, rfl⟩ <;>
    simp only [numbered, hkind] <;> rfl

theorem numbered_text (t : Token) : (numbered t).text = t.text := by
  cases hliteral : isLiteral t with
  | false => rw [numbered_of_not_literal hliteral]
  | true =>
      simp only [isLiteral, Bool.or_eq_true, beq_iff_eq] at hliteral
      have hbase : ∃ base, (t.kind, base) ∈ literals := by
        rcases hliteral with (h | h) | h <;> simp [h, literals]
      obtain ⟨base, hbase⟩ := hbase
      rw [numbered_of_literal hbase]
      exact readNumeral_text base t

theorem tokenize_of_literal {text : Bytes} {lineNumber : Int} {literal : Token}
    (hline : Scan.line text lineNumber = ⟨[literal], none⟩) {base : Nat}
    (hbase : (literal.kind, base) ∈ literals) :
    Line.tokenize text lineNumber =
      [⟨.number, .number (readNumeral base [literal]), literal.range⟩] := by
  rw [tokenize_of_complete (by rw [hline]), hline, reduce_eq_pass]
  simp only [pass, List.map_cons, List.map_nil, walk, numbered_of_literal hbase]

/-- A text in one of the notations is a line of one number. -/
theorem tokenize_of_written {base : Nat} {digits text : Bytes} (h : Written base digits text)
    (lineNumber : Int) :
    ∃ literal : Token, literal.text = digits ∧ (literal.kind, base) ∈ literals ∧
      Line.tokenize text lineNumber =
        [⟨.number, .number (readNumeral base [literal]), literal.range⟩] := by
  obtain ⟨kind, hbase, hfirst⟩ := h.first?
  have hline := Scan.line_of_takes (Scanner.takes_of_first? hfirst rfl) lineNumber
  have hshown : ∀ literal ∈ literals, literal.1.isHidden = false := by decide
  have hkind : kind.isHidden = false := hshown _ hbase
  simp only [Scan.shown, Scanner.tokenAt, hkind, Bool.false_eq_true, if_false] at hline
  exact ⟨_, rfl, hbase, tokenize_of_literal hline hbase⟩

/-- The numbers of a line that was understood to its end, those in shifted registers included, are
    read exactly: the notation of the source gives the base and the digits. And each number below
    `2 ^ 64`, in whatever notation, is a line of one valid number, which is that number. -/
theorem numbers_are_read_exactly :
    (∀ text lineNumber, (Scan.line text lineNumber).error = none →
      ∀ t ∈ Line.tokenize text lineNumber, ∀ n, Holds n t →
        (∃ base digits, Written base digits ((span n.parts).slice text)) ∧
        ∀ base digits, Written base digits ((span n.parts).slice text) →
          ReadsExactly base digits n) ∧
    ∀ base digits text v lineNumber, Written base digits text → plainDigits digits ≠ [] →
      Denotes base (plainDigits digits) v → v < 2 ^ 64 →
      ∃ n range, Line.tokenize text lineNumber = [⟨.number, .number n, range⟩] ∧
        n.valid = true ∧ n.value.toNat = v ∧ n.base = base := by
  constructor
  · intro text lineNumber hcomplete t ht n hn
    obtain ⟨base, digits, hwritten, hexact⟩ := numeral_of_line hcomplete ht hn
    refine ⟨⟨base, digits, hwritten⟩, ?_⟩
    intro base' digits' hwritten'
    obtain ⟨rfl, rfl⟩ := hwritten.unique hwritten'
    exact hexact
  · intro base digits text v lineNumber hwritten hne hdenotes hv
    obtain ⟨literal, rfl, hbase, htokens⟩ := tokenize_of_written hwritten lineNumber
    have hexact := readNumeral_exact (literals_pos _ hbase) literal
    exact ⟨_, _, htokens, hexact.valid_iff.mpr ⟨hne, v, hv, hdenotes⟩,
      hexact.value_eq v hv hne hdenotes, hexact.base_eq⟩

/-- What looks like a binary number with a mark is hexadecimal if it is closed by an `h`, and case,
    leading zeros and underscores do not change a number. -/
theorem closed_number_read_exactly :
    (Scan.line (.ofString "r1 shl 0b1h") 0).error = none ∧
      (∃ t ∈ Line.tokenize (.ofString "r1 shl 0b1h") 0, ∃ n, Holds n t ∧
        (span n.parts).slice (.ofString "r1 shl 0b1h") = .ofString "0b1h" ∧
        ReadsExactly 16 (.ofString "0b1") n) ∧
      Written 16 (.ofString "00_fF") (.ofString "00_fFH") ∧
      Denotes 16 (plainDigits (.ofString "00_fF")) 255 ∧
      ∃ n range, Line.tokenize (.ofString "00_fFH") 3 = [⟨.number, .number n, range⟩] ∧
        n.valid = true ∧ n.value.toNat = 255 ∧ n.base = 16 := by
  have hcomplete : (Scan.line (.ofString "r1 shl 0b1h") 0).error = none := by decide
  have hclosed : ∀ (digits : Bytes) (last : UInt8), Ascii.isLetterOf 'h' last = true → digits ≠ [] →
      digits.all Lexeme.hexDigit = true → Written 16 digits (digits ++ [last]) :=
    fun digits last hlast hne hall => .hexClosed hlast hne (List.all_eq_true.mp hall)
  obtain ⟨t, n, htokens, hholds, hslice⟩ : ∃ t n, Line.tokenize (.ofString "r1 shl 0b1h") 0 = [t] ∧
      Holds n t ∧ (span n.parts).slice (.ofString "r1 shl 0b1h") = .ofString "0b1h" :=
    ⟨_, _, rfl, .amount, by decide⟩
  have hmem : t ∈ Line.tokenize (.ofString "r1 shl 0b1h") 0 := by simp [htokens]
  have hexact := (numbers_are_read_exactly.1 _ _ hcomplete t hmem n hholds).2 16 (.ofString "0b1")
  rw [hslice] at hexact
  have hwritten : Written 16 (.ofString "00_fF") (.ofString "00_fFH") :=
    hclosed (.ofString "00_fF") 'H'.toUInt8 (by decide) (by decide) (by decide)
  have hdenotes : Denotes 16 (plainDigits (.ofString "00_fF")) 255 :=
    ⟨[0, 0, 15, 15], by decide, by decide, by decide⟩
  exact ⟨hcomplete, ⟨t, hmem, n, hholds, hslice,
      hexact (hclosed (.ofString "0b1") 'h'.toUInt8 (by decide) (by decide) (by decide))⟩,
    hwritten, hdenotes,
    numbers_are_read_exactly.2 _ _ _ _ _ hwritten (by decide) hdenotes (by decide)⟩

end AsmAssist.Folding
