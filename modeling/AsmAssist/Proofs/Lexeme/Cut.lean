import AsmAssist.Proofs.Lexeme.Atom
import Mathlib.Data.List.TakeWhile

/- What the lexical rules cut off a text. Every cut is a nonempty readable piece, a text that starts
   with an atom has a cut, and a cut does not look past a readable text into one that neither goes on
   a word nor, after nothing but a gap, goes on the gap. -/

namespace AsmAssist.Lexeme

/-- A cut takes a nonempty readable piece off the front of a text. -/
def Readable (s : Bytes) (cut : Cut) : Prop :=
  ∃ piece rest, s = piece ++ rest ∧ piece.length = cut.length ∧ piece ≠ [] ∧ Lexable piece

/-- A text into which no word and no gap before it goes on. -/
def Inert : Bytes → Prop
  | [] => True
  | b :: rest => Ascii.isWord b = false ∧ Blank.isGap (Rune.lead b rest).1 = false

def Rule.Sound (rule : Rule) : Prop := ∀ s cut, rule.cut? s = some cut → Readable s cut

/-- A text into which no word before it goes on. -/
def Halts (r : Bytes) : Prop := ∀ b ∈ r.head?, Ascii.isWord b = false

/-- No lexeme at the start of `p` goes on into `r`. A gap does so only if `p` is nothing else. -/
structure Parted (p r : Bytes) : Prop where
  halts : Halts r
  gap : Gaps p → gapLength 0 r = 0

def Rule.Stable (rule : Rule) : Prop :=
  ∀ p r, Lexable p → p ≠ [] → Parted p r → rule.cut? (p ++ r) = rule.cut? p

theorem whole_eq_some {s : Bytes} {n : Nat} {cut : Cut} :
    whole s n = some cut ↔ n ≠ 0 ∧ cut = ⟨n, s.take n⟩ := by
  by_cases h : n = 0
  · simp [whole, h]
  · simp [whole, h, eq_comm]

theorem whole_append {p : Bytes} {n : Nat} (h : n ≤ p.length) (r : Bytes) :
    whole (p ++ r) n = whole p n := by
  simp only [whole, List.take_append_of_le_length h]

theorem readable_of_whole {s : Bytes} {n : Nat} {cut : Cut} (h : whole s n = some cut)
    (hn : n ≤ s.length) (hl : Lexable (s.take n)) : Readable s cut := by
  obtain ⟨hpos, rfl⟩ := whole_eq_some.mp h
  refine ⟨s.take n, s.drop n, (List.take_append_drop n s).symm, List.length_take_of_le hn, ?_, hl⟩
  intro hnil
  have hlen := List.length_take_of_le hn
  rw [hnil] at hlen
  exact hpos hlen.symm

theorem readable_of_whole_words {s w rest : Bytes} {cut : Cut} (hs : s = w ++ rest)
    (hw : ∀ b ∈ w, Ascii.isWord b = true) (h : whole s w.length = some cut) : Readable s cut := by
  have htake : s.take w.length = w := by rw [hs, List.take_left]
  refine readable_of_whole h ?_ ?_
  · rw [hs, List.length_append]
    exact Nat.le_add_right _ _
  · rw [htake]
    exact lexable_of_words hw

theorem readable_of_words {w rest : Bytes} {cut : Cut} (hw : ∀ b ∈ w, Ascii.isWord b = true)
    (hne : w ≠ []) (hlen : w.length = cut.length) : Readable (w ++ rest) cut :=
  ⟨w, rest, rfl, hlen, hne, lexable_of_words hw⟩

theorem takeWhile_append_of_stop {f : UInt8 → Bool} (p : Bytes) {r : Bytes}
    (hr : ∀ b ∈ r.head?, f b = false) : (p ++ r).takeWhile f = p.takeWhile f := by
  induction p with
  | nil =>
      cases r with
      | nil => rfl
      | cons b r => simp [hr b rfl]
  | cons b p ih => simp [List.takeWhile_cons, ih]

theorem drop_takeWhile_length (f : UInt8 → Bool) (s : Bytes) :
    s.drop (s.takeWhile f).length = s.dropWhile f := by
  induction s with
  | nil => rfl
  | cons b s ih => cases h : f b <;> simp [h, ih]

/-! ### Gaps -/

theorem gapLength_skip {skip : Nat} {s : Bytes} (h : skip ≤ s.length) :
    gapLength skip s = skip + gapLength 0 (s.drop skip) := by
  induction skip generalizing s with
  | zero => rw [Nat.zero_add, List.drop_zero]
  | succ skip ih =>
      cases s with
      | nil => cases h
      | cons b s =>
          rw [gapLength, ih (Nat.le_of_succ_le_succ h), List.drop_succ_cons]
          omega

theorem gapLength_encode {c : Char} (hc : Blank.isGap c = true) (s : Bytes) :
    gapLength 0 (Rune.encode c ++ s) = (Rune.encode c).length + gapLength 0 s := by
  obtain ⟨b, tail, henc, hlead⟩ := Rune.lead_encode c
  rw [henc, List.cons_append, gapLength, hlead s]
  simp only [hc, if_true]
  rw [gapLength_skip (by simp), List.drop_left, List.length_cons]
  omega

theorem gapLength_stop {b : UInt8} {rest : Bytes}
    (h : Blank.isGap (Rune.lead b rest).1 = false) : gapLength 0 (b :: rest) = 0 := by
  simp [gapLength, h]

theorem Inert.parted {r : Bytes} (h : Inert r) (p : Bytes) : Parted p r := by
  cases r with
  | nil => exact ⟨by simp [Halts], fun _ => rfl⟩
  | cons b r => exact ⟨by simpa [Halts] using h.1, fun _ => gapLength_stop h.2⟩

theorem Halts.append {s : Bytes} (h : Halts s) (hne : s ≠ []) (r : Bytes) : Halts (s ++ r) := by
  cases s with
  | nil => exact absurd rfl hne
  | cons b s => exact h

theorem Gaps.halts {g : Bytes} (h : Gaps g) : Halts g := by
  cases h with
  | nil => simp [Halts]
  | @cons c rest hc _ =>
      obtain ⟨x, tail, henc, hlead⟩ := Rune.lead_encode c
      rw [henc]
      rintro _ ⟨rfl⟩
      rw [← Bool.not_eq_true]
      intro hword
      -- A word byte is no gap, but it is the first byte of one here.
      have hgap := (word_solid x hword).lead (tail ++ rest)
      rw [hlead rest, hc] at hgap
      cases hgap

theorem Gaps.gapLength {g : Bytes} (h : Gaps g) (s : Bytes) :
    gapLength 0 (g ++ s) = g.length + gapLength 0 s := by
  induction h with
  | nil => exact (Nat.zero_add _).symm
  | cons hc _ ih => rw [List.append_assoc, gapLength_encode hc, ih, List.length_append, Nat.add_assoc]

/-- A text starts with the gap character that is read there. -/
theorem exists_of_gap {b : UInt8} {rest : Bytes} (h : Blank.isGap (Rune.lead b rest).1 = true) :
    ∃ c after, Blank.isGap c = true ∧ b :: rest = Rune.encode c ++ after := by
  have hc : (Rune.lead b rest).1 ≠ Rune.replacement := by
    intro hrep
    rw [hrep] at h
    exact absurd h (by decide)
  refine ⟨_, rest.drop (Rune.lead b rest).2, h, ?_⟩
  rw [Rune.encode_lead hc, List.cons_append, List.take_append_drop]

/-- The gap that a text starts with, and the text after it. -/
theorem gap_run (s : Bytes) :
    ∃ gaps rest, s = gaps ++ rest ∧ Gaps gaps ∧ gapLength 0 rest = 0 := by
  -- On the length: a gap character may take several bytes at once.
  induction hn : s.length using Nat.strongRecOn generalizing s with
  | ind n ih =>
      cases s with
      | nil => exact ⟨[], [], rfl, .nil, rfl⟩
      | cons b rest =>
          cases hgap : Blank.isGap (Rune.lead b rest).1 with
          | false => exact ⟨[], b :: rest, rfl, .nil, gapLength_stop hgap⟩
          | true =>
              obtain ⟨c, after, hc, hs⟩ := exists_of_gap hgap
              rw [hs] at hn ⊢
              have hpos := List.length_pos_iff.mpr (Atom.gap hc).ne_nil
              rw [List.length_append] at hn
              obtain ⟨gaps, rest', rfl, hgaps, hstop⟩ := ih after.length (by omega) after rfl
              exact ⟨Rune.encode c ++ gaps, rest', by rw [List.append_assoc], .cons hc hgaps, hstop⟩

theorem gap_eq {g r : Bytes} (hg : Gaps g) (hr : gapLength 0 r = 0) :
    gap (g ++ r) = whole (g ++ r) g.length := by
  rw [gap, hg.gapLength, hr, Nat.add_zero]

theorem gap_sound : (⟨.space, gap⟩ : Rule).Sound := by
  intro s cut h
  obtain ⟨gaps, rest, rfl, hgaps, hstop⟩ := gap_run s
  change gap (gaps ++ rest) = some cut at h
  rw [gap_eq hgaps hstop] at h
  refine readable_of_whole h ?_ ?_
  · rw [List.length_append]
    exact Nat.le_add_right _ _
  · rw [List.take_left]
    exact hgaps.lexable

theorem gapLength_append {p r : Bytes} (hp : Lexable p) (hr : Gaps p → gapLength 0 r = 0) :
    gapLength 0 (p ++ r) = gapLength 0 p := by
  induction hp with
  | nil => exact hr .nil
  | @cons atom rest ha _ ih =>
      rw [List.append_assoc]
      rcases ha.gap_or_solid with ⟨c, hc, rfl⟩ | ⟨b, tail, hb, rfl⟩
      · rw [gapLength_encode hc, gapLength_encode hc, ih fun hrest => hr (.cons hc hrest)]
      · rw [List.cons_append, List.cons_append, gapLength_stop (hb.lead _),
          gapLength_stop (hb.lead _)]

theorem gapLength_le (s : Bytes) : gapLength 0 s ≤ s.length := by
  obtain ⟨gaps, rest, rfl, hgaps, hstop⟩ := gap_run s
  rw [hgaps.gapLength, hstop, List.length_append]
  exact Nat.add_le_add_left (Nat.zero_le _) _

theorem gap_stable : (⟨.space, gap⟩ : Rule).Stable := by
  intro p r hp _ hr
  simp only [gap, gapLength_append hp hr.gap, whole_append (gapLength_le p)]

/-! ### Spellings -/

theorem spelling_sound {kind : Kind} {texts : List Bytes} (ht : ∀ t ∈ texts, Lexable t) :
    (⟨kind, spelling texts⟩ : Rule).Sound := by
  intro s cut h
  simp only [spelling] at h
  split at h
  · rename_i text hfind
    have hprefix : text <+: s := by
      have := List.find?_some hfind
      exact List.isPrefixOf_iff_prefix.mp this
    refine readable_of_whole h hprefix.length_le ?_
    rw [← List.prefix_iff_eq_take.mp hprefix]
    exact ht text (List.mem_of_find?_eq_some hfind)
  · cases h

/-- Whether a text is spelled in front does not depend on what follows. -/
def Firm (t : Bytes) : Prop :=
  ∀ p r, Lexable p → p ≠ [] → Halts r → t.isPrefixOf (p ++ r) = t.isPrefixOf p

theorem isPrefixOf_append {t p : Bytes} (h : t.length ≤ p.length) (r : Bytes) :
    t.isPrefixOf (p ++ r) = t.isPrefixOf p := by
  rw [Bool.eq_iff_iff, List.isPrefixOf_iff_prefix, List.isPrefixOf_iff_prefix]
  exact ⟨fun ht => List.prefix_of_prefix_length_le ht (List.prefix_append p r) h,
    fun ht => ht.trans (List.prefix_append p r)⟩

theorem isPrefixOf_word {t : Bytes} (ht : ∀ b ∈ t, Ascii.isWord b = true) {r : Bytes}
    (hr : Halts r) (p : Bytes) : t.isPrefixOf (p ++ r) = t.isPrefixOf p := by
  induction t generalizing p with
  | nil => exact isPrefixOf_append (Nat.zero_le _) r
  | cons b t ih =>
      cases p with
      | cons c p =>
          rw [List.cons_append, List.isPrefixOf_cons_cons, List.isPrefixOf_cons_cons,
            ih (fun x hx => ht x (List.mem_cons_of_mem b hx))]
      | nil =>
          cases r with
          | nil => rfl
          | cons c r =>
              have hne : b ≠ c := by
                rintro rfl
                have := hr b rfl
                rw [ht b (by simp)] at this
                cases this
              rw [List.nil_append, List.isPrefixOf_cons_cons, beq_false_of_ne hne]
              rfl

theorem firm_of_word {t : Bytes} (ht : ∀ b ∈ t, Ascii.isWord b = true) : Firm t :=
  fun p _ _ _ hr => isPrefixOf_word ht hr p

theorem firm_of_byte (b : UInt8) : Firm [b] := by
  intro p r _ hne _
  have hlen : [b].length ≤ p.length := List.length_pos_iff.mpr hne
  exact isPrefixOf_append hlen r

theorem Lexable.atomLength? {b : UInt8} {s : Bytes} (h : Lexable (b :: s)) :
    ∃ n, atomLength? (b :: s) = some n := by
  generalize hs : b :: s = t at h
  cases h with
  | nil => cases hs
  | cons ha _ => exact ⟨_, ha.atomLength? _⟩

/-- A lone half of an arrow is not readable. -/
theorem firm_arrow : Firm (.ofString "<-") := by
  intro p r hp hne _
  match p with
  | [] => exact absurd rfl hne
  | b :: c :: p => exact isPrefixOf_append (Nat.le_add_left 2 _) r
  | [b] =>
      have hb : b ≠ '<'.toUInt8 := by
        rintro rfl
        obtain ⟨n, hn⟩ := hp.atomLength?
        cases hn
      have htext : Bytes.ofString "<-" = ['<'.toUInt8, '-'.toUInt8] := rfl
      rw [htext, List.cons_append, List.isPrefixOf_cons_cons, List.isPrefixOf_cons_cons,
        beq_false_of_ne hb.symm]
      rfl

theorem spelling_stable {kind : Kind} {texts : List Bytes} (ht : ∀ t ∈ texts, Firm t) :
    (⟨kind, spelling texts⟩ : Rule).Stable := by
  intro p r hp hne hr
  have hfind : texts.find? (·.isPrefixOf (p ++ r)) = texts.find? (·.isPrefixOf p) := by
    induction texts with
    | nil => rfl
    | cons t texts ih =>
        rw [List.find?_cons, List.find?_cons, ht t (by simp) p r hp hne hr.halts,
          ih fun u hu => ht u (List.mem_cons_of_mem t hu)]
  simp only [spelling, hfind]
  split
  · rename_i text htext
    have hprefix := List.find?_some htext
    exact whole_append (List.isPrefixOf_iff_prefix.mp hprefix).length_le r
  · rfl

/-- A keyword, a mark or the arrow. -/
def isPlain (t : Bytes) : Bool :=
  t.all Ascii.isWord || (t.length == 1 && t.all marks.contains) || t == .ofString "<-"

theorem plain_lexable_firm {t : Bytes} (h : isPlain t = true) : Lexable t ∧ Firm t := by
  simp only [isPlain, Bool.or_eq_true, Bool.and_eq_true, List.all_eq_true, beq_iff_eq] at h
  rcases h with (hword | ⟨hlen, hmark⟩) | rfl
  · exact ⟨lexable_of_words hword, firm_of_word hword⟩
  · obtain ⟨b, rfl⟩ := List.length_eq_one_iff.mp hlen
    have hb : b ∈ marks := by simpa using hmark
    exact ⟨(Atom.mark hb).lexable, firm_of_byte b⟩
  · exact ⟨Atom.arrow.lexable, firm_arrow⟩

theorem spellings_regular {kind : Kind} {texts : List String}
    (h : ∀ t ∈ texts, isPlain (.ofString t) = true) :
    (⟨kind, spellings texts⟩ : Rule).Sound ∧ (⟨kind, spellings texts⟩ : Rule).Stable := by
  constructor
  · apply spelling_sound
    intro t ht
    obtain ⟨u, hu, rfl⟩ := List.mem_map.mp ht
    exact (plain_lexable_firm (h u hu)).1
  · apply spelling_stable
    intro t ht
    obtain ⟨u, hu, rfl⟩ := List.mem_map.mp ht
    exact (plain_lexable_firm (h u hu)).2

/-! ### Quotations -/

theorem mem_quotes (b : UInt8) :
    (b == '"'.toUInt8 || b == '\''.toUInt8) = true ↔ b ∈ quotes := by
  simp [quotes, show Bytes.ofString "\"'" = ['"'.toUInt8, '\''.toUInt8] from rfl]

theorem quotation_of_quote {quote : UInt8} (h : quote ∈ quotes) (s : Bytes) :
    quotation (quote :: s) = (closing? quote s).map fun n => ⟨n + 1, s.take (n - 1)⟩ := by
  simp only [quotation, (mem_quotes quote).mpr h, if_true]

theorem quotation_of_not_quote {b : UInt8} (h : b ∉ quotes) (s : Bytes) :
    quotation (b :: s) = none := by
  simp only [quotation, mt (mem_quotes b).mp h, Bool.false_eq_true, if_false]

theorem quotation_body {quote : UInt8} (hq : quote ∈ quotes) {body : Bytes}
    (hbody : Body quote body) (rest : Bytes) :
    quotation (quote :: (body ++ quote :: rest)) = some ⟨body.length + 2, body⟩ := by
  obtain ⟨-, -, -, -, hslash⟩ := quote_class quote hq
  rw [quotation_of_quote hq, closing?_body hslash hbody]
  simp

theorem quotation_sound : (⟨.quoted, quotation⟩ : Rule).Sound := by
  intro s cut h
  cases s with
  | nil => cases h
  | cons quote s =>
      by_cases hq : quote ∈ quotes
      · change quotation (quote :: s) = some cut at h
        rw [quotation_of_quote hq] at h
        obtain ⟨n, hn, rfl⟩ := Option.map_eq_some_iff.mp h
        obtain ⟨body, rest, rfl, hbody, rfl⟩ := body_of_closing? hn
        refine ⟨quote :: (body ++ [quote]), rest, by simp, by simp, List.cons_ne_nil _ _, ?_⟩
        exact (Atom.quoted hq hbody).lexable
      · change quotation (quote :: s) = some cut at h
        rw [quotation_of_not_quote hq] at h
        cases h

/-- A readable text that starts with a quote holds the quote that closes it. -/
theorem Lexable.body {quote : UInt8} (hq : quote ∈ quotes) {s : Bytes}
    (h : Lexable (quote :: s)) : ∃ body rest, s = body ++ quote :: rest ∧ Body quote body := by
  obtain ⟨n, hn⟩ := h.atomLength?
  rw [atomLength?_quote hq] at hn
  obtain ⟨m, hm, -⟩ := Option.map_eq_some_iff.mp hn
  obtain ⟨body, rest, hs, hbody, -⟩ := body_of_closing? hm
  exact ⟨body, rest, hs, hbody⟩

theorem quotation_stable : (⟨.quoted, quotation⟩ : Rule).Stable := by
  intro p r hp hne _
  cases p with
  | nil => exact absurd rfl hne
  | cons quote p =>
      change quotation (quote :: (p ++ r)) = quotation (quote :: p)
      by_cases hq : quote ∈ quotes
      · obtain ⟨body, rest, rfl, hbody⟩ := hp.body hq
        rw [List.append_assoc, List.cons_append, quotation_body hq hbody, quotation_body hq hbody]
      · rw [quotation_of_not_quote hq, quotation_of_not_quote hq]

/-! ### Words, digits and registers -/

theorem Halts.stops {inClass : UInt8 → Bool}
    (hclass : ∀ b, inClass b = true → Ascii.isWord b = true) {r : Bytes} (h : Halts r) :
    ∀ b ∈ r.head?, inClass b = false := by
  intro b hb
  cases hin : inClass b with
  | false => rfl
  | true =>
      rw [← h b hb]
      exact (hclass b hin).symm

section Words

variable {kind : Kind} {letter : Char} {inClass : UInt8 → Bool}
  (hclass : ∀ b, inClass b = true → Ascii.isWord b = true)
  (hletter : ∀ b, Ascii.isLetterOf letter b = true → Ascii.isWord b = true)

include hclass

theorem takeWhile_words (s : Bytes) : ∀ b ∈ s.takeWhile inClass, Ascii.isWord b = true :=
  fun b hb => hclass b (List.mem_takeWhile_imp hb)

theorem run_sound : (⟨kind, run inClass⟩ : Rule).Sound := by
  intro s cut h
  have hs : s.take (s.takeWhile inClass).length = s.takeWhile inClass :=
    (List.prefix_iff_eq_take.mp (List.takeWhile_prefix inClass)).symm
  refine readable_of_whole h (List.takeWhile_prefix inClass).length_le ?_
  rw [hs]
  exact lexable_of_words (takeWhile_words hclass s)

theorem run_stable : (⟨kind, run inClass⟩ : Rule).Stable := by
  intro p r _ _ hr
  simp only [run, takeWhile_append_of_stop p (Halts.stops hclass hr.halts)]
  exact whole_append (List.takeWhile_prefix inClass).length_le r

include hletter

theorem marked_sound : (⟨kind, marked letter inClass⟩ : Rule).Sound := by
  intro s cut h
  match s with
  | [] => cases h
  | [_] => cases h
  | zero :: mark :: rest =>
      simp only [marked] at h
      split at h
      · rename_i hcond
        cases h
        simp only [Bool.and_eq_true, beq_iff_eq] at hcond
        obtain ⟨⟨rfl, hmark⟩, -⟩ := hcond
        have hw : ∀ b ∈ '0'.toUInt8 :: mark :: rest.takeWhile inClass, Ascii.isWord b = true := by
          simp only [List.forall_mem_cons]
          exact ⟨by decide, hletter mark hmark, takeWhile_words hclass rest⟩
        have hs : '0'.toUInt8 :: mark :: rest =
            '0'.toUInt8 :: mark :: rest.takeWhile inClass ++ rest.dropWhile inClass := by
          rw [List.cons_append, List.cons_append, List.takeWhile_append_dropWhile]
        rw [hs]
        exact readable_of_words hw (List.cons_ne_nil _ _) rfl
      · cases h

theorem marked_stable : (⟨kind, marked letter inClass⟩ : Rule).Stable := by
  intro p r _ hne hr
  match p with
  | [] => exact absurd rfl hne
  | zero :: mark :: rest =>
      simp only [List.cons_append, marked, takeWhile_append_of_stop rest (Halts.stops hclass hr.halts)]
  | [zero] =>
      cases r with
      | nil => rfl
      | cons b r => simp [marked, Halts.stops hletter hr.halts b rfl]

theorem closed_sound : (⟨kind, closed letter inClass⟩ : Rule).Sound := by
  intro s cut h
  simp only [closed, drop_takeWhile_length] at h
  split at h
  · rename_i last rest hdrop
    split at h
    · rename_i hcond
      cases h
      simp only [Bool.and_eq_true] at hcond
      have hw : ∀ b ∈ s.takeWhile inClass ++ [last], Ascii.isWord b = true := by
        intro b hb
        rcases List.mem_append.mp hb with hb | hb
        · exact takeWhile_words hclass s b hb
        · rw [List.mem_singleton.mp hb]
          exact hletter last hcond.1
      have hs : s = s.takeWhile inClass ++ [last] ++ rest := by
        rw [List.append_assoc, List.singleton_append, ← hdrop, List.takeWhile_append_dropWhile]
      have hne : s.takeWhile inClass ++ [last] ≠ [] := by simp
      exact ⟨_, rest, hs, List.length_append, hne, lexable_of_words hw⟩
    · cases h
  · cases h

theorem closed_stable : (⟨kind, closed letter inClass⟩ : Rule).Stable := by
  intro p r _ _ hr
  simp only [closed, drop_takeWhile_length]
  rw [takeWhile_append_of_stop p (Halts.stops hclass hr.halts)]
  cases hdrop : p.dropWhile inClass with
  | cons last rest =>
      rw [List.dropWhile_append, hdrop]
      rfl
  | nil =>
      rw [List.dropWhile_append, hdrop]
      cases r with
      | nil => rfl
      | cons b r =>
          have hstop : inClass b = false := Halts.stops hclass hr.halts b rfl
          simp [hstop, Halts.stops hletter hr.halts b rfl]

end Words

theorem digit_word : ∀ b, Ascii.isDigit b = true → Ascii.isWord b = true := by
  refine forall_byte ?_
  decide +kernel

/-- The letters that rules ask for in either case. -/
def letters : List Char := ['r', 'p', 'c', 'l', 'x', 'h', 'b']

theorem letter_word : ∀ letter ∈ letters, ∀ b,
    Ascii.isLetterOf letter b = true → Ascii.isWord b = true := by
  simp only [letters, List.forall_mem_cons]
  refine ⟨?_, ?_, ?_, ?_, ?_, ?_, ?_, by simp⟩
  all_goals
    refine forall_byte ?_
    decide +kernel

/-- The digit that may follow the first digit of a register. -/
def secondDigit (rest : Bytes) : Bytes := (rest.take 1).takeWhile Ascii.isDigit

theorem secondDigit_append {r : Bytes} (hr : Halts r) (rest : Bytes) :
    secondDigit (rest ++ r) = secondDigit rest := by
  cases rest with
  | cons b rest => rfl
  | nil =>
      cases r with
      | nil => rfl
      | cons b r =>
          have hb : Ascii.isDigit b = false := Halts.stops digit_word hr b rfl
          simp [secondDigit, hb]

theorem secondDigit_leads (rest : Bytes) : secondDigit rest <+: rest :=
  (List.takeWhile_prefix _).trans (List.take_prefix 1 rest)

theorem readable_of_letters {x y : Char} (hx : x ∈ letters) (hy : y ∈ letters)
    {first second : UInt8} {rest : Bytes} {cut : Cut}
    (hletters : (Ascii.isLetterOf x first && Ascii.isLetterOf y second) = true)
    (h : whole (first :: second :: rest) 2 = some cut) : Readable (first :: second :: rest) cut := by
  simp only [Bool.and_eq_true] at hletters
  have hw : ∀ b ∈ [first, second], Ascii.isWord b = true := by
    simp only [List.forall_mem_cons]
    exact ⟨letter_word x hx first hletters.1, letter_word y hy second hletters.2, by simp⟩
  exact readable_of_whole_words rfl hw h

theorem register_sound : (⟨.register, registerName⟩ : Rule).Sound := by
  intro s cut h
  match s with
  | [] => cases h
  | [_] => cases h
  | first :: second :: rest =>
      simp only [registerName] at h
      split at h
      · rename_i hcond
        simp only [Bool.and_eq_true] at hcond
        obtain ⟨after, hafter⟩ := secondDigit_leads rest
        have hs : first :: second :: rest = first :: second :: secondDigit rest ++ after := by
          rw [List.cons_append, List.cons_append, hafter]
        have hlen : (first :: second :: secondDigit rest).length = 2 + (secondDigit rest).length := by
          simp only [List.length_cons]
          omega
        refine readable_of_whole_words hs ?_ (hlen ▸ h)
        simp only [List.forall_mem_cons]
        exact ⟨letter_word 'r' (by decide) first hcond.1, digit_word second hcond.2,
          takeWhile_words digit_word _⟩
      · split at h
        · rename_i hcond
          exact readable_of_letters (by decide) (by decide) hcond h
        · split at h
          · rename_i hcond
            exact readable_of_letters (by decide) (by decide) hcond h
          · cases h

theorem register_stable : (⟨.register, registerName⟩ : Rule).Stable := by
  intro p r _ hne hr
  match p with
  | [] => exact absurd rfl hne
  | [first] =>
      cases r with
      | nil => rfl
      | cons b r =>
          have hdigit : Ascii.isDigit b = false := Halts.stops digit_word hr.halts b rfl
          have hletter : ∀ letter ∈ letters, Ascii.isLetterOf letter b = false :=
            fun letter hmem => Halts.stops (letter_word letter hmem) hr.halts b rfl
          simp [registerName, hdigit, hletter 'c' (by decide), hletter 'r' (by decide)]
  | first :: second :: rest =>
      have hlen : 2 + (secondDigit rest).length ≤ (first :: second :: rest).length := by
        have := (secondDigit_leads rest).length_le
        simp only [List.length_cons]
        omega
      have htwo : 2 ≤ (first :: second :: rest).length := Nat.le_add_left 2 _
      have hdigit := secondDigit_append hr.halts rest
      have e1 := whole_append hlen r
      have e2 := whole_append htwo r
      simp only [secondDigit, List.cons_append] at hdigit e1 e2
      simp only [List.cons_append, registerName, hdigit, e1, e2]

/-! ### The rules together -/

theorem hex_word : ∀ b, hexDigit b = true → Ascii.isWord b = true := by
  refine forall_byte ?_
  decide +kernel

theorem binary_word : ∀ b, binaryDigit b = true → Ascii.isWord b = true := by
  refine forall_byte ?_
  decide +kernel

theorem rules_regular : ∀ rule ∈ rules, rule.Sound ∧ rule.Stable := by
  have hx := letter_word 'x' (by decide)
  have hh := letter_word 'h' (by decide)
  have hb := letter_word 'b' (by decide)
  simp only [rules, List.forall_mem_cons]
  refine ⟨⟨gap_sound, gap_stable⟩, spellings_regular ?_, spellings_regular ?_, spellings_regular ?_,
    spellings_regular ?_, spellings_regular ?_, spellings_regular ?_, spellings_regular ?_,
    spellings_regular ?_, spellings_regular ?_, ⟨quotation_sound, quotation_stable⟩,
    ⟨marked_sound hex_word hx, marked_stable hex_word hx⟩,
    ⟨closed_sound hex_word hh, closed_stable hex_word hh⟩,
    ⟨marked_sound binary_word hb, marked_stable binary_word hb⟩,
    ⟨closed_sound binary_word hb, closed_stable binary_word hb⟩,
    ⟨run_sound digit_word, run_stable digit_word⟩, ⟨register_sound, register_stable⟩,
    ⟨run_sound fun _ h => h, run_stable fun _ h => h⟩, by simp⟩
  all_goals decide

theorem first?_rule {s : Bytes} {kind : Kind} {cut : Cut} (h : first? s = some (kind, cut)) :
    ∃ rule ∈ rules, rule.kind = kind ∧ rule.cut? s = some cut := by
  obtain ⟨rule, hr, hcut⟩ := List.exists_of_findSome?_eq_some h
  obtain ⟨cut', hcut', heq⟩ := Option.map_eq_some_iff.mp hcut
  cases heq
  exact ⟨rule, hr, rfl, hcut'⟩

theorem first?_readable {s : Bytes} {kind : Kind} {cut : Cut} (h : first? s = some (kind, cut)) :
    Readable s cut := by
  obtain ⟨rule, hr, -, hcut⟩ := first?_rule h
  exact (rules_regular rule hr).1 s cut hcut

/-- Where all rules of a kind cut alike, so does the scanner. -/
theorem first?_of_kind {kind : Kind} {cutting : Bytes → Option Cut} {s : Bytes} {cut : Cut}
    (honly : ∀ rule ∈ rules, rule.kind = kind → rule.cut? = cutting)
    (h : first? s = some (kind, cut)) : cutting s = some cut := by
  obtain ⟨rule, hr, hkind, hcut⟩ := first?_rule h
  rwa [honly rule hr hkind] at hcut

theorem first?_run {s : Bytes} {cut : Cut} (h : first? s = some (.word, cut)) :
    run Ascii.isWord s = some cut :=
  first?_of_kind (by simp [rules]) h

/-- Words are their own values. -/
theorem first?_word {s : Bytes} {cut : Cut} (h : first? s = some (.word, cut)) :
    cut.value = s.take cut.length := by
  obtain ⟨-, rfl⟩ := whole_eq_some.mp (first?_run h)
  rfl

theorem first?_word_bytes {s : Bytes} {cut : Cut} (h : first? s = some (.word, cut)) :
    ∀ b ∈ cut.value, Ascii.isWord b = true := by
  obtain ⟨-, rfl⟩ := whole_eq_some.mp (first?_run h)
  rw [← List.prefix_iff_eq_take.mp (List.takeWhile_prefix Ascii.isWord)]
  exact fun b hb => List.mem_takeWhile_imp hb

theorem first?_colon {s : Bytes} {cut : Cut} (h : first? s = some (.colon, cut)) :
    cut.value = [':'.toUInt8] := by
  have hcut : spellings [":"] s = some cut := first?_of_kind (by simp [rules]) h
  simp only [spellings, spelling] at hcut
  split at hcut
  · rename_i text hfind
    obtain ⟨-, rfl⟩ := whole_eq_some.mp hcut
    have hleads : text <+: s := by
      have hprefix := List.find?_some hfind
      exact List.isPrefixOf_iff_prefix.mp hprefix
    rw [← List.prefix_iff_eq_take.mp hleads]
    exact List.mem_singleton.mp (List.mem_of_find?_eq_some hfind)
  · cases hcut

/-- What follows a readable text does not change how it is cut. -/
theorem first?_append {p r : Bytes} (hp : Lexable p) (hne : p ≠ []) (hr : Parted p r) :
    first? (p ++ r) = first? p := by
  have hrules : ∀ rule ∈ rules, rule.cut? (p ++ r) = rule.cut? p :=
    fun rule hrule => (rules_regular rule hrule).2 p r hp hne hr
  unfold first?
  generalize rules = list at hrules
  induction list with
  | nil => rfl
  | cons rule list ih =>
      rw [List.findSome?_cons, List.findSome?_cons, hrules rule (by simp),
        ih fun other h => hrules other (List.mem_cons_of_mem rule h)]

/-- What a rule takes off a text counts if no rule before it takes anything off. -/
theorem first?_of_split {before after : List Rule} {rule : Rule}
    (hrules : rules = before ++ rule :: after) {s : Bytes}
    (hothers : before.findSome? (fun other => (other.cut? s).map (other.kind, ·)) = none) {cut : Cut}
    (h : rule.cut? s = some cut) : first? s = some (rule.kind, cut) := by
  rw [first?, hrules, List.findSome?_append, hothers, List.findSome?_cons, h]
  rfl

theorem first?_of_rule {rule : Rule} (hr : rule ∈ rules) {s : Bytes} {cut : Cut}
    (h : rule.cut? s = some cut) : ∃ kind cut, first? s = some (kind, cut) := by
  cases hfirst : first? s with
  | some found => exact ⟨found.1, found.2, rfl⟩
  | none =>
      have hnone := List.findSome?_eq_none_iff.mp hfirst rule hr
      rw [h] at hnone
      cases hnone

theorem first?_of_mark : ∀ b ∈ marks, ∀ rest, ∃ kind cut, first? (b :: rest) = some (kind, cut) := by
  have hmarks : marks = [40, 41, 91, 93, 44, 58, 38, 124, 42, 94, 43, 45] := rfl
  rw [hmarks]
  simp only [List.forall_mem_cons]
  refine ⟨?_, ?_, ?_, ?_, ?_, ?_, ?_, ?_, ?_, ?_, ?_, ?_, by simp⟩
  all_goals exact fun rest => ⟨_, _, rfl⟩

/-- A gap is cut off as a whole. -/
theorem first?_gaps {g r : Bytes} (hg : Gaps g) (hne : g ≠ []) (hr : gapLength 0 r = 0) :
    first? (g ++ r) = some (.space, ⟨g.length, g⟩) := by
  have hcut : gap (g ++ r) = some ⟨g.length, g⟩ := by
    rw [gap_eq hg hr, whole_eq_some, List.take_left]
    exact ⟨mt List.length_eq_zero_iff.mp hne, rfl⟩
  simp only [first?, rules, List.findSome?_cons, hcut, Option.map_some]

theorem first?_of_atom {a : Bytes} (h : Atom a) (rest : Bytes) :
    ∃ kind cut, first? (a ++ rest) = some (kind, cut) := by
  cases h with
  | @gap c hc =>
      have hpos := List.length_pos_iff.mpr (Atom.gap hc).ne_nil
      have hlen : gapLength 0 (Rune.encode c ++ rest) ≠ 0 := by
        rw [gapLength_encode hc]
        omega
      have hcut : gap (Rune.encode c ++ rest) = some ⟨_, _⟩ := whole_eq_some.mpr ⟨hlen, rfl⟩
      exact first?_of_rule (List.mem_cons_self ..) hcut
  | @word b hb =>
      have hcut : run Ascii.isWord (b :: rest) = some ⟨_, _⟩ :=
        whole_eq_some.mpr ⟨by simp [hb], rfl⟩
      have hmem : (⟨.word, run Ascii.isWord⟩ : Rule) ∈ rules := by simp [rules]
      exact first?_of_rule hmem hcut
  | mark hb => exact first?_of_mark _ hb rest
  | arrow => exact ⟨_, _, rfl⟩
  | @quoted quote body hq hbody =>
      have hcut := quotation_body hq hbody rest
      have hmem : (⟨.quoted, quotation⟩ : Rule) ∈ rules := by simp [rules]
      rw [List.cons_append, List.append_assoc]
      exact first?_of_rule hmem hcut

theorem inert_of_first?_none {r : Bytes} (h : first? r = none) : Inert r := by
  cases r with
  | nil => trivial
  | cons b rest =>
      have hnone : ∀ {a after : Bytes}, Atom a → b :: rest ≠ a ++ after := by
        intro a after ha heq
        obtain ⟨kind, cut, hcut⟩ := first?_of_atom ha after
        rw [← heq, h] at hcut
        cases hcut
      constructor
      · rw [← Bool.not_eq_true]
        intro hword
        exact hnone (.word hword) rfl
      · rw [← Bool.not_eq_true]
        intro hgap
        obtain ⟨c, after, hc, hs⟩ := exists_of_gap hgap
        exact hnone (.gap hc) hs

/-- A nonempty readable text has a cut. -/
theorem Lexable.eq_nil_of_first? {p r : Bytes} (hp : Lexable p) (h : first? (p ++ r) = none) :
    p = [] := by
  cases hp with
  | nil => rfl
  | @cons atom rest ha _ =>
      obtain ⟨kind, cut, hcut⟩ := first?_of_atom ha (rest ++ r)
      rw [List.append_assoc, hcut] at h
      cases h

end AsmAssist.Lexeme
