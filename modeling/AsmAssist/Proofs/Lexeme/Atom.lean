import AsmAssist.Token.Lexeme
import AsmAssist.Proofs.Rune

/- The texts that lexemes are made of, without any regard to how words are cut: atoms and their
   concatenations. No atom leads another one, so a text has one reading as atoms, and what follows a
   readable text in a readable text is readable too. -/

namespace AsmAssist.Lexeme

/-- The inside of a quotation: a backslash takes the byte after it along, and no other byte is the
    quote. -/
inductive Body (quote : UInt8) : Bytes → Prop
  | nil : Body quote []
  | plain {b : UInt8} {rest : Bytes} : b ≠ quote → b ≠ '\\'.toUInt8 → Body quote rest →
      Body quote (b :: rest)
  | escaped {b : UInt8} {rest : Bytes} : Body quote rest → Body quote ('\\'.toUInt8 :: b :: rest)

def marks : Bytes := .ofString "()[],:&|*^+-"

def quotes : Bytes := .ofString "\"'"

/-- A gap character, a character of a word, a mark, an arrow, or a quotation up to its first quote
    that no backslash takes along. -/
inductive Atom : Bytes → Prop
  | gap {c : Char} : Blank.isGap c = true → Atom (Rune.encode c)
  | word {b : UInt8} : Ascii.isWord b = true → Atom [b]
  | mark {b : UInt8} : b ∈ marks → Atom [b]
  | arrow : Atom (.ofString "<-")
  | quoted {quote : UInt8} {body : Bytes} : quote ∈ quotes → Body quote body →
      Atom (quote :: (body ++ [quote]))

inductive Lexable : Bytes → Prop
  | nil : Lexable []
  | cons {atom rest : Bytes} : Atom atom → Lexable rest → Lexable (atom ++ rest)

/-- A run of gap characters. -/
inductive Gaps : Bytes → Prop
  | nil : Gaps []
  | cons {c : Char} {rest : Bytes} : Blank.isGap c = true → Gaps rest →
      Gaps (Rune.encode c ++ rest)

/-- A property of bytes can be checked value by value. -/
theorem forall_byte {P : UInt8 → Prop} (h : ∀ n < 256, P (UInt8.ofNat n)) (b : UInt8) : P b := by
  have hb := h b.toNat b.toNat_lt
  rwa [UInt8.ofNat_toNat] at hb

/-- An ASCII byte that is no gap. -/
def Solid (b : UInt8) : Prop := b.toNat < 128 ∧ Blank.isGap (Char.ofNat b.toNat) = false

instance : DecidablePred Solid := fun _ => inferInstanceAs (Decidable (_ ∧ _))

theorem Solid.lead {b : UInt8} (h : Solid b) (rest : Bytes) :
    Blank.isGap (Rune.lead b rest).1 = false := by
  rw [Rune.lead_one h.1]
  exact h.2

theorem word_solid : ∀ b : UInt8, Ascii.isWord b = true → Solid b := by
  refine forall_byte ?_
  decide +kernel

/-- The classes of first bytes are disjoint. -/
theorem mark_class : ∀ b : UInt8, b ∈ marks → Solid b ∧ Ascii.isWord b = false := by
  refine forall_byte ?_
  decide +kernel

theorem quote_class : ∀ b : UInt8, b ∈ quotes → Solid b ∧ Ascii.isWord b = false ∧
    b ∉ marks ∧ b ≠ '<'.toUInt8 ∧ b ≠ '\\'.toUInt8 := by
  refine forall_byte ?_
  decide +kernel

theorem closing?_quote {quote : UInt8} (hq : quote ≠ '\\'.toUInt8) (rest : Bytes) :
    closing? quote (quote :: rest) = some 1 := by
  cases rest <;> simp [closing?, hq]

theorem closing?_plain {quote b : UInt8} (hq : b ≠ quote) (hslash : b ≠ '\\'.toUInt8)
    (rest : Bytes) : closing? quote (b :: rest) = (closing? quote rest).map (· + 1) := by
  cases rest <;> simp [closing?, hq, hslash]

theorem closing?_body {quote : UInt8} (hq : quote ≠ '\\'.toUInt8) {body : Bytes}
    (h : Body quote body) (rest : Bytes) :
    closing? quote (body ++ quote :: rest) = some (body.length + 1) := by
  induction h with
  | nil => exact closing?_quote hq rest
  | plain hne hslash _ ih => rw [List.cons_append, closing?_plain hne hslash, ih]; rfl
  | escaped _ ih => simp [closing?, ih]

theorem body_of_closing? {quote : UInt8} {s : Bytes} {n : Nat} (h : closing? quote s = some n) :
    ∃ body rest, s = body ++ quote :: rest ∧ Body quote body ∧ n = body.length + 1 := by
  fun_induction closing? quote s generalizing n with
  | case1 => cases h
  | case2 => cases h
  | case3 b hslash b' rest ih =>
      obtain ⟨m, hm, rfl⟩ := Option.map_eq_some_iff.mp h
      obtain ⟨body, rest, rfl, hbody, rfl⟩ := ih hm
      rw [eq_of_beq hslash]
      exact ⟨_ :: b' :: body, rest, rfl, .escaped hbody, rfl⟩
  | case4 b rest hslash hquote =>
      cases h
      rw [eq_of_beq hquote]
      exact ⟨[], rest, rfl, .nil, rfl⟩
  | case5 b rest hslash hquote ih =>
      obtain ⟨m, hm, rfl⟩ := Option.map_eq_some_iff.mp h
      obtain ⟨body, rest, rfl, hbody, rfl⟩ := ih hm
      exact ⟨b :: body, rest, rfl, .plain (by simpa using hquote) (by simpa using hslash) hbody, rfl⟩

/-- Length of the atom that a text starts with. -/
def atomLength? : Bytes → Option Nat
  | [] => none
  | b :: rest =>
      if Blank.isGap (Rune.lead b rest).1 then some ((Rune.lead b rest).2 + 1)
      else if Ascii.isWord b || marks.contains b then some 1
      else if b == '<'.toUInt8 then (if rest.head? == some '-'.toUInt8 then some 2 else none)
      else if quotes.contains b then (closing? b rest).map (· + 1)
      else none

theorem atomLength?_quote {quote : UInt8} (h : quote ∈ quotes) (rest : Bytes) :
    atomLength? (quote :: rest) = (closing? quote rest).map (· + 1) := by
  obtain ⟨hsolid, hword, hmark, hless, -⟩ := quote_class quote h
  simp [atomLength?, hsolid.lead, hword, hmark, hless, h]

theorem Atom.atomLength? {a : Bytes} (h : Atom a) (rest : Bytes) :
    atomLength? (a ++ rest) = some a.length := by
  cases h with
  | @gap c hc =>
      obtain ⟨b, tail, henc, hlead⟩ := Rune.lead_encode c
      rw [henc, List.cons_append, Lexeme.atomLength?, hlead rest, if_pos hc, List.length_cons]
  | @word b hb => simp [Lexeme.atomLength?, (word_solid b hb).lead rest, hb]
  | @mark b hb => simp [Lexeme.atomLength?, (mark_class b hb).1.lead rest, hb]
  | arrow => rfl
  | @quoted quote body hq hbody =>
      obtain ⟨-, -, -, -, hslash⟩ := quote_class quote hq
      rw [List.cons_append, List.append_assoc, List.singleton_append, atomLength?_quote hq,
        closing?_body hslash hbody rest]
      simp

theorem Atom.unique {a b x y : Bytes} (ha : Atom a) (hb : Atom b) (h : a ++ x = b ++ y) :
    a = b ∧ x = y := by
  have hlen : a.length = b.length := by
    have hx := ha.atomLength? x
    rw [h, hb.atomLength? y] at hx
    exact (Option.some.inj hx).symm
  exact List.append_inj h hlen

theorem Atom.ne_nil {a : Bytes} (h : Atom a) : a ≠ [] := by
  cases h with
  | @gap c hc =>
      obtain ⟨b, tail, henc, -⟩ := Rune.lead_encode c
      rw [henc]
      exact List.cons_ne_nil _ _
  | word | mark | arrow | quoted => exact List.cons_ne_nil _ _

theorem Atom.gap_or_solid {a : Bytes} (h : Atom a) :
    (∃ c, Blank.isGap c = true ∧ a = Rune.encode c) ∨ ∃ b tail, Solid b ∧ a = b :: tail := by
  cases h with
  | @gap c hc => exact .inl ⟨c, hc, rfl⟩
  | @word b hb => exact .inr ⟨b, [], word_solid b hb, rfl⟩
  | @mark b hb => exact .inr ⟨b, [], (mark_class b hb).1, rfl⟩
  | arrow => exact .inr ⟨'<'.toUInt8, ['-'.toUInt8], by decide, rfl⟩
  | @quoted quote body hq _ => exact .inr ⟨quote, _, (quote_class quote hq).1, rfl⟩

theorem Lexable.append {p q : Bytes} (hp : Lexable p) (hq : Lexable q) : Lexable (p ++ q) := by
  induction hp with
  | nil => exact hq
  | cons ha _ ih =>
      rw [List.append_assoc]
      exact .cons ha ih

theorem Atom.lexable {a : Bytes} (h : Atom a) : Lexable a := by
  have := Lexable.cons h .nil
  rwa [List.append_nil] at this

theorem Gaps.lexable {g : Bytes} (h : Gaps g) : Lexable g := by
  induction h with
  | nil => exact .nil
  | cons hc _ ih => exact .cons (.gap hc) ih

theorem Gaps.append {g g' : Bytes} (h : Gaps g) (h' : Gaps g') : Gaps (g ++ g') := by
  induction h with
  | nil => exact h'
  | cons hc _ ih =>
      rw [List.append_assoc]
      exact .cons hc ih

theorem lexable_of_words {w : Bytes} (h : ∀ b ∈ w, Ascii.isWord b = true) : Lexable w := by
  induction w with
  | nil => exact .nil
  | cons b w ih =>
      exact .cons (Atom.word (h b (by simp))) (ih fun c hc => h c (List.mem_cons_of_mem b hc))

/-- What follows a readable text in a readable text is readable. -/
theorem Lexable.cancel {p r : Bytes} (hp : Lexable p) (h : Lexable (p ++ r)) : Lexable r := by
  induction hp with
  | nil => exact h
  | @cons atom rest ha _ ih =>
      apply ih
      rw [List.append_assoc] at h
      generalize hs : atom ++ (rest ++ r) = s at h
      cases h with
      | nil => exact absurd (List.append_eq_nil_iff.mp hs).1 ha.ne_nil
      | cons hb hrest =>
          rw [(ha.unique hb hs).2]
          exact hrest

/-- An atom that ends in the byte of a gap is that byte: the other atoms end in a byte of a word, a
    mark or a quote, and a longer character ends in a tail byte. -/
theorem Atom.eq_nil_of_gap_end {p : Bytes} {b : UInt8} (hb : b.toNat < 128)
    (hgap : Blank.isGap (Char.ofNat b.toNat) = true) (h : Atom (p ++ [b])) : p = [] := by
  have hsolid : ∀ {x : UInt8}, x = b → ¬ Solid x := by
    rintro x rfl hx
    rw [hx.2] at hgap
    cases hgap
  generalize hs : p ++ [b] = s at h
  cases h with
  | @gap c hc =>
      cases p with
      | nil => rfl
      | cons x p =>
          have htail := Rune.isTail_of_encode hs.symm b (List.mem_append_right p (by simp))
          have := Rune.isTail_iff.mp htail
          omega
  | word _ => exact (List.append_eq_singleton_iff.mp hs).elim (·.1) fun h => absurd h.2 (by simp)
  | mark _ => exact (List.append_eq_singleton_iff.mp hs).elim (·.1) fun h => absurd h.2 (by simp)
  | arrow =>
      have hlast : '-'.toUInt8 = b := by
        have hend := congrArg List.getLast? hs
        rw [List.getLast?_concat] at hend
        exact (Option.some.inj hend).symm
      exact absurd (by decide) (hsolid hlast)
  | @quoted quote body hq _ =>
      have hlast : quote = b := by
        have hend := congrArg List.getLast? hs
        rw [List.getLast?_concat, ← List.cons_append, List.getLast?_concat] at hend
        exact (Option.some.inj hend).symm
      exact absurd (quote_class quote hq).1 (hsolid hlast)

/-- A gap at the end does not make a text readable. -/
theorem Lexable.of_gap_end {p : Bytes} {b : UInt8} (hb : b.toNat < 128)
    (hgap : Blank.isGap (Char.ofNat b.toNat) = true) (h : Lexable (p ++ [b])) : Lexable p := by
  generalize hs : p ++ [b] = s at h
  induction h generalizing p with
  | nil => exact absurd hs (by simp)
  | @cons atom rest ha hrest ih =>
      rcases List.eq_nil_or_concat rest with rfl | ⟨front, last, rfl⟩
      · rw [List.append_nil] at hs
        rw [← hs] at ha
        rw [ha.eq_nil_of_gap_end hb hgap]
        exact .nil
      · rw [List.concat_eq_append, ← List.append_assoc] at hs
        obtain ⟨hp, hlast⟩ := List.append_inj' hs rfl
        cases hlast
        rw [hp]
        exact .cons ha (ih (List.concat_eq_append ..).symm)

/-- An atom ends where a character ends: in an ASCII byte, or with its only character. -/
theorem Atom.splits {a : Bytes} (h : Atom a) (b : Bytes) : Rune.Splits 0 a b := by
  cases h with
  | gap _ => exact Rune.splits_encode _ b
  | @word c hc => exact @Rune.splits_of_ascii_end c (word_solid c hc).1 0 [] (Nat.le_refl _) b
  | @mark c hc => exact @Rune.splits_of_ascii_end c (mark_class c hc).1.1 0 [] (Nat.le_refl _) b
  | arrow => exact @Rune.splits_of_ascii_end '-'.toUInt8 (by decide) 0 ['<'.toUInt8] (Nat.zero_le _) b
  | @quoted quote body hq _ =>
      exact @Rune.splits_of_ascii_end quote (quote_class quote hq).1.1 0 (quote :: body) (Nat.zero_le _) b

theorem Lexable.splits {p : Bytes} (h : Lexable p) (b : Bytes) : Rune.Splits 0 p b := by
  induction h with
  | nil => rfl
  | cons ha _ ih => exact (ha.splits _).append ih

end AsmAssist.Lexeme
