import AsmAssist.Text.Rune
import Mathlib.Logic.Basic

/- Characters and the bytes they are read from. Writing a character and reading it again are inverse
   to each other, and a text may be cut wherever no character reaches over the cut: there columns
   add up and a count of characters takes exactly the first part. -/

namespace AsmAssist.Rune

theorem isTail_iff {b : UInt8} : isTail b = true ↔ 128 ≤ b.toNat ∧ b.toNat ≤ 191 := by
  simp [isTail, UInt8.le_iff_toNat_le]

theorem startsThree_iff {b b1 : UInt8} : startsThree b b1 = true ↔
    (b.toNat = 224 ∧ 160 ≤ b1.toNat ∧ b1.toNat ≤ 191) ∨
    (b.toNat = 237 ∧ 128 ≤ b1.toNat ∧ b1.toNat ≤ 159) ∨
    (225 ≤ b.toNat ∧ b.toNat ≤ 239 ∧ b.toNat ≠ 237 ∧ 128 ≤ b1.toNat ∧ b1.toNat ≤ 191) := by
  simp [startsThree, isTail_iff, UInt8.le_iff_toNat_le, ← UInt8.toNat_inj, and_assoc, or_assoc]

theorem startsFour_iff {b b1 : UInt8} : startsFour b b1 = true ↔
    (b.toNat = 240 ∧ 144 ≤ b1.toNat ∧ b1.toNat ≤ 191) ∨
    (b.toNat = 244 ∧ 128 ≤ b1.toNat ∧ b1.toNat ≤ 143) ∨
    (241 ≤ b.toNat ∧ b.toNat ≤ 243 ∧ 128 ≤ b1.toNat ∧ b1.toNat ≤ 191) := by
  simp [startsFour, isTail_iff, UInt8.le_iff_toNat_le, ← UInt8.toNat_inj, and_assoc, or_assoc]

theorem lead_one {b : UInt8} (h : b.toNat < 128) (rest : Bytes) :
    lead b rest = (Char.ofNat b.toNat, 0) := by
  have hb : b < 0x80 := by simpa [UInt8.lt_iff_toNat_lt] using h
  simp only [lead, hb, if_true]

theorem lead_two {b b1 : UInt8} (h : 194 ≤ b.toNat ∧ b.toNat ≤ 223) (h1 : isTail b1 = true)
    (rest : Bytes) :
    lead b (b1 :: rest) = (Char.ofNat (payload b 32 * 64 + payload b1 64), 1) := by
  have hb : ¬ b < 0x80 := by simp [UInt8.lt_iff_toNat_lt]; omega
  have hlead : (0xC2 ≤ b && b ≤ 0xDF && isTail b1) = true := by
    simpa [UInt8.le_iff_toNat_le, h1] using h
  simp only [lead, hb, hlead, if_true, if_false]

theorem lead_three {b b1 b2 : UInt8} (h : startsThree b b1 = true) (h2 : isTail b2 = true)
    (rest : Bytes) :
    lead b (b1 :: b2 :: rest) =
      (Char.ofNat ((payload b 16 * 64 + payload b1 64) * 64 + payload b2 64), 2) := by
  have hrange := startsThree_iff.mp h
  have hb : ¬ b < 0x80 := by simp [UInt8.lt_iff_toNat_lt]; omega
  have hlead : (0xC2 ≤ b && b ≤ 0xDF && isTail b1) = false := by
    simp [UInt8.le_iff_toNat_le]; omega
  simp only [lead, hb, hlead, h, h2, Bool.and_self, Bool.false_eq_true, if_true, if_false]

theorem lead_four {b b1 b2 b3 : UInt8} (h : startsFour b b1 = true) (h2 : isTail b2 = true)
    (h3 : isTail b3 = true) (rest : Bytes) :
    lead b (b1 :: b2 :: b3 :: rest) =
      (Char.ofNat (((payload b 8 * 64 + payload b1 64) * 64 + payload b2 64) * 64
        + payload b3 64), 3) := by
  have hrange := startsFour_iff.mp h
  have hb : ¬ b < 0x80 := by simp [UInt8.lt_iff_toNat_lt]; omega
  have hlead : (0xC2 ≤ b && b ≤ 0xDF && isTail b1) = false := by
    simp [UInt8.le_iff_toNat_le]; omega
  have hthree : startsThree b b1 = false := by
    rw [← Bool.not_eq_true, startsThree_iff]; omega
  simp only [lead, hb, hlead, hthree, h, h2, h3, Bool.and_self, Bool.false_and, Bool.false_eq_true,
    if_true, if_false]

/-- The bytes after the first one of a character are tail bytes, so an ASCII byte ends whatever
    stands before it. -/
theorem lead_tail (b : UInt8) (rest : Bytes) :
    ∃ tail after, rest = tail ++ after ∧ (lead b rest).2 = tail.length ∧
      ∀ x ∈ tail, isTail x = true := by
  have hthree : ∀ {b1}, startsThree b b1 = true → isTail b1 = true := by
    intro b1 h
    rw [startsThree_iff] at h
    rw [isTail_iff]
    omega
  have hfour : ∀ {b1}, startsFour b b1 = true → isTail b1 = true := by
    intro b1 h
    rw [startsFour_iff] at h
    rw [isTail_iff]
    omega
  fun_cases lead b rest with
  | case1 | case2 | case4 | case6 | case8 => exact ⟨[], _, rfl, rfl, by simp⟩
  | case3 _ b1 rest1 h =>
      simp only [Bool.and_eq_true] at h
      exact ⟨[b1], rest1, rfl, rfl, by simp [h.2]⟩
  | case5 _ b1 _ b2 rest2 h =>
      simp only [Bool.and_eq_true] at h
      exact ⟨[b1, b2], rest2, rfl, rfl, by simp [hthree h.1, h.2]⟩
  | case7 _ b1 _ b2 _ b3 rest3 h =>
      simp only [Bool.and_eq_true] at h
      exact ⟨[b1, b2, b3], rest3, rfl, rfl, by simp [hfour h.1.1, h.1.2, h.2]⟩

/-- A character that ends within `x` is read from `x` alone. -/
theorem lead_append {b : UInt8} {x y : Bytes} (h : (lead b (x ++ y)).2 ≤ x.length) :
    lead b (x ++ y) = lead b x := by
  match x with
  | [] =>
      simp only [List.nil_append, List.length_nil] at h ⊢
      unfold lead at h ⊢
      grind
  | [b1] =>
      simp only [List.cons_append, List.nil_append, List.length_cons, List.length_nil] at h ⊢
      unfold lead at h ⊢
      grind
  | [b1, b2] =>
      simp only [List.cons_append, List.nil_append, List.length_cons, List.length_nil] at h ⊢
      unfold lead at h ⊢
      grind
  | b1 :: b2 :: b3 :: x => rfl

theorem val_ofNat {n : Nat} (h : n.isValidChar) : (Char.ofNat n).val.toNat = n := by
  rw [Char.ofNat, dif_pos h]
  rfl

theorem encode_one {n : Nat} (h : n < 128) : encode (Char.ofNat n) = [UInt8.ofNat n] := by
  have hv : (Char.ofNat n).val.toNat = n := val_ofNat (.inl (by omega))
  simp only [encode, String.utf8EncodeChar, hv]
  rw [if_pos (by omega)]

theorem encode_two {n : Nat} (lo : 128 ≤ n) (hi : n < 2048) :
    encode (Char.ofNat n) = [UInt8.ofNat (n / 64 % 32 + 192), UInt8.ofNat (n % 64 + 128)] := by
  have hv : (Char.ofNat n).val.toNat = n := val_ofNat (.inl (by omega))
  simp only [encode, String.utf8EncodeChar, hv]
  rw [if_neg (by omega), if_pos (by omega)]

theorem encode_three {n : Nat} (lo : 2048 ≤ n) (hi : n < 65536) (hn : n.isValidChar) :
    encode (Char.ofNat n) = [UInt8.ofNat (n / 4096 % 16 + 224), UInt8.ofNat (n / 64 % 64 + 128),
      UInt8.ofNat (n % 64 + 128)] := by
  simp only [encode, String.utf8EncodeChar, val_ofNat hn]
  rw [if_neg (by omega), if_neg (by omega), if_pos (by omega)]

theorem encode_four {n : Nat} (lo : 65536 ≤ n) (hn : n.isValidChar) :
    encode (Char.ofNat n) = [UInt8.ofNat (n / 262144 % 8 + 240), UInt8.ofNat (n / 4096 % 64 + 128),
      UInt8.ofNat (n / 64 % 64 + 128), UInt8.ofNat (n % 64 + 128)] := by
  simp only [encode, String.utf8EncodeChar, val_ofNat hn]
  rw [if_neg (by omega), if_neg (by omega), if_neg (by omega)]

theorem ofNat_eq (b : UInt8) {n : Nat} (h : n = b.toNat) : UInt8.ofNat n = b := by
  rw [h, UInt8.ofNat_toNat]

theorem toNat_ofNat_byte {n : Nat} (h : n < 256) : (UInt8.ofNat n).toNat = n :=
  UInt8.toNat_ofNat_of_lt' h

/-- Reading a character and writing it again gives its bytes back. -/
theorem encode_lead {b : UInt8} {rest : Bytes} (h : (lead b rest).1 ≠ replacement) :
    encode (lead b rest).1 = b :: rest.take (lead b rest).2 := by
  revert h
  fun_cases lead b rest with
  | case1 =>
      intro _
      have hb : b.toNat < 128 := by simpa [UInt8.lt_iff_toNat_lt] using ‹b < 128›
      rw [encode_one hb, UInt8.ofNat_toNat, List.take_zero]
  | case2 | case4 | case6 | case8 => exact fun h => absurd rfl h
  | case3 _ b1 rest1 hlead =>
      intro _
      have hrange : (194 ≤ b.toNat ∧ b.toNat ≤ 223) ∧ 128 ≤ b1.toNat ∧ b1.toNat ≤ 191 := by
        simpa [isTail_iff, UInt8.le_iff_toNat_le] using hlead
      simp only [payload]
      rw [encode_two (by omega) (by omega), ofNat_eq b (by omega), ofNat_eq b1 (by omega)]
      rfl
  | case5 _ b1 _ b2 rest2 hlead =>
      intro _
      simp only [Bool.and_eq_true, startsThree_iff, isTail_iff] at hlead
      simp only [payload]
      rw [encode_three (by omega) (by omega) (by simp only [Nat.isValidChar]; omega),
        ofNat_eq b (by omega), ofNat_eq b1 (by omega), ofNat_eq b2 (by omega)]
      rfl
  | case7 _ b1 _ b2 _ b3 rest3 hlead =>
      intro _
      simp only [Bool.and_eq_true, startsFour_iff, isTail_iff] at hlead
      simp only [payload]
      rw [encode_four (by omega) (by simp only [Nat.isValidChar]; omega), ofNat_eq b (by omega),
        ofNat_eq b1 (by omega), ofNat_eq b2 (by omega), ofNat_eq b3 (by omega)]
      rfl

/-- Writing a character and reading it again gives the character back, whatever follows. -/
theorem lead_encode (c : Char) :
    ∃ b tail, encode c = b :: tail ∧ ∀ rest, lead b (tail ++ rest) = (c, tail.length) := by
  have hc : c = Char.ofNat c.toNat := (Char.ofNat_toNat c).symm
  have hn : c.toNat.isValidChar := c.valid
  generalize c.toNat = n at hc hn
  subst hc
  simp only [Nat.isValidChar] at hn
  rcases Nat.lt_or_ge n 128 with h1 | h1
  · have e := toNat_ofNat_byte (n := n) (by omega)
    refine ⟨_, _, encode_one h1, fun rest => ?_⟩
    rw [lead_one (by omega), e]
    rfl
  rcases Nat.lt_or_ge n 2048 with h2 | h2
  · have e := toNat_ofNat_byte (n := n / 64 % 32 + 192) (by omega)
    have e1 := toNat_ofNat_byte (n := n % 64 + 128) (by omega)
    have hback : (n / 64 % 32 + 192) % 32 * 64 + (n % 64 + 128) % 64 = n := by omega
    refine ⟨_, _, encode_two h1 h2, fun rest => ?_⟩
    rw [List.cons_append, lead_two (by omega) (by rw [isTail_iff]; omega)]
    simp only [payload, e, e1, hback]
    rfl
  rcases Nat.lt_or_ge n 65536 with h3 | h3
  · have e := toNat_ofNat_byte (n := n / 4096 % 16 + 224) (by omega)
    have e1 := toNat_ofNat_byte (n := n / 64 % 64 + 128) (by omega)
    have e2 := toNat_ofNat_byte (n := n % 64 + 128) (by omega)
    have hback : ((n / 4096 % 16 + 224) % 16 * 64 + (n / 64 % 64 + 128) % 64) * 64
        + (n % 64 + 128) % 64 = n := by omega
    refine ⟨_, _, encode_three h2 h3 hn, fun rest => ?_⟩
    rw [List.cons_append, List.cons_append,
      lead_three (by rw [startsThree_iff]; omega) (by rw [isTail_iff]; omega)]
    simp only [payload, e, e1, e2, hback]
    rfl
  · have e := toNat_ofNat_byte (n := n / 262144 % 8 + 240) (by omega)
    have e1 := toNat_ofNat_byte (n := n / 4096 % 64 + 128) (by omega)
    have e2 := toNat_ofNat_byte (n := n / 64 % 64 + 128) (by omega)
    have e3 := toNat_ofNat_byte (n := n % 64 + 128) (by omega)
    have hback : (((n / 262144 % 8 + 240) % 8 * 64 + (n / 4096 % 64 + 128) % 64) * 64
        + (n / 64 % 64 + 128) % 64) * 64 + (n % 64 + 128) % 64 = n := by omega
    refine ⟨_, _, encode_four h3 hn, fun rest => ?_⟩
    rw [List.cons_append, List.cons_append, List.cons_append,
      lead_four (by rw [startsFour_iff]; omega) (by rw [isTail_iff]; omega)
        (by rw [isTail_iff]; omega)]
    simp only [payload, e, e1, e2, e3, hback]
    rfl

/-- All bytes of a character but its first are tail bytes. -/
theorem isTail_of_encode {c : Char} {b : UInt8} {tail : Bytes} (h : encode c = b :: tail) :
    ∀ x ∈ tail, isTail x = true := by
  obtain ⟨b', tail', henc, hlead⟩ := lead_encode c
  rw [h, List.cons.injEq] at henc
  obtain ⟨rfl, rfl⟩ := henc
  obtain ⟨front, after, hsplit, hlen, htail⟩ := lead_tail b (tail ++ [])
  rw [hlead []] at hlen
  rw [List.append_nil] at hsplit
  obtain ⟨rfl, -⟩ := List.append_inj ((List.append_nil tail).trans hsplit) hlen
  exact htail

/-- No character reaches from `a` into `b`, where the first `skip` bytes of `a` belong to a
    character already read. -/
def Splits : Nat → Bytes → Bytes → Prop
  | skip, [], _ => skip = 0
  | skip + 1, _ :: a, b => Splits skip a b
  | 0, x :: a, b => Splits (lead x (a ++ b)).2 a b

theorem Splits.skip_le {skip : Nat} {a b : Bytes} (h : Splits skip a b) : skip ≤ a.length := by
  induction a generalizing skip with
  | nil => exact Nat.le_of_eq h
  | cons x a ih =>
      cases skip with
      | zero => exact Nat.zero_le _
      | succ skip => exact Nat.succ_le_succ (ih h)

theorem Splits.drop {skip : Nat} {a b : Bytes} (h : Splits 0 (a.drop skip) b)
    (hskip : skip ≤ a.length) : Splits skip a b := by
  induction skip generalizing a with
  | zero => exact h
  | succ skip ih =>
      cases a with
      | nil => cases hskip
      | cons x a => exact ih h (Nat.le_of_succ_le_succ hskip)

theorem Splits.append {skip : Nat} {a b c : Bytes} (hab : Splits skip a (b ++ c))
    (hbc : Splits 0 b c) : Splits skip (a ++ b) c := by
  induction a generalizing skip with
  | nil =>
      cases (show skip = 0 from hab)
      exact hbc
  | cons x a ih =>
      cases skip with
      | zero =>
          change Splits (lead x ((a ++ b) ++ c)).2 (a ++ b) c
          rw [List.append_assoc]
          exact ih hab
      | succ skip => exact ih hab

/-- Characters of a text are those of its parts, if it is cut between characters. -/
theorem glyphsAfter_append {skip : Nat} {a b : Bytes} (h : Splits skip a b) :
    glyphsAfter skip (a ++ b) = glyphsAfter skip a ++ glyphsAfter 0 b := by
  induction a generalizing skip with
  | nil =>
      cases (show skip = 0 from h)
      rfl
  | cons x a ih =>
      cases skip with
      | zero =>
          change Splits (lead x (a ++ b)).2 a b at h
          have hlead := lead_append h.skip_le
          simp only [List.cons_append, glyphsAfter, ← hlead, ih h]
          rw [List.take_append_of_le_length h.skip_le]
      | succ skip => exact ih h

theorem splits_encode (c : Char) (b : Bytes) : Splits 0 (encode c) b := by
  obtain ⟨x, tail, henc, hlead⟩ := lead_encode c
  rw [henc]
  change Splits (lead x (tail ++ b)).2 tail b
  rw [hlead b]
  refine Splits.drop ?_ (Nat.le_refl _)
  rw [List.drop_length]
  rfl

/-- Any text may be cut before an ASCII byte. -/
theorem splits_before_ascii {c : UInt8} (hc : c.toNat < 128) {skip : Nat} {a : Bytes}
    (hskip : skip ≤ a.length) (b : Bytes) : Splits skip a (c :: b) := by
  induction a generalizing skip with
  | nil => exact Nat.le_zero.mp hskip
  | cons x a ih =>
      cases skip with
      | succ skip => exact ih (Nat.le_of_succ_le_succ hskip)
      | zero =>
          apply ih
          obtain ⟨tail, after, hsplit, hlen, htail⟩ := lead_tail x (a ++ c :: b)
          rw [hlen]
          apply Nat.le_of_not_lt
          intro hlong
          -- A longer character would hold the byte `c`, which is no tail byte.
          have hmem : c ∈ tail := by
            have hat : (tail ++ after)[a.length]? = some c := by
              rw [← hsplit]
              simp
            rw [List.getElem?_append_left hlong] at hat
            exact List.mem_of_getElem? hat
          have := isTail_iff.mp (htail c hmem)
          omega

/-- A text that ends in an ASCII byte may be continued by anything. -/
theorem splits_of_ascii_end {c : UInt8} (hc : c.toNat < 128) {skip : Nat} {a : Bytes}
    (hskip : skip ≤ a.length) (b : Bytes) : Splits skip (a ++ [c]) b := by
  refine (splits_before_ascii hc hskip b).append ?_
  change (lead c b).2 = 0
  rw [lead_one hc]

theorem glyphsAfter_skip (tail rest : Bytes) :
    glyphsAfter tail.length (tail ++ rest) = glyphsAfter 0 rest := by
  induction tail with
  | nil => rfl
  | cons b tail ih => exact ih

theorem glyphsAfter_bytes (skip : Nat) (s : Bytes) :
    (glyphsAfter skip s).flatMap Glyph.bytes = s.drop skip := by
  induction s generalizing skip with
  | nil => simp [glyphsAfter]
  | cons x s ih =>
      cases skip with
      | zero =>
          simp only [glyphsAfter, List.flatMap_cons, ih, List.cons_append, List.drop_zero,
            List.take_append_drop]
      | succ skip => simp only [glyphsAfter, ih, List.drop_succ_cons]

end AsmAssist.Rune

namespace AsmAssist.Bytes

theorem glyphs_bytes (s : Bytes) : s.glyphs.flatMap Glyph.bytes = s :=
  Rune.glyphsAfter_bytes 0 s

theorem glyphs_append {a b : Bytes} (h : Rune.Splits 0 a b) : (a ++ b).glyphs = a.glyphs ++ b.glyphs :=
  Rune.glyphsAfter_append h

theorem runeCount_append {a b : Bytes} (h : Rune.Splits 0 a b) :
    runeCount (a ++ b) = runeCount a + runeCount b := by
  simp only [runeCount, glyphs, Rune.glyphsAfter_append h, List.length_append]

/-- A count of characters takes back the text that was counted. -/
theorem takeRunes_runeCount {a b : Bytes} (h : Rune.Splits 0 a b) :
    takeRunes (runeCount a) (a ++ b) = a := by
  simp only [takeRunes, runeCount, glyphs, Rune.glyphsAfter_append h, Int.toNat_natCast,
    List.take_left]
  exact glyphs_bytes a

theorem runeCount_pos {s : Bytes} (h : s ≠ []) : 0 < runeCount s := by
  cases s with
  | nil => exact absurd rfl h
  | cons b rest => exact Nat.succ_pos _

end AsmAssist.Bytes
