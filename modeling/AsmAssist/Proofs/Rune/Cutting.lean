import AsmAssist.Proofs.Rune
import Mathlib.Order.MinMax

/- Texts cut between characters. The first characters of a text are read as the same characters when
   nothing follows them, and the others when nothing precedes them, also where bytes belong to no
   character: a byte that starts none with all that follows it starts none with less. -/

namespace AsmAssist.Bytes

/-- A place of a text at which one of its characters ends, or its start. -/
def IsBoundary (s : Bytes) (place : Nat) : Prop := ∃ count : Nat, (takeRunes count s).length = place

theorem isBoundary_of_splits {a b : Bytes} (h : Rune.Splits 0 a b) : IsBoundary (a ++ b) a.length :=
  ⟨runeCount a, by rw [takeRunes_runeCount h]⟩

/-- The bytes behind the first `n` characters. -/
def dropRunes (n : Int) (s : Bytes) : Bytes := (s.glyphs.drop n.toNat).flatMap Glyph.bytes

theorem takeRunes_append_dropRunes (n : Int) (s : Bytes) : takeRunes n s ++ dropRunes n s = s := by
  rw [takeRunes, dropRunes, ← List.flatMap_append, List.take_append_drop, glyphs_bytes]

theorem glyphs_cons {b : UInt8} {tail after : Bytes}
    (h : (Rune.lead b (tail ++ after)).2 = tail.length) :
    glyphs (b :: (tail ++ after)) =
      ⟨(Rune.lead b (tail ++ after)).1, b :: tail⟩ :: glyphs after := by
  simp only [glyphs, Rune.glyphsAfter, h, Rune.glyphsAfter_skip, List.take_left]

/-- The first characters of a text are all of its characters if it ends behind them. -/
theorem glyphs_take (count : Nat) (s : Bytes) :
    glyphs ((s.glyphs.take count).flatMap Glyph.bytes) = s.glyphs.take count := by
  induction count generalizing s with
  | zero => rfl
  | succ count ih =>
      cases s with
      | nil => rfl
      | cons b rest =>
          obtain ⟨tail, after, rfl, hlength, -⟩ := Rune.lead_tail b rest
          rw [glyphs_cons hlength, List.take_succ_cons, List.flatMap_cons, List.cons_append]
          have hkept := ih after
          have hcut := takeRunes_append_dropRunes count after
          simp only [takeRunes, Int.toNat_natCast] at hcut
          generalize (after.glyphs.take count).flatMap Glyph.bytes = kept at hkept hcut ⊢
          -- The first character ends within its own bytes, so it does not see what is cut off.
          have hlead : Rune.lead b (tail ++ after) = Rune.lead b (tail ++ kept) := by
            rw [← hcut, ← List.append_assoc]
            apply Rune.lead_append
            rw [List.append_assoc, hcut, hlength, List.length_append]
            exact Nat.le_add_right _ _
          rw [hlead] at hlength ⊢
          rw [glyphs_cons hlength, hkept]

/-- What stands before a character does not matter for it and those that follow. -/
theorem glyphs_drop (count : Nat) (s : Bytes) :
    glyphs ((s.glyphs.drop count).flatMap Glyph.bytes) = s.glyphs.drop count := by
  induction count generalizing s with
  | zero => rw [List.drop_zero, glyphs_bytes]
  | succ count ih =>
      cases s with
      | nil => rfl
      | cons b rest =>
          obtain ⟨tail, after, rfl, hlength, -⟩ := Rune.lead_tail b rest
          rw [glyphs_cons hlength, List.drop_succ_cons]
          exact ih after

theorem runeCount_takeRunes (n : Int) (s : Bytes) :
    runeCount (takeRunes n s) = min n.toNat (runeCount s) := by
  rw [runeCount, takeRunes, glyphs_take, List.length_take, runeCount]

theorem runeCount_dropRunes (n : Int) (s : Bytes) :
    runeCount (dropRunes n s) = runeCount s - n.toNat := by
  rw [runeCount, dropRunes, glyphs_drop, List.length_drop, runeCount]

theorem takeRunes_takeRunes (m n : Int) (s : Bytes) :
    takeRunes m (takeRunes n s) = takeRunes (min n m) s := by
  have hmin : min m.toNat n.toNat = (min n m).toNat := by omega
  rw [takeRunes, takeRunes, glyphs_take, List.take_take, hmin, takeRunes]

/-- The first `n` characters of any bytes are an initial part of them. It has `n` characters, or none if
    `n` is negative, or as many as there are; the rest has all the others; and taking characters of what
    was taken is taking the lesser number at once. -/
theorem characters_split_at_every_count (s : Bytes) (n : Int) :
    ∃ rest, s = takeRunes n s ++ rest ∧
      (runeCount (takeRunes n s) : Int) = min (max n 0) (runeCount s) ∧
      (runeCount rest : Int) = runeCount s - min (max n 0) (runeCount s) ∧
      ∀ m : Int, takeRunes m (takeRunes n s) = takeRunes (min n m) s := by
  refine ⟨dropRunes n s, (takeRunes_append_dropRunes n s).symm, ?_, ?_,
    fun m => takeRunes_takeRunes m n s⟩
  · rw [runeCount_takeRunes]
    omega
  · rw [runeCount_dropRunes]
    omega

-- Three bytes of a character of four, and a letter in place of the last.
example : runeCount (takeRunes 2 [0xF0, 0x9F, 0x98, 0x41]) = 2 := by decide

end AsmAssist.Bytes
