import AsmAssist.Line
import AsmAssist.Operand
import Mathlib.Order.MinMax

/- Which parameter is active. It is the number of separators, held back at the last parameter. The place of
   that one is computed in words, where one step below the least word leads to the greatest, so for the
   least arity nothing is held back. -/

namespace AsmAssist.Operand

/-- The active parameter is the number of arguments, held within the parameters that there are; without
    a second parameter it is the first. -/
structure Held (arity : Int64) (a : Analysis) : Prop where
  single : arity.toInt ≤ 1 → a.activeParameter = 0
  several : 1 < arity.toInt → (a.activeParameter : Int) = min (a.arguments : Int) (arity.toInt - 1)
  bounds : 0 ≤ (a.activeParameter : Int) ∧ (a.activeParameter : Int) ≤ max 0 (arity.toInt - 1)

theorem held_iff {arity : Int64} {a : Analysis} :
    Held arity a ↔ a.activeParameter = (min (a.arguments : Int) (arity.toInt - 1)).toNat := by
  constructor
  · intro h
    by_cases hsingle : arity.toInt ≤ 1
    · rw [h.single hsingle]
      omega
    · have hseveral := h.several (by omega)
      omega
  · intro h
    exact ⟨fun _ => by omega, fun _ => by omega, by omega⟩

/-- One less than a word is exact, but for the least word. -/
theorem toInt_sub_one {arity : Int64} (h : arity ≠ Int64.minValue) :
    (arity - 1).toInt = arity.toInt - 1 := by
  have hone : (1 : Int64).toInt = 1 := by decide
  have hleast : arity.toInt ≠ -2 ^ 63 := by
    rw [← Int64.toInt_minValue]
    exact fun heq => h (Int64.toInt_inj.mp heq)
  have hlow := Int64.le_toInt arity
  have hhigh := Int64.toInt_lt arity
  rw [Int64.toInt_sub, hone]
  apply Int.bmod_eq_of_le
  · omega
  · omega

variable (tokens : List Token) (registerArity : Int64)

theorem activeParameter_exact {arity : Int64} (h : arity ≠ Int64.minValue) :
    (analyze tokens arity registerArity).activeParameter =
      (min (separators tokens : Int) (arity.toInt - 1)).toNat := by
  rw [analyze, toInt_sub_one h]

theorem activeParameter_least :
    ((analyze tokens Int64.minValue registerArity).activeParameter : Int) =
      min (separators tokens : Int) Int64.maxValue.toInt := by
  have hwrapped : Int64.minValue - 1 = Int64.maxValue := by decide
  have hgreatest : 0 ≤ Int64.maxValue.toInt := by decide
  simp only [analyze, hwrapped]
  omega

/-- The active parameter is held within the parameters for every arity but the least one, and for that
    one only if there is no separator: it is the number of separators, as far as a word can count. -/
theorem parameter_held_unless_least_arity :
    (∀ arity, Held arity (analyze tokens arity registerArity) ↔
      arity ≠ Int64.minValue ∨ separators tokens = 0) ∧
    ((analyze tokens Int64.minValue registerArity).activeParameter : Int) =
      min (separators tokens : Int) Int64.maxValue.toInt := by
  refine ⟨?_, activeParameter_least tokens registerArity⟩
  intro arity
  rw [held_iff]
  by_cases hleast : arity = Int64.minValue
  · subst hleast
    have hcount : (analyze tokens Int64.minValue registerArity).arguments = separators tokens := rfl
    have hactive := activeParameter_least tokens registerArity
    have hgreatest : 0 < Int64.maxValue.toInt := by decide
    have hlast : Int64.minValue.toInt - 1 < 0 := by decide
    simp only [hcount, ne_eq, not_true_eq_false, false_or]
    omega
  · exact iff_of_true (activeParameter_exact tokens registerArity hleast) (.inl hleast)

/-- With the least arity and one separator, a second parameter is active where there is none. -/
theorem least_arity_holds_nothing :
    ¬ Held Int64.minValue
      (analyze (Line.operands (.ofString "MOV r1, r2") 0) Int64.minValue 1) := by
  intro hheld
  exact absurd (hheld.single (by decide)) (by decide)

end AsmAssist.Operand
