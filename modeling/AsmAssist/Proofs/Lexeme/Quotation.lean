import AsmAssist.Proofs.Lexeme.Cut
import AsmAssist.Proofs.Rune.Cutting
import Mathlib.Algebra.Group.Nat.Even
import Mathlib.Order.Bounds.Basic
import Mathlib.Order.Nat

/- Where quotations end. Reading goes from the left and lets each backslash take the byte after it along;
   looking back from a quote, it closes if the run of backslashes before it is even. The two agree: of a
   backslash and the byte that it takes along, a later run of backslashes holds two or none. -/

namespace AsmAssist.Lexeme

/-- The backslashes that a text ends in. -/
def slashes (s : Bytes) : Nat := (s.reverse.takeWhile (· == '\\'.toUInt8)).length

/-- The quote stands at the place, and an even number of backslashes directly before it. -/
def Closes (quote : UInt8) (s : Bytes) (place : Nat) : Prop :=
  s[place]? = some quote ∧ Even (slashes (s.take place))

variable {quote b : UInt8} {rest : Bytes} {place : Nat}

/-! ### Runs of backslashes -/

/-- A run ends within the text behind, or it goes on into the text in front. -/
theorem slashes_append (front s : Bytes) :
    slashes (front ++ s) = slashes s ∨ slashes (front ++ s) = slashes s + slashes front := by
  simp only [slashes, List.reverse_append, List.takeWhile_append]
  split
  · rename_i hall
    right
    rw [List.length_append, hall]
  · exact .inl rfl

theorem slashes_cons (h : b ≠ '\\'.toUInt8) (s : Bytes) : slashes (b :: s) = slashes s := by
  have hnone : slashes [b] = 0 := by simp [slashes, h]
  rcases slashes_append [b] s with hs | hs
  · exact hs
  · rw [hnone] at hs
    exact hs

theorem even_slashes_escaped (b : UInt8) (s : Bytes) :
    Even (slashes ('\\'.toUInt8 :: b :: s)) ↔ Even (slashes s) := by
  have hboth : Even (slashes ['\\'.toUInt8, b]) := by
    by_cases hb : b = '\\'.toUInt8
    · rw [hb]
      decide
    · simp [slashes, hb]
  rcases slashes_append ['\\'.toUInt8, b] s with hs | hs
  · exact iff_of_eq (congrArg Even hs)
  · rw [List.cons_append, List.cons_append, List.nil_append] at hs
    rw [hs, Nat.even_add]
    exact iff_true_right hboth

/-! ### Closing quotes, read from the left -/

theorem closes_head (rest : Bytes) : Closes quote (quote :: rest) 0 :=
  ⟨rfl, (by decide : Even (slashes []))⟩

theorem closes_succ (hslash : b ≠ '\\'.toUInt8) :
    Closes quote (b :: rest) (place + 1) ↔ Closes quote rest place := by
  rw [Closes, Closes, List.getElem?_cons_succ, List.take_succ_cons, slashes_cons hslash]

/-- A byte that is neither the quote nor a backslash is passed over. -/
theorem closes_plain (hat : b ≠ quote) (hslash : b ≠ '\\'.toUInt8) (place : Nat) :
    Closes quote (b :: rest) place ↔ ∃ behind, place = behind + 1 ∧ Closes quote rest behind := by
  cases place with
  | zero => exact iff_of_false (fun h => hat (Option.some.inj h.1)) (by simp)
  | succ behind => simp [closes_succ hslash]

/-- A backslash is passed over together with the byte after it. -/
theorem closes_escaped (hquote : quote ≠ '\\'.toUInt8) (place : Nat) :
    Closes quote ('\\'.toUInt8 :: b :: rest) place ↔
      ∃ behind, place = behind + 2 ∧ Closes quote rest behind := by
  have hodd : ¬ Even (slashes ['\\'.toUInt8]) := by decide
  match place with
  | 0 => exact iff_of_false (fun h => hquote (Option.some.inj h.1).symm) (by simp)
  | 1 => exact iff_of_false (fun h => hodd h.2) (by simp)
  | behind + 2 => simp [Closes, even_slashes_escaped]

/-- In a text that starts with a quote, the quotes behind that start close as they do without it. -/
theorem closes_opened (hquote : quote ≠ '\\'.toUInt8) (place : Nat) :
    (1 ≤ place ∧ Closes quote (quote :: rest) place) ↔
      ∃ behind, place = behind + 1 ∧ Closes quote rest behind := by
  cases place with
  | zero => simp
  | succ behind => simp [closes_succ hquote]

/-- The first place of a kind, where all places of the kind are those of another, further on. -/
theorem isLeast_further {P Q : Nat → Prop} {more : Nat}
    (h : ∀ place, P place ↔ ∃ behind, place = behind + more ∧ Q behind) (place : Nat) :
    IsLeast {i | P i} place ↔ ∃ behind, place = behind + more ∧ IsLeast {i | Q i} behind := by
  constructor
  · rintro ⟨hplace, hfirst⟩
    obtain ⟨behind, rfl, hbehind⟩ := (h place).mp hplace
    refine ⟨behind, rfl, hbehind, fun other hother => ?_⟩
    exact Nat.le_of_add_le_add_right (hfirst ((h _).mpr ⟨other, rfl, hother⟩))
  · rintro ⟨behind, rfl, hbehind, hfirst⟩
    refine ⟨(h _).mpr ⟨behind, rfl, hbehind⟩, fun other hother => ?_⟩
    obtain ⟨further, rfl, hfurther⟩ := (h other).mp hother
    exact Nat.add_le_add_right (hfirst hfurther) more

/-- The same for a search that counts the bytes up to the first place, itself included. -/
theorem found_further {P Q : Nat → Prop} {more : Nat} {found : Option Nat}
    (h : ∀ place, P place ↔ ∃ behind, place = behind + more ∧ Q behind)
    (hfound : ∀ length, found = some length ↔
      ∃ behind, length = behind + 1 ∧ IsLeast {i | Q i} behind) (length : Nat) :
    found.map (· + more) = some length ↔ ∃ place, length = place + 1 ∧ IsLeast {i | P i} place := by
  rw [Option.map_eq_some_iff]
  constructor
  · rintro ⟨counted, hcounted, rfl⟩
    obtain ⟨behind, rfl, hleast⟩ := (hfound counted).mp hcounted
    exact ⟨behind + more, by omega, (isLeast_further h _).mpr ⟨behind, rfl, hleast⟩⟩
  · rintro ⟨place, rfl, hplace⟩
    obtain ⟨behind, rfl, hleast⟩ := (isLeast_further h place).mp hplace
    exact ⟨behind + 1, (hfound _).mpr ⟨behind, rfl, hleast⟩, by omega⟩

/-- Reading from the left stops behind the first quote that closes. -/
theorem closing?_eq_some_iff (hquote : quote ≠ '\\'.toUInt8) (s : Bytes) (length : Nat) :
    closing? quote s = some length ↔
      ∃ place, length = place + 1 ∧ IsLeast {i | Closes quote s i} place := by
  fun_induction closing? quote s generalizing length with
  | case1 =>
      refine iff_of_false (by simp) ?_
      rintro ⟨place, -, ⟨hat, -⟩, -⟩
      cases hat
  | case2 b hslash =>
      -- A backslash at the end takes nothing along, but it is no quote either.
      refine iff_of_false (by simp) ?_
      rintro ⟨place, -, ⟨hat, -⟩, -⟩
      have hlast : quote = b := List.mem_singleton.mp (List.mem_of_getElem? hat)
      exact hquote (hlast.trans (eq_of_beq hslash))
  | case3 b hslash taken rest ih =>
      obtain rfl := eq_of_beq hslash
      exact found_further (closes_escaped hquote) ih length
  | case4 b rest hslash hat =>
      obtain rfl := eq_of_beq hat
      have hfirst : IsLeast {i | Closes b (b :: rest) i} 0 :=
        ⟨closes_head rest, fun _ _ => Nat.zero_le _⟩
      constructor
      · rintro ⟨rfl⟩
        exact ⟨0, rfl, hfirst⟩
      · rintro ⟨place, rfl, hplace⟩
        rw [IsLeast.unique hplace hfirst]
  | case5 b rest hslash hat ih =>
      exact found_further (closes_plain (by simpa using hat) (by simpa using hslash)) ih length

/-! ### Quotations -/

theorem quotation_eq_some_iff (s : Bytes) (cut : Cut) :
    quotation s = some cut ↔ ∃ quote ∈ quotes, s.head? = some quote ∧
      ∃ place, IsLeast {i | 1 ≤ i ∧ Closes quote s i} place ∧
        cut = ⟨place + 1, (s.take place).drop 1⟩ := by
  cases s with
  | nil => exact iff_of_false (by simp [quotation]) (by simp)
  | cons first rest =>
      by_cases hq : first ∈ quotes
      · obtain ⟨-, -, -, -, hslash⟩ := quote_class first hq
        rw [quotation_of_quote hq, Option.map_eq_some_iff]
        constructor
        · rintro ⟨length, hlength, rfl⟩
          obtain ⟨behind, rfl, hleast⟩ := (closing?_eq_some_iff hslash rest length).mp hlength
          refine ⟨first, hq, rfl, behind + 1, ?_, rfl⟩
          exact (isLeast_further (closes_opened hslash) _).mpr ⟨behind, rfl, hleast⟩
        · rintro ⟨_, -, ⟨rfl⟩, place, hends, rfl⟩
          obtain ⟨behind, rfl, hleast⟩ := (isLeast_further (closes_opened hslash) place).mp hends
          exact ⟨behind + 1, (closing?_eq_some_iff hslash rest _).mpr ⟨behind, rfl, hleast⟩, rfl⟩
      · rw [quotation_of_not_quote hq]
        refine iff_of_false (by simp) ?_
        rintro ⟨_, hmem, ⟨rfl⟩, -⟩
        exact hq hmem

theorem quotation_eq_none_iff (s : Bytes) :
    quotation s = none ↔ ∀ quote ∈ quotes, s.head? = some quote →
      ∀ place, 1 ≤ place → ¬ Closes quote s place := by
  classical
  rw [Option.eq_none_iff_forall_ne_some]
  constructor
  · intro hnone quote hq hhead place hplace hcloses
    have hfirst := Nat.isLeast_find (⟨place, hplace, hcloses⟩ : ∃ i, 1 ≤ i ∧ Closes quote s i)
    exact hnone _ ((quotation_eq_some_iff s _).mpr ⟨quote, hq, hhead, _, hfirst, rfl⟩)
  · intro hopen cut hcut
    obtain ⟨quote, hq, hhead, place, ⟨⟨hplace, hcloses⟩, -⟩, -⟩ := (quotation_eq_some_iff s cut).mp hcut
    exact hopen quote hq hhead place hplace hcloses

/-- Where a quotation ends, a character ends, for it is made of atoms. -/
theorem isBoundary_of_quotation {s : Bytes} {cut : Cut} (h : quotation s = some cut) :
    s.IsBoundary cut.length := by
  obtain ⟨piece, rest, rfl, hlength, -, hlexable⟩ := quotation_sound s cut h
  rw [← hlength]
  exact Bytes.isBoundary_of_splits (hlexable.splits rest)

/-- A text starts with a quotation if it starts with a quote and has the same one further on behind an even
    run of backslashes. The first such place closes it, the value is what stands between the two, and
    a character of the text ends there, whether the bytes are valid or not. -/
theorem quotation_ends_behind_even_run (s : Bytes) :
    (∀ cut, quotation s = some cut ↔ ∃ quote ∈ quotes, s.head? = some quote ∧
      ∃ place, IsLeast {i | 1 ≤ i ∧ Closes quote s i} place ∧
        cut = ⟨place + 1, (s.take place).drop 1⟩) ∧
    (quotation s = none ↔ ∀ quote ∈ quotes, s.head? = some quote →
      ∀ place, 1 ≤ place → ¬ Closes quote s place) ∧
    ∀ cut, quotation s = some cut → s.IsBoundary cut.length :=
  ⟨quotation_eq_some_iff s, quotation_eq_none_iff s, fun _ h => isBoundary_of_quotation h⟩

-- One backslash stands before the second quote, two before the third.
example : quotation (.ofString "'a\\'b\\\\'c'") = some ⟨8, .ofString "a\\'b\\\\"⟩ := by decide

end AsmAssist.Lexeme
