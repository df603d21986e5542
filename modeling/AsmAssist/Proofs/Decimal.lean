import AsmAssist.Text.Decimal
import Mathlib.Data.Nat.Digits.Defs

/- Numbers in positional notation. Reading digits from the left gives the number that they denote if
   it is below the bound of a word, and an error if it is not, however many digits there are. Writing
   gives decimal digits and no more of them than the number needs. -/

namespace AsmAssist.Decimal

/-- The digits, the most significant first, denote the number in the base. -/
def Denotes (base : Nat) (digits : Bytes) (v : Nat) : Prop :=
  ∃ ds : List Nat, digits.map Ascii.digitValue? = ds.map some ∧ (∀ d ∈ ds, d < base) ∧
    Nat.ofDigits base ds.reverse = v

/-- The number that digits make when they are put behind a number. -/
def appendDigits (base n : Nat) (ds : List Nat) : Nat := ds.foldl (fun n d => n * base + d) n

theorem ofDigits_reverse (base : Nat) (ds : List Nat) :
    Nat.ofDigits base ds.reverse = appendDigits base 0 ds := by
  rw [Nat.ofDigits_eq_foldr, List.foldr_reverse, appendDigits]
  simp only [Nat.cast_id, Nat.mul_comm base, Nat.add_comm]

theorem le_appendDigits {base : Nat} (hbase : 0 < base) (n : Nat) (ds : List Nat) :
    n ≤ appendDigits base n ds := by
  induction ds generalizing n with
  | nil => exact Nat.le_refl n
  | cons d ds ih =>
      calc n ≤ n * base := Nat.le_mul_of_pos_right n hbase
        _ ≤ n * base + d := Nat.le_add_right _ _
        _ ≤ appendDigits base n (d :: ds) := ih (n * base + d)

/-- Reading on from `n` gives the number that the digits make behind it, if it is below the bound. The
    bound is checked at every digit, but a number only grows when digits are put behind it. -/
theorem readDigits_eq_ok {base : Nat} (hbase : 0 < base) {n : Nat} (hn : n < 2 ^ 64) {digits : Bytes}
    {v : Nat} :
    readDigits base n digits = .ok v ↔ v < 2 ^ 64 ∧ ∃ ds : List Nat,
      digits.map Ascii.digitValue? = ds.map some ∧ (∀ d ∈ ds, d < base) ∧
        appendDigits base n ds = v := by
  induction digits generalizing n with
  | nil =>
      constructor
      · rintro ⟨rfl⟩
        exact ⟨hn, [], rfl, by simp, rfl⟩
      · rintro ⟨-, ds, hds, -, rfl⟩
        obtain rfl := List.map_eq_nil_iff.mp hds.symm
        rfl
  | cons b rest ih =>
      have hbound : wordBound = 2 ^ 64 := rfl
      constructor
      · intro h
        rw [readDigits, hbound] at h
        cases hd : Ascii.digitValue? b with
        | none =>
            rw [hd] at h
            cases h
        | some d =>
            simp only [hd] at h
            split_ifs at h with hdigit hword
            obtain ⟨hv, ds, hds, hlt, hvalue⟩ := (ih (Nat.lt_of_not_le hword)).mp h
            refine ⟨hv, d :: ds, ?_, List.forall_mem_cons.mpr ⟨Nat.lt_of_not_le hdigit, hlt⟩, hvalue⟩
            rw [List.map_cons, List.map_cons, hd, hds]
      · rintro ⟨hv, ds, hds, hlt, hvalue⟩
        obtain ⟨d, ds, rfl, hd, hrest⟩ := List.map_eq_cons_iff.mp hds.symm
        obtain ⟨hdigit, hdigits⟩ := List.forall_mem_cons.mp hlt
        have hword : n * base + d < 2 ^ 64 :=
          calc n * base + d ≤ appendDigits base (n * base + d) ds := le_appendDigits hbase _ ds
            _ = v := hvalue
            _ < 2 ^ 64 := hv
        rw [readDigits, ← hd, hbound]
        simp only [if_neg (Nat.not_le_of_lt hdigit), if_neg (Nat.not_le_of_lt hword)]
        exact (ih hword).mpr ⟨hv, ds, hrest.symm, hdigits, hvalue⟩

theorem readWord_eq_ok {base : Nat} (hbase : 0 < base) (digits : Bytes) (v : Nat) :
    readWord base digits = .ok v ↔ digits ≠ [] ∧ v < 2 ^ 64 ∧ Denotes base digits v := by
  simp only [Denotes, ofDigits_reverse]
  by_cases hnil : digits = []
  · simp [readWord, hnil]
  · rw [readWord, if_neg (by simpa using hnil), readDigits_eq_ok hbase (by decide)]
    simp only [ne_eq, hnil, not_false_eq_true, true_and]

/-! ### Writing -/

theorem isDigit_toUInt8 {c : Char} (h : c.isDigit = true) : Ascii.isDigit c.toUInt8 = true := by
  simp only [Char.isDigit, Bool.and_eq_true, decide_eq_true_eq, ge_iff_le,
    UInt32.le_iff_toNat_le] at h
  obtain ⟨hlow, hhigh⟩ : 48 ≤ c.val.toNat ∧ c.val.toNat ≤ 57 := h
  have hbyte : c.toUInt8.toNat = c.val.toNat := by
    rw [Char.toUInt8, UInt32.toNat_toUInt8, Nat.mod_eq_of_lt (by omega)]
  simp only [Ascii.isDigit, Ascii.within, Bool.and_eq_true, decide_eq_true_eq,
    UInt8.le_iff_toNat_le, hbyte]
  exact ⟨hlow, hhigh⟩

theorem ofNat_digits (n : Nat) : ofNat n ≠ [] ∧ ∀ b ∈ ofNat n, Ascii.isDigit b = true := by
  constructor
  · simp [ofNat]
  · intro b hb
    obtain ⟨c, hc, rfl⟩ := List.mem_map.mp hb
    exact isDigit_toUInt8 (Nat.isDigit_of_mem_toDigits (by decide) (by decide) hc)

theorem length_ofNat_le (n : Nat) {k : Nat} (hk : 0 < k) : (ofNat n).length ≤ k ↔ n < 10 ^ k := by
  rw [ofNat, List.length_map, Nat.length_toDigits_le_iff (by decide) hk]

end AsmAssist.Decimal
