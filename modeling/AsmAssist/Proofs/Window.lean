import AsmAssist.Sequence

/- Windows of a list. A search compares the pattern with one window after the other, element by
   element, and asks for no place outside of the list; it ends at the leftmost place where the
   pattern occurs. -/

namespace AsmAssist.Sequence

variable {α β ε : Type} {pattern : List β} {xs : List α} {i : Nat}

/-- The pattern occurs at place `i`: its window ends within the list, and each of its elements is
    hit by the element at the same offset. -/
structure OccursAt (hit : α → β → Bool) (pattern : List β) (xs : List α) (i : Nat) : Prop where
  nonempty : pattern ≠ []
  fits : i + pattern.length ≤ xs.length
  hits : ∀ j (hj : j < pattern.length), hit xs[i + j] pattern[j] = true

instance {hit : α → β → Bool} : Decidable (OccursAt hit pattern xs i) :=
  decidable_of_iff
    (pattern ≠ [] ∧ ∃ _ : i + pattern.length ≤ xs.length,
      ∀ j (hj : j < pattern.length), hit xs[i + j] pattern[j] = true)
    ⟨fun ⟨hne, hfits, hhits⟩ => ⟨hne, hfits, hhits⟩, fun h => ⟨h.nonempty, h.fits, h.hits⟩⟩

/-- The reader gives the elements of the list at their places; outside of the list it may fail or
    give anything. -/
def Supplies (read : Nat → Except ε α) (xs : List α) : Prop :=
  ∀ k (hk : k < xs.length), read k = .ok xs[k]

theorem elementAt_supplies (xs : List α) : Supplies (elementAt xs.toArray) xs := by
  intro k hk
  simp only [elementAt, List.getElem?_toArray, List.getElem?_eq_getElem hk]

section Search

variable {read : Nat → Except ε α} (hread : Supplies read xs) (hit : α → β → Bool)
include hread

/-- A window that ends within the list is compared without a failing read. -/
theorem hitsAt_of_fits (hfits : i + pattern.length ≤ xs.length) :
    ∃ matched, hitsAt hit read i pattern = .ok matched ∧
      (matched = true ↔ ∀ j (hj : j < pattern.length), hit xs[i + j] pattern[j] = true) := by
  induction pattern generalizing i with
  | nil => exact ⟨true, rfl, fun _ j hj => absurd hj (Nat.not_lt_zero j), fun _ => rfl⟩
  | cons p ps ih =>
      rw [List.length_cons] at hfits
      have hstep : hitsAt hit read i (p :: ps) =
          if hit xs[i] p then hitsAt hit read (i + 1) ps else .ok false := by
        rw [hitsAt, hread i (by omega)]
        rfl
      cases hx : hit xs[i] p with
      | false =>
          refine ⟨false, by rw [hstep, hx]; rfl, ?_, ?_⟩
          · intro h
            cases h
          · intro h
            exact hx.symm.trans (h 0 (Nat.zero_lt_succ _))
      | true =>
          obtain ⟨matched, hrest, hmatched⟩ := @ih (i + 1) (by omega)
          refine ⟨matched, by rw [hstep, hx]; exact hrest, ?_⟩
          rw [hmatched]
          -- The rest of the window starts one place on, so its offsets are one less.
          constructor
          · intro h j hj
            cases j with
            | zero => exact hx
            | succ j =>
                have hhit := h j (Nat.lt_of_succ_lt_succ hj)
                simpa only [List.getElem_cons_succ, Nat.add_assoc, Nat.add_comm 1] using hhit
          · intro h j hj
            have hhit := h (j + 1) (Nat.succ_lt_succ hj)
            simpa only [List.getElem_cons_succ, Nat.add_assoc, Nat.add_comm 1] using hhit

/-- One step of the search. -/
theorem hitsAt_eq_occursAt (hne : pattern ≠ []) (hfits : i + pattern.length ≤ xs.length) :
    hitsAt hit read i pattern = .ok (decide (OccursAt hit pattern xs i)) := by
  obtain ⟨matched, hrun, hmatched⟩ := hitsAt_of_fits hread hit hfits
  have hoccurs : matched = true ↔ OccursAt hit pattern xs i :=
    hmatched.trans ⟨fun hhits => ⟨hne, hfits, hhits⟩, OccursAt.hits⟩
  rw [hrun, Bool.eq_iff_iff.mpr (hoccurs.trans decide_eq_true_iff.symm)]

/-- A run of the search takes its places in order. No window at one of them leaves the list, so no
    step of the run fails. -/
theorem searchFrom_eq_find? (hne : pattern ≠ []) {places : Nat}
    (hfits : ∀ k < i + places, k + pattern.length ≤ xs.length) :
    searchFrom hit pattern read i places =
      .ok ((List.range' i places).find? fun k => decide (OccursAt hit pattern xs k)) := by
  induction places generalizing i with
  | zero => rfl
  | succ places ih =>
      have hstep := hitsAt_eq_occursAt hread hit hne (hfits i (by omega))
      have hrest := @ih (i + 1) fun k hk => hfits k (by omega)
      rw [searchFrom, hstep, List.range'_succ, List.find?_cons]
      cases decide (OccursAt hit pattern xs i) with
      | true => rfl
      | false => exact hrest

theorem search_eq_find? (pattern : List β) :
    search hit pattern read xs.length =
      .ok ((List.range (xs.length + 1 - pattern.length)).find? fun k =>
        decide (OccursAt hit pattern xs k)) := by
  by_cases hne : pattern = []
  · have hnone : (List.range (xs.length + 1 - pattern.length)).find?
        (fun k => decide (OccursAt hit pattern xs k)) = none :=
      List.find?_eq_none.mpr fun k _ h => (of_decide_eq_true h).nonempty hne
    rw [hnone, search, hne]
    rfl
  · have hfits : ∀ k < 0 + (xs.length + 1 - pattern.length), k + pattern.length ≤ xs.length := by
      intro k hk
      omega
    rw [search, if_neg (by simpa only [List.isEmpty_iff] using hne), List.range_eq_range',
      searchFrom_eq_find? hread hit hne hfits]

end Search

theorem window?_eq_find? (hit : α → β → Bool) (pattern : List β) (xs : List α) :
    window? hit pattern xs =
      (List.range (xs.length + 1 - pattern.length)).find? fun k =>
        decide (OccursAt hit pattern xs k) := by
  simp only [window?, List.size_toArray, search_eq_find? (elementAt_supplies xs)]

theorem window?_eq_some_iff {hit : α → β → Bool} :
    window? hit pattern xs = some i ↔
      OccursAt hit pattern xs i ∧ ∀ k < i, ¬ OccursAt hit pattern xs k := by
  simp only [window?_eq_find?, List.find?_range_eq_some, List.mem_range, decide_eq_true_eq,
    Bool.not_eq_true', decide_eq_false_iff_not]
  constructor
  · rintro ⟨hoccurs, -, hfirst⟩
    exact ⟨hoccurs, hfirst⟩
  · rintro ⟨hoccurs, hfirst⟩
    have hfits := hoccurs.fits
    exact ⟨hoccurs, by omega, hfirst⟩

theorem window?_eq_none_iff {hit : α → β → Bool} :
    window? hit pattern xs = none ↔ ∀ i, ¬ OccursAt hit pattern xs i := by
  simp only [window?_eq_find?, List.find?_range_eq_none, Bool.not_eq_true',
    decide_eq_false_iff_not]
  constructor
  · intro hmiss i hoccurs
    have hfits := hoccurs.fits
    exact hmiss i (by omega) hoccurs
  · intro hmiss i _
    exact hmiss i

/-- A search finds a place exactly if it is the first at which the pattern occurs, and none exactly
    if there is none. Any reader of the list leads to the same answer, so no place outside of the
    list is asked for. -/
theorem search_finds_leftmost (hit : α → β → Bool) (pattern : List β) (xs : List α) :
    (∀ i, window? hit pattern xs = some i ↔
      OccursAt hit pattern xs i ∧ ∀ k < i, ¬ OccursAt hit pattern xs k) ∧
    (window? hit pattern xs = none ↔ ∀ i, ¬ OccursAt hit pattern xs i) ∧
    (∀ {ε : Type} (read : Nat → Except ε α), Supplies read xs →
      search hit pattern read xs.length = .ok (window? hit pattern xs)) := by
  refine ⟨fun i => window?_eq_some_iff, window?_eq_none_iff, ?_⟩
  intro ε read hread
  rw [search_eq_find? hread, window?_eq_find?]

/-- The last window of the list, behind one that misses by its last element only. -/
theorem last_window_found :
    OccursAt (· == ·) [1, 1, 2] [1, 1, 1, 2] 1 ∧ ¬ OccursAt (· == ·) [1, 1, 2] [1, 1, 1, 2] 0 ∧
      Supplies (elementAt #[1, 1, 1, 2]) [1, 1, 1, 2] ∧
      search (· == ·) [1, 1, 2] (elementAt #[1, 1, 1, 2]) 4 = .ok (some 1) := by
  have hlast : OccursAt (· == ·) [1, 1, 2] [1, 1, 1, 2] 1 := by decide
  have hbefore : ∀ k < 1, ¬ OccursAt (· == ·) [1, 1, 2] [1, 1, 1, 2] k := by decide
  have hread := elementAt_supplies [1, 1, 1, 2]
  obtain ⟨hfound, -, hsearch⟩ := search_finds_leftmost (· == ·) [1, 1, 2] [1, 1, 1, 2]
  refine ⟨hlast, hbefore 0 Nat.one_pos, hread, ?_⟩
  rw [← (hfound 1).mpr ⟨hlast, hbefore⟩]
  exact hsearch _ hread

end AsmAssist.Sequence
