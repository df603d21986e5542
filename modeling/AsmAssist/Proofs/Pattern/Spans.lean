import AsmAssist.Pattern.Match
import Mathlib.Data.List.Basic
import Mathlib.Logic.Relation

/- What patterns match, said without places to go through. A pattern spans a part of a text, given by
   the places where the part starts and ends; the search for places finds all parts that are spanned
   and no others, however often a repetition goes round. -/

namespace AsmAssist.Pattern

open Relation (ReflTransGen)

/-- One step after another, a number of times. -/
def Steps (r : Nat → Nat → Prop) : Nat → Nat → Nat → Prop
  | 0, i, j => i = j
  | n + 1, i, j => ∃ k, r i k ∧ Steps r n k j

/-- The character behind a place is accepted. -/
def Takes (input : Input) (accepts : Nat → Bool) (i j : Nat) : Prop :=
  ∃ n, input[i]? = some n ∧ accepts n = true ∧ j = i + 1

/-- The characters behind a place are the given ones. -/
def Spells (input : Input) (folds : Bool) : List Nat → Nat → Nat → Prop
  | [], i, j => i = j
  | code :: codes, i, j =>
      ∃ k, Takes input (acceptsCode folds code) i k ∧ Spells input folds codes k j

/-- The text from one place to another matches a pattern. Bounds that cross stand for the least. -/
def Spans (input : Input) : Pattern → Nat → Nat → Prop
  | .empty, i, j => i = j
  | .text codes folds, i, j => Spells input folds codes i j
  | .oneOf set, i, j => Takes input set.accepts i j
  | .assertion condition, i, j => i = j ∧ condition.holds input i = true
  | .group p, i, j => Spans input p i j
  | .seq p q, i, j => ∃ k, Spans input p i k ∧ Spans input q k j
  | .alt p q, i, j => Spans input p i j ∨ Spans input q i j
  | .star p, i, j => ReflTransGen (Spans input p) i j
  | .plus p, i, j => ∃ k, Spans input p i k ∧ ReflTransGen (Spans input p) k j
  | .optional p, i, j => i = j ∨ Spans input p i j
  | .repeated p least most, i, j =>
      ∃ n, least ≤ n ∧ (∀ bound ∈ most, n ≤ max least bound) ∧ Steps (Spans input p) n i j

/-! ### Searches that follow a relation -/

/-- From places in the text, the search reaches exactly the places that are related to one of them, and
    they are places in the text. -/
structure Follows (input : Input) (search : List Nat → List Nat) (r : Nat → Nat → Prop) : Prop where
  inside : ∀ {i j}, r i j → i ≤ input.size → j ≤ input.size
  mem : ∀ {places : List Nat}, (∀ i ∈ places, i ≤ input.size) →
    ∀ j, j ∈ search places ↔ ∃ i ∈ places, r i j

namespace Follows

variable {input : Input} {search other : List Nat → List Nat} {r r' : Nat → Nat → Prop}

theorem reached_inside (h : Follows input search r) {places : List Nat}
    (hplaces : ∀ i ∈ places, i ≤ input.size) : ∀ j ∈ search places, j ≤ input.size := by
  intro j hj
  obtain ⟨i, hi, hr⟩ := (h.mem hplaces j).mp hj
  exact h.inside hr (hplaces i hi)

theorem stay : Follows input (fun places => places) (fun i j => i = j) where
  inside := fun h hi => h ▸ hi
  mem := fun _ j => by simp

theorem comp (h : Follows input search r) (h' : Follows input other r') :
    Follows input (fun places => other (search places)) (fun i j => ∃ k, r i k ∧ r' k j) where
  inside := by
    rintro i j ⟨k, hr, hr'⟩ hi
    exact h'.inside hr' (h.inside hr hi)
  mem := by
    intro places hplaces j
    rw [h'.mem (h.reached_inside hplaces)]
    constructor
    · rintro ⟨k, hk, hr'⟩
      obtain ⟨i, hi, hr⟩ := (h.mem hplaces k).mp hk
      exact ⟨i, hi, k, hr, hr'⟩
    · rintro ⟨i, hi, k, hr, hr'⟩
      exact ⟨k, (h.mem hplaces k).mpr ⟨i, hi, hr⟩, hr'⟩

theorem mem_union {xs ys : List Nat} {j : Nat} : j ∈ union xs ys ↔ j ∈ xs ∨ j ∈ ys := by
  by_cases hj : j ∈ xs <;> simp [union, hj]

theorem union (h : Follows input search r) (h' : Follows input other r') :
    Follows input (fun places => union (search places) (other places))
      (fun i j => r i j ∨ r' i j) where
  inside := by
    rintro i j (hr | hr) hi
    · exact h.inside hr hi
    · exact h'.inside hr hi
  mem := by
    intro places hplaces j
    rw [mem_union, h.mem hplaces, h'.mem hplaces]
    constructor
    · rintro (⟨i, hi, hr⟩ | ⟨i, hi, hr⟩)
      · exact ⟨i, hi, .inl hr⟩
      · exact ⟨i, hi, .inr hr⟩
    · rintro ⟨i, hi, hr | hr⟩
      · exact .inl ⟨i, hi, hr⟩
      · exact .inr ⟨i, hi, hr⟩

/-! ### Repetitions -/

/-- The places of the text that are not reached yet. -/
def missing (input : Input) (places : List Nat) : List Nat :=
  (List.range (input.size + 1)).filter fun i => !places.contains i

theorem missing_lt {places fresh : List Nat} {k : Nat} (hk : k ∈ fresh) (hnew : k ∉ places)
    (hinside : k ≤ input.size) :
    (missing input (places ++ fresh)).length < (missing input places).length := by
  have hsub : List.Sublist (missing input (places ++ fresh)) (missing input places) := by
    refine List.monotone_filter_right _ ?_
    intro i hi
    simp at hi ⊢
    exact hi.1
  refine Nat.lt_of_le_of_ne hsub.length_le ?_
  intro heq
  have hsame := hsub.eq_of_length heq
  have hmem : k ∈ missing input places := by
    simp [missing, hnew]
    omega
  rw [← hsame] at hmem
  simp [missing, hk] at hmem

/-- Places from which no new place is reached are all that is ever reached. -/
theorem mem_of_closed {places : List Nat} (hclosed : ∀ i ∈ places, ∀ j, r i j → j ∈ places) {i j : Nat}
    (hi : i ∈ places) (h : ReflTransGen r i j) : j ∈ places := by
  induction h with
  | refl => exact hi
  | tail _ hstep ih => exact hclosed _ ih _ hstep

theorem mem_closure (h : Follows input search r) {fuel : Nat} {places : List Nat}
    (hplaces : ∀ i ∈ places, i ≤ input.size) (hfuel : (missing input places).length ≤ fuel) (j : Nat) :
    j ∈ closure search fuel places ↔ ∃ i ∈ places, ReflTransGen r i j := by
  -- On the rounds: each reaches a new place, and there are no more places than rounds.
  induction fuel generalizing places with
  | zero =>
      have hall : ∀ i ≤ input.size, i ∈ places := by
        intro i hi
        by_contra hnew
        have hmem : i ∈ missing input places := by
          simp [missing, hnew]
          omega
        rw [List.length_eq_zero_iff.mp (Nat.le_zero.mp hfuel)] at hmem
        cases hmem
      have hclosed : ∀ i ∈ places, ∀ j, r i j → j ∈ places :=
        fun i hi j hr => hall j (h.inside hr (hplaces i hi))
      refine ⟨fun hj => ⟨j, hj, .refl⟩, ?_⟩
      rintro ⟨i, hi, hr⟩
      exact mem_of_closed hclosed hi hr
  | succ fuel ih =>
      simp only [closure]
      split
      · next hfresh =>
          have hclosed : ∀ i ∈ places, ∀ j, r i j → j ∈ places := by
            intro i hi j hr
            rw [List.isEmpty_iff, List.filter_eq_nil_iff] at hfresh
            simpa using hfresh j ((h.mem hplaces j).mpr ⟨i, hi, hr⟩)
          refine ⟨fun hj => ⟨j, hj, .refl⟩, ?_⟩
          rintro ⟨i, hi, hr⟩
          exact mem_of_closed hclosed hi hr
      · next hfresh =>
          have hreached : ∀ k, k ∈ ((search places).filter fun i => !places.contains i).eraseDups ↔
              k ∈ search places ∧ k ∉ places := by
            intro k
            simp
          generalize ((search places).filter fun i => !places.contains i).eraseDups = fresh at hreached
          obtain ⟨k, hk, hnew⟩ : ∃ k, k ∈ search places ∧ k ∉ places := by simpa using hfresh
          have hinside := h.reached_inside hplaces
          have hlt := missing_lt ((hreached k).mpr ⟨hk, hnew⟩) hnew (hinside k hk)
          have hmore : ∀ i ∈ places ++ fresh, i ≤ input.size := by
            intro i hi
            rcases List.mem_append.mp hi with hi | hi
            · exact hplaces i hi
            · exact hinside i ((hreached i).mp hi).1
          rw [ih hmore (by omega)]
          constructor
          · rintro ⟨i, hi, hr⟩
            rcases List.mem_append.mp hi with hi | hi
            · exact ⟨i, hi, hr⟩
            · obtain ⟨i₀, hi₀, hstep⟩ := (h.mem hplaces i).mp ((hreached i).mp hi).1
              exact ⟨i₀, hi₀, .head hstep hr⟩
          · rintro ⟨i, hi, hr⟩
            exact ⟨i, List.mem_append_left _ hi, hr⟩

theorem closure (h : Follows input search r) :
    Follows input (closure search (input.size + 1)) (ReflTransGen r) where
  inside := by
    intro i j hr hi
    induction hr with
    | refl => exact hi
    | tail _ hstep ih => exact h.inside hstep ih
  mem := by
    intro places hplaces j
    refine mem_closure h hplaces ?_ j
    exact Nat.le_trans (List.length_filter_le _ _) (by simp)

theorem times (h : Follows input search r) (n : Nat) : Follows input (times search n) (Steps r n) := by
  induction n with
  | zero => exact stay
  | succ n ih => exact h.comp ih

theorem mem_upTo (h : Follows input search r) {n : Nat} {places : List Nat}
    (hplaces : ∀ i ∈ places, i ≤ input.size) (j : Nat) :
    j ∈ upTo search n places ↔ ∃ m ≤ n, ∃ i ∈ places, Steps r m i j := by
  induction n generalizing places with
  | zero => simp [upTo, Steps]
  | succ n ih =>
      have hnext : (∃ m ≤ n + 1, ∃ i ∈ places, Steps r m i j) ↔
          j ∈ places ∨ ∃ m ≤ n, ∃ k ∈ search places, Steps r m k j := by
        constructor
        · rintro ⟨m, hm, i, hi, hr⟩
          cases m with
          | zero => exact .inl (hr ▸ hi)
          | succ m =>
              obtain ⟨k, hstep, hr⟩ := hr
              exact .inr ⟨m, by omega, k, (h.mem hplaces k).mpr ⟨i, hi, hstep⟩, hr⟩
        · rintro (hj | ⟨m, hm, k, hk, hr⟩)
          · exact ⟨0, Nat.zero_le _, j, hj, rfl⟩
          · obtain ⟨i, hi, hstep⟩ := (h.mem hplaces k).mp hk
            exact ⟨m + 1, by omega, i, hi, k, hstep, hr⟩
      rw [hnext, upTo]
      split
      · next hempty => simp [List.isEmpty_iff.mp hempty]
      · rw [mem_union, ih (h.reached_inside hplaces)]

theorem upTo (h : Follows input search r) (n : Nat) :
    Follows input (upTo search n) (fun i j => ∃ m ≤ n, Steps r m i j) where
  inside := fun ⟨m, _, hr⟩ hi => (h.times m).inside hr hi
  mem := by
    intro places hplaces j
    rw [mem_upTo h hplaces]
    constructor
    · rintro ⟨m, hm, i, hi, hr⟩
      exact ⟨i, hi, m, hm, hr⟩
    · rintro ⟨i, hi, m, hm, hr⟩
      exact ⟨m, hm, i, hi, hr⟩

theorem congr (h : Follows input search r) (hr : ∀ i j, r i j ↔ r' i j) : Follows input search r' := by
  have hsame : r = r' := funext fun i => funext fun j => propext (hr i j)
  exact hsame ▸ h

end Follows

/-! ### The places that a pattern leads to -/

variable {input : Input}

theorem follows_advance (accepts : Nat → Bool) :
    Follows input (advance input accepts) (Takes input accepts) where
  inside := by
    rintro i j ⟨n, hn, -, rfl⟩ -
    obtain ⟨hlt, -⟩ := Array.getElem?_eq_some_iff.mp hn
    exact hlt
  mem := by
    intro places _ j
    simp only [advance, List.mem_filterMap, Takes]
    constructor
    · rintro ⟨i, hi, hj⟩
      cases hn : input[i]? with
      | none => simp [hn] at hj
      | some n =>
          obtain ⟨haccepts, rfl⟩ : accepts n = true ∧ i + 1 = j := by simpa [hn] using hj
          exact ⟨i, hi, n, hn, haccepts, rfl⟩
    · rintro ⟨i, hi, n, hn, haccepts, rfl⟩
      exact ⟨i, hi, by simp [hn, haccepts]⟩

theorem follows_text (folds : Bool) (codes : List Nat) :
    Follows input (lead input (.text codes folds)) (Spells input folds codes) := by
  induction codes with
  | nil => exact .stay
  | cons code codes ih => exact (follows_advance _).comp ih

theorem steps_add (r : Nat → Nat → Prop) (m n i j : Nat) :
    Steps r (m + n) i j ↔ ∃ k, Steps r m i k ∧ Steps r n k j := by
  induction m generalizing i with
  | zero => simp [Steps]
  | succ m ih =>
      rw [Nat.succ_add, Steps]
      simp only [ih, Steps]
      constructor
      · rintro ⟨k, hr, l, hm, hn⟩
        exact ⟨l, ⟨k, hr, hm⟩, hn⟩
      · rintro ⟨l, ⟨k, hr, hm⟩, hn⟩
        exact ⟨k, hr, l, hm, hn⟩

/-- A number of steps, and some more of which the number is restricted. -/
theorem steps_more (r : Nat → Nat → Prop) (least : Nat) (more : Nat → Prop) (i j : Nat) :
    (∃ k, Steps r least i k ∧ ∃ m, more m ∧ Steps r m k j) ↔
      ∃ n, least ≤ n ∧ more (n - least) ∧ Steps r n i j := by
  constructor
  · rintro ⟨k, hk, m, hm, hj⟩
    refine ⟨least + m, Nat.le_add_right _ _, ?_, (steps_add r least m i j).mpr ⟨k, hk, hj⟩⟩
    rwa [Nat.add_sub_cancel_left]
  · rintro ⟨n, hle, hm, hj⟩
    rw [← Nat.add_sub_cancel' hle, steps_add] at hj
    obtain ⟨k, hk, hj⟩ := hj
    exact ⟨k, hk, n - least, hm, hj⟩

theorem reflTransGen_iff_steps (r : Nat → Nat → Prop) (i j : Nat) :
    ReflTransGen r i j ↔ ∃ n, True ∧ Steps r n i j := by
  constructor
  · intro h
    induction h using ReflTransGen.head_induction_on with
    | refl => exact ⟨0, trivial, rfl⟩
    | head hr _ ih =>
        obtain ⟨n, -, hn⟩ := ih
        exact ⟨n + 1, trivial, _, hr, hn⟩
  · rintro ⟨n, -, h⟩
    induction n generalizing i with
    | zero => exact h ▸ .refl
    | succ n ih =>
        obtain ⟨k, hr, hn⟩ := h
        exact .head hr (ih k hn)

/-- The search for places follows what the pattern spans. -/
theorem lead_follows_spans (p : Pattern) : Follows input (lead input p) (Spans input p) := by
  induction p with
  | empty => exact .stay
  | text codes folds => exact follows_text folds codes
  | oneOf set => exact follows_advance _
  | assertion condition =>
      refine ⟨fun h hi => h.1 ▸ hi, fun _ j => ?_⟩
      simp [lead, Spans]
  | group p ih => exact ih
  | seq p q ihp ihq => exact ihp.comp ihq
  | alt p q ihp ihq => exact ihp.union ihq
  | star p ih => exact ih.closure
  | plus p ih => exact ih.comp ih.closure
  | optional p ih => exact Follows.stay.union ih
  | repeated p least most ih =>
      cases most with
      | none =>
          refine ((ih.times least).comp ih.closure).congr fun i j => ?_
          simp only [reflTransGen_iff_steps (Spans input p), steps_more, Spans, Option.not_mem_none,
            false_implies, implies_true]
      | some most =>
          have hbound : ∀ n, least ≤ n → (n - least ≤ most - least ↔ n ≤ max least most) := by omega
          refine ((ih.times least).comp (ih.upTo (most - least))).congr fun i j => ?_
          rw [steps_more, Spans]
          refine exists_congr fun n => and_congr_right fun hle => and_congr_left fun _ => ?_
          simp [hbound n hle]

/-- The characters of a text, as the matcher reads them. -/
def characters (text : Bytes) : Input := (text.runes.map Char.toNat).toArray

/-- A pattern is found in a text if it spans some part of it. -/
theorem isIn_iff (p : Pattern) (text : Bytes) :
    p.isIn text = true ↔ ∃ i ≤ (characters text).size, ∃ j, Spans (characters text) p i j := by
  have hplaces : ∀ i ∈ List.range ((characters text).size + 1), i ≤ (characters text).size :=
    fun i hi => Nat.le_of_lt_succ (List.mem_range.mp hi)
  have hmem := (lead_follows_spans p).mem hplaces
  change (!(lead (characters text) p (List.range ((characters text).size + 1))).isEmpty) = true ↔ _
  rw [Bool.not_eq_true', ← Bool.not_eq_true, List.isEmpty_iff]
  constructor
  · intro hne
    obtain ⟨j, hj⟩ := List.exists_mem_of_ne_nil _ hne
    obtain ⟨i, hi, hspans⟩ := (hmem j).mp hj
    exact ⟨i, hplaces i hi, j, hspans⟩
  · rintro ⟨i, hi, j, hspans⟩
    exact List.ne_nil_of_mem ((hmem j).mpr ⟨i, List.mem_range.mpr (Nat.lt_succ_of_le hi), hspans⟩)

end AsmAssist.Pattern
