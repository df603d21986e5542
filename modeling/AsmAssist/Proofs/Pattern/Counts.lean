import AsmAssist.Proofs.Pattern.Run

/- What it takes to carry out the elements of a pattern. An element fails where a group is missing, where
   there is nothing to repeat or where counts multiply beyond the limit, and none of this depends on the
   settings. So a text that can be read can be read under any settings. -/

namespace AsmAssist.Pattern

/-- The limits that the counts of a pattern stay within. -/
def counts (p : Pattern) : Nat → Bool := fun limit => p.countsWithin limit

/-- The limits that all of some patterns stay within. -/
def allCounts (members : List (Nat → Bool)) : Nat → Bool := fun limit => members.all (· limit)

theorem counts_sequence (ps : List Pattern) : (sequence ps).counts = allCounts (ps.map counts) := by
  funext limit
  induction ps with
  | nil => rfl
  | cons p rest ih =>
      cases rest with
      | nil => exact (Bool.and_true _).symm
      | cons q rest =>
          have hjoin : (sequence (p :: q :: rest)).counts limit =
              (p.counts limit && (sequence (q :: rest)).counts limit) := by
            simp only [sequence, counts]
            -- Two neighbouring texts hold no counts, apart or as one.
            split
            · split <;> simp [countsWithin, *]
            · split <;> simp [countsWithin, *]
            · rfl
          rw [hjoin, ih]
          rfl

theorem counts_choice (ps : List Pattern) : (choice ps).counts = allCounts (ps.map counts) := by
  funext limit
  induction ps with
  | nil => rfl
  | cons p rest ih =>
      cases rest with
      | nil => exact (Bool.and_true _).symm
      | cons q rest =>
          have hjoin : (choice (p :: q :: rest)).counts limit =
              (p.counts limit && (choice (q :: rest)).counts limit) := rfl
          rw [hjoin, ih]
          rfl

namespace Reader

/-- What decides whether elements can be carried out: the counts of the alternatives and of the items of a
    level. -/
def Level.counts (level : Level) : List (Nat → Bool) × List (Nat → Bool) :=
  (level.alternatives.map Pattern.counts, level.items.map Pattern.counts)

def State.counts (s : State) :
    (List (Nat → Bool) × List (Nat → Bool)) × List (List (Nat → Bool) × List (Nat → Bool)) :=
  (s.level.counts, s.enclosing.map Level.counts)

theorem finishAlternative_counts (level : Level) : level.finishAlternative.counts =
    (allCounts level.counts.2.reverse :: level.counts.1, []) := by
  simp only [Level.finishAlternative, Level.counts, List.map_cons, counts_sequence, List.map_reverse,
    List.map_nil]

theorem body_counts (level : Level) : level.body.counts =
    allCounts (allCounts level.counts.2.reverse :: level.counts.1).reverse := by
  rw [Level.body, counts_choice, List.map_reverse]
  exact congrArg (fun members => allCounts members.1.reverse) (finishAlternative_counts level)

section

variable {s t : State}

theorem push_counts (h : s.counts = t.counts) {p q : Pattern} (hpq : p.counts = q.counts) :
    (s.push p).counts = (t.push q).counts := by
  simp only [State.counts, Level.counts, Prod.mk.injEq] at h
  obtain ⟨⟨halternatives, hitems⟩, henclosing⟩ := h
  simp only [State.counts, State.push, Level.push, Level.counts, List.map_cons, halternatives, hitems,
    henclosing, hpq]

theorem quotation_counts (h : s.counts = t.counts) (quoted : Text) :
    (quoted.foldl (fun s c => s.literal c.toNat) s).counts =
      (quoted.foldl (fun s c => s.literal c.toNat) t).counts := by
  induction quoted generalizing s t with
  | nil => exact h
  | cons c quoted ih => exact ih (push_counts h rfl)

theorem openLevel_counts (h : s.counts = t.counts) (captures : Bool) :
    (s.openLevel captures).counts = (t.openLevel captures).counts := by
  obtain ⟨hlevel, henclosing⟩ := Prod.mk.inj h
  simp only [State.counts, State.openLevel, List.map_cons, hlevel, henclosing]
  rfl

theorem closeGroup_counts (h : s.counts = t.counts) :
    (closeGroup [] s).toOption.map State.counts = (closeGroup [] t).toOption.map State.counts := by
  obtain ⟨hlevel, henclosing⟩ := Prod.mk.inj h
  unfold closeGroup
  cases hs : s.enclosing with
  | nil =>
      rw [hs] at henclosing
      rw [List.map_eq_nil_iff.mp henclosing.symm]
  | cons outer enclosing =>
      rw [hs] at henclosing
      obtain ⟨outer', enclosing', ht, houter, hrest⟩ := List.map_eq_cons_iff.mp henclosing.symm
      rw [ht]
      have hbody : s.level.body.counts = t.level.body.counts := by
        rw [body_counts, body_counts, hlevel]
      have hgroup : ∀ (level : Level), (if level.captures then Pattern.group level.body
          else level.body).counts = level.body.counts := by
        intro level
        cases level.captures <;> rfl
      have hpushed := @push_counts ⟨s.level.outer, outer, enclosing⟩ ⟨t.level.outer, outer', enclosing'⟩
        (by simp only [State.counts, houter, hrest]) _ _
        ((hgroup s.level).trans (hbody.trans (hgroup t.level).symm))
      exact congrArg some hpushed

end

/-- What a repetition makes of an item. -/
inductive Wraps : (Pattern → Pattern) → Prop
  | star : Wraps .star
  | plus : Wraps .plus
  | optional : Wraps .optional
  | repeated (least : Nat) (most : Option Nat) : Wraps (.repeated · least most)

theorem isRepetition_of_map {α : Type} {found : Option α} {make : α → Element × Text}
    (hmake : ∀ a, (make a).1.isRepetition = false) {e : Element} {rest : Text}
    (h : found.map make = some (e, rest)) : e.isRepetition = false := by
  obtain ⟨a, -, ha⟩ := Option.map_eq_some_iff.mp h
  have hrepetition := hmake a
  rwa [ha] at hrepetition

theorem isRepetition_of_opening? {here rest : Text} {e : Element} (h : opening? here = some (e, rest)) :
    e.isRepetition = false := by
  unfold opening? at h
  split at h
  · exact isRepetition_of_map (fun _ => rfl) h
  · exact isRepetition_of_map (fun _ => rfl) h
  · exact isRepetition_of_map (fun _ => rfl) h
  · cases h
    rfl

theorem isRepetition_of_escaped? {here rest : Text} {e : Element} (h : escaped? here = some (e, rest)) :
    e.isRepetition = false := by
  unfold escaped? at h
  split at h
  · exact isRepetition_of_map (fun _ => rfl) h
  · exact isRepetition_of_map (fun _ => rfl) h

theorem isRepetition_of_backslashed? {here rest : Text} {e : Element}
    (h : backslashed? here = some (e, rest)) : e.isRepetition = false := by
  unfold backslashed? at h
  split at h
  · cases h
    rfl
  · cases h
    rfl
  · cases h
    rfl
  · cases h
  · cases h
    rfl
  · split at h
    · cases h
      rfl
    · cases h
      rfl
  · exact isRepetition_of_escaped? h

theorem wraps_of_element? {here rest : Text} {wrap : Pattern → Pattern}
    (h : element? here = some (.repetition wrap, rest)) : Wraps wrap := by
  cases here with
  | nil => cases h
  | cons c here =>
      unfold element? at h
      dsimp only at h
      split at h
      · exact nomatch isRepetition_of_opening? h
      · cases h
      · cases h
      · cases h
      · cases h
      · cases h
      · exact nomatch isRepetition_of_map (fun _ => rfl) h
      · cases h
        exact .star
      · cases h
        exact .plus
      · cases h
        exact .optional
      · split at h
        · cases h
        · obtain ⟨counts, _, heq⟩ := Option.map_eq_some_iff.mp h
          cases heq
          exact .repeated _ _
      · exact nomatch isRepetition_of_backslashed? h
      · cases h

theorem Elements.wraps {here : Text} {es : List Element} (h : Elements here es) :
    ∀ wrap, .repetition wrap ∈ es → Wraps wrap := by
  induction h with
  | nil => exact nofun
  | cons helement _ ih =>
      intro wrap hwrap
      rcases List.mem_cons.mp hwrap with rfl | hwrap
      · exact wraps_of_element? helement
      · exact ih wrap hwrap

theorem Wraps.counts {wrap : Pattern → Pattern} (h : Wraps wrap) {p q : Pattern}
    (hpq : p.counts = q.counts) : (wrap p).counts = (wrap q).counts := by
  cases h with
  | star => exact hpq
  | plus => exact hpq
  | optional => exact hpq
  | repeated least most =>
      funext limit
      have hwithin : ∀ limit, p.countsWithin limit = q.countsWithin limit := congrFun hpq
      simp only [Pattern.counts, countsWithin, hwithin]

theorem repeat?_counts {s t : State} (h : s.counts = t.counts) {wrap : Pattern → Pattern}
    (hwrap : Wraps wrap) :
    (s.repeat? wrap).map State.counts = (t.repeat? wrap).map State.counts := by
  simp only [State.counts, Level.counts, Prod.mk.injEq] at h
  obtain ⟨⟨halternatives, hitems⟩, henclosing⟩ := h
  unfold State.repeat?
  cases hs : s.level.items with
  | nil =>
      rw [hs] at hitems
      rw [List.map_eq_nil_iff.mp hitems.symm]
  | cons p items =>
      rw [hs] at hitems
      obtain ⟨q, items', ht, hpq, hrest⟩ := List.map_eq_cons_iff.mp hitems.symm
      have hwrapped := hwrap.counts hpq.symm
      have hwithin : (wrap p).countsWithin countLimit = (wrap q).countsWithin countLimit :=
        congrFun hwrapped countLimit
      have hrepeated : ∀ counted : Bool,
          (if counted && !(wrap p).countsWithin countLimit then none
            else some { s with level := { s.level with items := wrap p :: items } }).map State.counts =
          (if counted && !(wrap q).countsWithin countLimit then none
            else some { t with level := { t.level with items := wrap q :: items' } }).map
              State.counts := by
        intro counted
        rw [hwithin]
        split
        · rfl
        · simp only [Option.map_some, State.counts, Level.counts, List.map_cons, halternatives,
            henclosing, hwrapped, hrest]
      rw [ht]
      -- Whether a repetition is counted shows without the item.
      cases hwrap with
      | star => exact hrepeated false
      | plus => exact hrepeated false
      | optional => exact hrepeated false
      | repeated least most => exact hrepeated _

/-- An element can be carried out in one state if it can in another with the same counts, and it leaves
    the same counts behind. -/
theorem act_counts {s t : State} (h : s.counts = t.counts) (repeated : Bool) {e : Element}
    (hwraps : ∀ wrap, e = .repetition wrap → Wraps wrap) :
    (act s repeated e).map State.counts = (act t repeated e).map State.counts := by
  cases e with
  | literal code => exact congrArg some (push_counts h rfl)
  | quotation quoted isClosed => exact congrArg some (quotation_counts h quoted)
  | any =>
      refine congrArg some (push_counts h ?_)
      cases s.flags.dotAll <;> cases t.flags.dotAll <;> rfl
  | start => exact congrArg some (push_counts h rfl)
  | stop => exact congrArg some (push_counts h rfl)
  | assertion condition => exact congrArg some (push_counts h rfl)
  | set set => exact congrArg some (push_counts h rfl)
  | bar =>
      obtain ⟨hlevel, henclosing⟩ := Prod.mk.inj h
      simp only [act, Option.map_some, State.counts, finishAlternative_counts, hlevel, henclosing]
  | opening captures => exact congrArg some (openLevel_counts h captures)
  | settings change opens =>
      cases opens with
      | true => exact congrArg some (openLevel_counts h false)
      | false => exact congrArg some h
  | closing => exact closeGroup_counts h
  | repetition wrap =>
      cases repeated with
      | true => rfl
      | false => exact repeat?_counts h (hwraps wrap rfl)

theorem run_counts {s t : State} (h : s.counts = t.counts) {repeated : Bool} {es : List Element}
    (hwraps : ∀ wrap, .repetition wrap ∈ es → Wraps wrap) {s' : State}
    (hrun : run s repeated es = some s') :
    ∃ t', run t repeated es = some t' ∧ s'.counts = t'.counts := by
  induction es generalizing s t repeated with
  | nil =>
      cases hrun
      exact ⟨t, rfl, h⟩
  | cons e es ih =>
      obtain ⟨next, hact, hrun⟩ := Option.bind_eq_some_iff.mp hrun
      have hsame := act_counts h repeated fun wrap hwrap => hwraps wrap (hwrap ▸ List.mem_cons_self)
      rw [hact] at hsame
      obtain ⟨next', hact', hnext⟩ := Option.map_eq_some_iff.mp hsame.symm
      obtain ⟨t', hrun', hcounts⟩ :=
        ih hnext.symm (fun wrap hwrap => hwraps wrap (List.mem_cons_of_mem _ hwrap)) hrun
      refine ⟨t', ?_, hcounts⟩
      rw [run, hact', Option.bind_some, hrun']

end Reader

end AsmAssist.Pattern
