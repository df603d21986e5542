import AsmAssist.Proofs.Pattern.Element

/- Carrying out the elements of a pattern. A text is read as a pattern if and only if it splits into
   elements and these, carried out one after another, leave no group open. -/

namespace AsmAssist.Pattern.Reader

/-- The elements that a text consists of. -/
inductive Elements : Text → List Element → Prop
  | nil : Elements [] []
  | cons {here rest : Text} {e : Element} {es : List Element} :
      element? here = some (e, rest) → Elements rest es → Elements here (e :: es)

theorem Elements.unique {here : Text} {es es' : List Element} (h : Elements here es)
    (h' : Elements here es') : es = es' := by
  induction h generalizing es' with
  | nil =>
      cases h' with
      | nil => rfl
      | cons helement _ => cases helement
  | cons helement _ ih =>
      cases h' with
      | nil => cases helement
      | cons helement' hrest' =>
          rw [helement] at helement'
          cases helement'
          rw [ih hrest']

/-- Wraps the last item, unless counts multiply beyond the limit. -/
def State.repeat? (s : State) (wrap : Pattern → Pattern) : Option State :=
  match s.level.items with
  | [] => none
  | p :: items =>
      let counted := match wrap p with
        | .repeated _ least most => 2 ≤ least || 2 ≤ most.getD 0
        | _ => false
      if counted && !(wrap p).countsWithin countLimit then none
      else some { s with level := { s.level with items := wrap p :: items } }

/-- The state after an element. A repetition directly behind another has nothing to repeat. -/
def act (s : State) (repeated : Bool) : Element → Option State
  | .literal code => some (s.literal code)
  | .quotation quoted _ => some (quoted.foldl (fun s c => s.literal c.toNat) s)
  | .any => some (s.push (if s.flags.dotAll then anyChar else anyButNewline))
  | .start => some (s.push (.assertion (if s.flags.multiline then .lineStart else .textStart)))
  | .stop => some (s.push (.assertion (if s.flags.multiline then .lineEnd else .textEnd)))
  | .assertion condition => some (s.push (.assertion condition))
  | .set set => some (s.push (.oneOf { set with folds := s.flags.folds }))
  | .bar => some { s with level := s.level.finishAlternative }
  | .opening captures => some (s.openLevel captures)
  | .settings change opens =>
      some { (if opens then s.openLevel false else s) with flags := change s.flags }
  | .closing => (closeGroup [] s).toOption
  | .repetition wrap => if repeated then none else s.repeat? wrap

def run (s : State) (repeated : Bool) : List Element → Option State
  | [] => some s
  | e :: es => (act s repeated e).bind fun next => run next e.isRepetition es

/-! ### One element -/

/-- What a step leaves behind, without the texts that only faults report. -/
def Step.outcome (next : Step) : State × Text × Bool := (next.state, next.rest, next.repetition.isSome)

/-- Carries out an element that was found with the text behind it. -/
def carryOut (s : State) (repeated : Bool) (found : Element × Text) : Option (State × Text × Bool) :=
  (act s repeated found.1).map fun next => (next, found.2, found.1.isRepetition)

theorem repeatLast_eq (s : State) (wrap : Pattern → Pattern) (here after : Text) (last : Option Text) :
    (repeatLast s wrap here after last).toOption =
      (act s last.isSome (.repetition wrap)).map fun next => (next, behindRepetition after) := by
  cases last with
  | some operator => rfl
  | none =>
      simp only [repeatLast, act, State.repeat?, Option.isSome_none, Bool.false_eq_true, if_false]
      cases s.level.items with
      | nil => rfl
      | cons p items =>
          dsimp only
          generalize wrap p = body
          cases body with
          | repeated body least most =>
              dsimp only
              split_ifs <;> rfl
          | _ => rfl

theorem openGroup_eq (s : State) (repeated : Bool) (here : Text) :
    (openGroup s here).toOption.map (Step.outcome ∘ Step.plain) =
      (opening? here).bind (carryOut s repeated) := by
  unfold openGroup
  split
  · next inner =>
      simp only [opening?]
      cases groupName _ inner <;> rfl
  · next inner =>
      simp only [opening?]
      cases groupName _ inner <;> rfl
  · next inner hname hshort =>
      have hflags := groupFlags_eq ('(' :: '?' :: inner) s.flags false false inner
      rw [opening?_settings hname hshort]
      cases hchanges : groupChanges? false false inner with
      | none =>
          rw [hchanges] at hflags
          cases hstart : groupFlags ('(' :: '?' :: inner) s.flags false false inner with
          | error e => rfl
          | ok start => simp [hstart, Except.toOption] at hflags
      | some changes =>
          rw [hchanges] at hflags
          rw [Outcome.toOption_eq_some.mp hflags]
          rfl
  · next hnamed hshort hflags =>
      unfold opening?
      split
      · exact absurd rfl (hnamed _)
      · exact absurd rfl (hshort _)
      · exact absurd rfl (hflags _)
      · rfl

theorem backslash_eq (s : State) (repeated : Bool) (here : Text) :
    (backslash s here).toOption.map (Step.outcome ∘ Step.plain) =
      (backslashed? here).bind (carryOut s repeated) := by
  unfold backslash
  split
  · rfl
  · rfl
  · rfl
  · rfl
  · rfl
  · next inner =>
      simp only [backslashed?]
      cases cutAtPair '\\' 'E' inner <;> rfl
  · next hA hb hB hC hz hQ =>
      rw [backslashed?_eq_escaped?]
      · unfold escaped?
        cases escapedSet? here with
        | none => cases escape here <;> rfl
        | some result => cases result <;> rfl
      · rintro c more rfl
        exact not_mem_specialLetters hA hb hB hC hz hQ

/-- The characters that stand for more than themselves. -/
def operators : List Char := ['(', '|', ')', '^', '$', '.', '[', '*', '+', '?', '\x7b', '\\']

theorem element?_plain {c : Char} (hc : c ∉ operators) (here : Text) :
    element? (c :: here) = some (.literal c.toNat, here) := by
  unfold element?
  dsimp only
  split
  iterate 12 exact absurd (by decide) hc
  rfl

/-- A step carries out the element at the start of the text. -/
theorem step_eq (whole : Text) (s : State) (last : Option Text) (c : Char) (here : Text) :
    (step whole s last (c :: here)).toOption.map Step.outcome =
      (element? (c :: here)).bind (carryOut s last.isSome) := by
  have hrepeat : ∀ (wrap : Pattern → Pattern) (after : Text),
      ((repeatLast s wrap (c :: here) after last).bind fun found =>
        (.ok ⟨found.1, found.2, some (c :: here)⟩ : Result Step)).toOption.map Step.outcome =
      (act s last.isSome (.repetition wrap)).map fun next => (next, behindRepetition after, true) := by
    intro wrap after
    have heq := repeatLast_eq s wrap (c :: here) after last
    cases hlast : repeatLast s wrap (c :: here) after last with
    | error e =>
        rw [hlast] at heq
        rw [Option.map_eq_none_iff.mp heq.symm]
        rfl
    | ok result =>
        rw [hlast] at heq
        obtain ⟨next, hnext, rfl⟩ := Option.map_eq_some_iff.mp heq.symm
        rw [hnext]
        rfl
  unfold step
  dsimp only
  split
  · refine Eq.trans ?_ (openGroup_eq s last.isSome _)
    cases openGroup s ('(' :: here) <;> rfl
  · rfl
  · simp only [element?, Option.bind_some, carryOut, act, closeGroup]
    cases s.enclosing <;> rfl
  · rfl
  · rfl
  · rfl
  · rw [charClass_folds]
    simp only [element?]
    cases charClass false ('[' :: here) <;> rfl
  · exact hrepeat .star here
  · exact hrepeat .plus here
  · exact hrepeat .optional here
  · simp only [element?]
    cases bounds? ('\x7b' :: here) with
    | none => rfl
    | some found =>
        obtain ⟨bounds, after⟩ := found
        dsimp only
        cases bounds.check? with
        | none => rfl
        | some counts => exact hrepeat (.repeated · counts.1 counts.2) after
  · refine Eq.trans ?_ (backslash_eq s last.isSome _)
    cases backslash s ('\\' :: here) <;> rfl
  · next h₁ h₂ h₃ h₄ h₅ h₆ h₇ h₈ h₉ h₁₀ h₁₁ h₁₂ =>
      have hplain : c ∉ operators := by
        simp only [operators, List.mem_cons, List.not_mem_nil, or_false, not_or]
        exact ⟨h₁, h₂, h₃, h₄, h₅, h₆, h₇, h₈, h₉, h₁₀, h₁₁, h₁₂⟩
      rw [element?_plain hplain]
      rfl

/-! ### Whole texts -/

theorem step_ok {whole : Text} {s : State} {last : Option Text} {c : Char} {here : Text} {next : Step}
    (h : step whole s last (c :: here) = .ok next) :
    ∃ e, element? (c :: here) = some (e, next.rest) ∧ act s last.isSome e = some next.state ∧
      e.isRepetition = next.repetition.isSome := by
  have heq := step_eq whole s last c here
  rw [h] at heq
  obtain ⟨⟨e, rest⟩, helement, hcarried⟩ := Option.bind_eq_some_iff.mp heq.symm
  obtain ⟨state, hact, houtcome⟩ := Option.map_eq_some_iff.mp hcarried
  simp only [Step.outcome, Prod.mk.injEq] at houtcome
  obtain ⟨rfl, rfl, hrepetition⟩ := houtcome
  exact ⟨e, helement, hact, hrepetition⟩

theorem step_of_act {s state : State} {last : Option Text} {c : Char} {here rest : Text} {e : Element}
    (helement : element? (c :: here) = some (e, rest)) (hact : act s last.isSome e = some state)
    (whole : Text) : ∃ next, step whole s last (c :: here) = .ok next ∧ next.state = state ∧
      next.rest = rest ∧ next.repetition.isSome = e.isRepetition := by
  have heq := step_eq whole s last c here
  rw [helement, Option.bind_some, carryOut, hact] at heq
  obtain ⟨next, hnext, houtcome⟩ := Option.map_eq_some_iff.mp heq
  simp only [Step.outcome, Prod.mk.injEq] at houtcome
  obtain ⟨rfl, rfl, hrepetition⟩ := houtcome
  exact ⟨next, Outcome.toOption_eq_some.mp hnext, rfl, rfl, hrepetition⟩

theorem run_nil_iff {s t : State} {repeated : Bool} :
    (∃ es, Elements [] es ∧ run s repeated es = some t) ↔ s = t := by
  constructor
  · rintro ⟨es, hes, hrun⟩
    obtain rfl := hes.unique .nil
    exact Option.some.inj hrun
  · rintro rfl
    exact ⟨[], .nil, rfl⟩

/-- The loop carries out all elements of the text. -/
theorem loop_ok_iff {whole : Text} {fuel : Nat} {s t : State} {last : Option Text} {here : Text}
    (hfuel : here.length ≤ fuel) :
    loop whole fuel s last here = .ok t ↔
      ∃ es, Elements here es ∧ run s last.isSome es = some t := by
  -- On the fuel: every element takes some of the text.
  induction fuel generalizing s last here with
  | zero =>
      obtain rfl := List.length_eq_zero_iff.mp (Nat.le_zero.mp hfuel)
      exact Iff.trans ⟨Except.ok.inj, congrArg _⟩ run_nil_iff.symm
  | succ fuel ih =>
      cases here with
      | nil => exact Iff.trans ⟨Except.ok.inj, congrArg _⟩ run_nil_iff.symm
      | cons c here =>
          constructor
          · intro h
            obtain ⟨next, hstep, h⟩ := Outcome.bind_eq_ok.mp h
            obtain ⟨e, helement, hact, hrepetition⟩ := step_ok hstep
            have hshort := (element?_append helement).1
            obtain ⟨es, hes, hrun⟩ := (ih (by grind)).mp h
            refine ⟨e :: es, .cons helement hes, ?_⟩
            rw [run, hact, Option.bind_some, hrepetition, hrun]
          · rintro ⟨es, hes, hrun⟩
            cases hes with
            | cons helement hes =>
                obtain ⟨state, hact, hrun⟩ := Option.bind_eq_some_iff.mp hrun
                have hshort := (element?_append helement).1
                obtain ⟨next, hstep, rfl, rfl, hrepetition⟩ := step_of_act helement hact whole
                rw [← hrepetition] at hrun
                exact Outcome.bind_eq_ok.mpr ⟨next, hstep, (ih (by grind)).mpr ⟨_, hes, hrun⟩⟩

/-- A text is a pattern if its elements can be carried out and all groups are closed. -/
theorem read_ok_iff {text : Text} {p : Pattern} :
    read text = .ok p ↔ ∃ es t, Elements text es ∧ run .initial false es = some t ∧
      t.enclosing = [] ∧ t.level.body = p := by
  constructor
  · intro h
    obtain ⟨t, hloop, h⟩ := Outcome.bind_eq_ok.mp h
    obtain ⟨es, hes, hrun⟩ := (loop_ok_iff (Nat.le_refl _)).mp hloop
    split at h
    · cases h
    · next henclosing =>
        cases h
        exact ⟨es, t, hes, hrun, henclosing, rfl⟩
  · rintro ⟨es, t, hes, hrun, henclosing, rfl⟩
    have hloop : loop text text.length .initial none text = .ok t :=
      (loop_ok_iff (Nat.le_refl _)).mpr ⟨es, hes, hrun⟩
    exact Outcome.bind_eq_ok.mpr ⟨t, hloop, by rw [henclosing]⟩

theorem Elements.read_ok_iff {text : Text} {es : List Element} (hes : Elements text es) {p : Pattern} :
    read text = .ok p ↔ ∃ t, run .initial false es = some t ∧
      t.enclosing = [] ∧ t.level.body = p := by
  rw [Reader.read_ok_iff]
  constructor
  · rintro ⟨es', t, hes', h⟩
    obtain rfl := hes.unique hes'
    exact ⟨t, h⟩
  · rintro ⟨t, h⟩
    exact ⟨es, t, hes, h⟩

end AsmAssist.Pattern.Reader
