import AsmAssist.Proofs.Pattern.Counts

/- Patterns inside a group. The groups that a pattern opens and closes itself are carried out on top of
   the groups around it, which it neither sees nor changes. -/

namespace AsmAssist.Pattern.Reader

/-! ### Levels on top of others -/

/-- Puts the levels of a text on top of those around it. The lowest of them becomes that of a group, which
    closes to the settings before it. -/
def raise (outer : Flags) (around : List Level) : Level → List Level → Level × List Level
  | level, [] => ({ level with captures := false, outer }, around)
  | level, next :: rest =>
      let (next, rest) := raise outer around next rest
      (level, next :: rest)

variable {outer : Flags} {around : List Level}

def State.inside (outer : Flags) (around : List Level) (s : State) : State :=
  let (level, enclosing) := raise outer around s.level s.enclosing
  ⟨s.flags, level, enclosing⟩

/-- A state in which the current group consists of other items. -/
def State.fill (s : State) (alternatives items : List Pattern) : State :=
  { s with level := { s.level with alternatives, items } }

theorem inside_items (s : State) : (s.inside outer around).level.items = s.level.items := by
  obtain ⟨flags, level, enclosing⟩ := s
  cases enclosing <;> rfl

theorem inside_alternatives (s : State) :
    (s.inside outer around).level.alternatives = s.level.alternatives := by
  obtain ⟨flags, level, enclosing⟩ := s
  cases enclosing <;> rfl

theorem inside_fill (s : State) (alternatives items : List Pattern) :
    (s.fill alternatives items).inside outer around =
      (s.inside outer around).fill alternatives items := by
  obtain ⟨flags, level, enclosing⟩ := s
  cases enclosing <;> rfl

theorem inside_push (s : State) (p : Pattern) :
    (s.push p).inside outer around = (s.inside outer around).push p := by
  have hpush : ∀ s : State, s.push p = s.fill s.level.alternatives (p :: s.level.items) := fun _ => rfl
  rw [hpush, hpush, inside_fill, inside_alternatives, inside_items]

theorem inside_finishAlternative (s : State) :
    State.inside outer around { s with level := s.level.finishAlternative } =
      { s.inside outer around with level := (s.inside outer around).level.finishAlternative } := by
  have hfinish : ∀ s : State, { s with level := s.level.finishAlternative } =
      s.fill (sequence s.level.items.reverse :: s.level.alternatives) [] := fun _ => rfl
  rw [hfinish, hfinish, inside_fill, inside_alternatives, inside_items]

theorem inside_quotation (s : State) (quoted : Text) :
    (quoted.foldl (fun s c => s.literal c.toNat) s).inside outer around =
      quoted.foldl (fun s c => s.literal c.toNat) (s.inside outer around) := by
  induction quoted generalizing s with
  | nil => rfl
  | cons c quoted ih =>
      rw [List.foldl_cons, List.foldl_cons, ih, State.literal, inside_push]
      rfl

theorem inside_repeat? (s : State) (wrap : Pattern → Pattern) :
    (s.inside outer around).repeat? wrap = (s.repeat? wrap).map (State.inside outer around) := by
  unfold State.repeat?
  rw [inside_items]
  cases hitems : s.level.items with
  | nil => rfl
  | cons p items =>
      have hwrapped : (s.fill s.level.alternatives (wrap p :: items)).inside outer around =
          (s.inside outer around).fill (s.inside outer around).level.alternatives
            (wrap p :: items) := by
        rw [inside_fill, inside_alternatives]
      dsimp only
      split_ifs
      · rfl
      · exact congrArg some hwrapped.symm

/-- An element is carried out inside a group as it is on its own, unless it closes that group. -/
theorem act_inside {s : State} {repeated : Bool} {e : Element}
    (h : s.enclosing = [] → e ≠ .closing) :
    act (s.inside outer around) repeated e = (act s repeated e).map (State.inside outer around) := by
  cases e with
  | literal code => exact congrArg some (inside_push s _).symm
  | quotation quoted isClosed => exact congrArg some (inside_quotation s quoted).symm
  | any => exact congrArg some (inside_push s _).symm
  | start => exact congrArg some (inside_push s _).symm
  | stop => exact congrArg some (inside_push s _).symm
  | assertion condition => exact congrArg some (inside_push s _).symm
  | set set => exact congrArg some (inside_push s _).symm
  | bar => exact congrArg some (inside_finishAlternative s).symm
  | opening captures => rfl
  | settings change opens => cases opens <;> rfl
  | closing =>
      obtain ⟨flags, level, enclosing⟩ := s
      cases enclosing with
      | nil => exact absurd rfl (h rfl)
      | cons next enclosing => cases enclosing <;> rfl
  | repetition wrap =>
      cases repeated with
      | true => rfl
      | false => exact inside_repeat? s wrap

/-! ### Depth -/

/-- How many more groups are open behind the element. -/
def Element.opened : Element → Nat
  | .opening _ => 1
  | .settings _ opens => opens.toNat
  | _ => 0

def Element.closed : Element → Nat
  | .closing => 1
  | _ => 0

theorem quotation_enclosing (s : State) (quoted : Text) :
    (quoted.foldl (fun s c => s.literal c.toNat) s).enclosing = s.enclosing := by
  induction quoted generalizing s with
  | nil => rfl
  | cons c quoted ih => exact ih (s.literal c.toNat)

theorem repeat?_enclosing {s t : State} {wrap : Pattern → Pattern} (h : s.repeat? wrap = some t) :
    t.enclosing = s.enclosing := by
  unfold State.repeat? at h
  split at h
  · cases h
  · dsimp only at h
    split_ifs at h
    cases h
    rfl

/-- Every element opens and closes its own number of groups, whatever the state. -/
theorem act_depth {s t : State} {repeated : Bool} {e : Element} (h : act s repeated e = some t) :
    t.enclosing.length + e.closed = s.enclosing.length + e.opened := by
  cases e with
  | literal code | any | start | stop | assertion condition | set set | bar | opening captures =>
      cases h
      rfl
  | quotation quoted isClosed =>
      cases h
      rw [quotation_enclosing]
      rfl
  | settings change opens =>
      cases h
      cases opens <;> rfl
  | closing =>
      obtain ⟨flags, level, enclosing⟩ := s
      cases enclosing with
      | nil => cases h
      | cons next enclosing =>
          cases h
          rfl
  | repetition wrap =>
      cases repeated with
      | true => cases h
      | false =>
          rw [repeat?_enclosing h]
          rfl

theorem closing_enclosing {s t : State} {repeated : Bool} (h : act s repeated .closing = some t) :
    s.enclosing ≠ [] := by
  obtain ⟨flags, level, enclosing⟩ := s
  cases enclosing with
  | nil => cases h
  | cons next enclosing => exact List.cons_ne_nil _ _

/-- Elements that can be carried out on their own, with whatever settings, close no group around them.
    So inside a group they do what they do on their own. -/
theorem run_inside {es : List Element} {s s' t' : State} {repeated : Bool}
    (hown : run s' repeated es = some t') (hdepth : s.enclosing.length = s'.enclosing.length) :
    run (s.inside outer around) repeated es = (run s repeated es).map (State.inside outer around) ∧
      ∀ t, run s repeated es = some t → t.enclosing.length = t'.enclosing.length := by
  induction es generalizing s s' repeated with
  | nil =>
      cases hown
      refine ⟨rfl, ?_⟩
      rintro t ⟨⟩
      exact hdepth
  | cons e es ih =>
      obtain ⟨next', hact', hown⟩ := Option.bind_eq_some_iff.mp hown
      have hopen : s.enclosing = [] → e ≠ .closing := by
        rintro hnil rfl
        refine closing_enclosing hact' (List.length_eq_zero_iff.mp ?_)
        rw [← hdepth, hnil]
        rfl
      rw [run, run, act_inside hopen]
      cases hact : act s repeated e with
      | none =>
          refine ⟨rfl, ?_⟩
          intro t h
          cases h
      | some next =>
          have hnext := act_depth hact
          have hnext' := act_depth hact'
          exact ih hown (by omega)

/-! ### The text of a group -/

theorem Element.eq_open_quotation (e : Element) (h : ¬ e.isFinished = true) :
    ∃ quoted, e = .quotation quoted false := by
  cases e with
  | quotation quoted isClosed =>
      cases isClosed with
      | true => exact absurd rfl h
      | false => exact ⟨quoted, rfl⟩
  | _ => exact absurd rfl h

/-- Before the ending, the elements of a text are the same and the ending is two more, unless a quotation
    takes the ending in. -/
theorem Elements.append_ending {here : Text} {es : List Element} (h : Elements here es) :
    (∀ e ∈ es, e.isFinished = true) ∧ Elements (here ++ ending) (es ++ [.closing, .stop]) ∨
      ∃ before quoted, es = before ++ [.quotation quoted false] ∧
        Elements (here ++ ending) (before ++ [.quotation (quoted ++ ending) false]) := by
  induction h with
  | nil => exact .inl ⟨nofun, .cons rfl (.cons rfl .nil)⟩
  | @cons here rest e es helement hrest ih =>
      by_cases hfinished : e.isFinished = true
      · have hlocal := (element?_append helement).2 hfinished
        rcases ih with ⟨hall, hclosed⟩ | ⟨before, quoted, rfl, hopen⟩
        · exact .inl ⟨List.forall_mem_cons.mpr ⟨hfinished, hall⟩, .cons hlocal hclosed⟩
        · exact .inr ⟨e :: before, quoted, rfl, .cons hlocal hopen⟩
      · obtain ⟨quoted, rfl⟩ := e.eq_open_quotation hfinished
        obtain ⟨rfl, hlocal⟩ := element?_open helement
        obtain rfl := hrest.unique .nil
        exact .inr ⟨[], quoted, rfl, .cons hlocal .nil⟩

theorem run_append (repeated : Bool) (es es' : List Element) : ∃ repeated', ∀ s,
    run s repeated (es ++ es') = (run s repeated es).bind fun t => run t repeated' es' := by
  induction es generalizing repeated with
  | nil => exact ⟨repeated, fun _ => rfl⟩
  | cons e es ih =>
      obtain ⟨repeated', ih⟩ := ih e.isRepetition
      refine ⟨repeated', fun s => ?_⟩
      rw [List.cons_append, run, run, Option.bind_assoc]
      exact congrArg _ (funext ih)

/-! ### Anchored patterns -/

/-- The settings under which the case of letters does not matter. -/
def folded : Flags := { Flags.initial with folds := true }

/-- What is read before the text of an anchored pattern. -/
def foldCase : Element := .settings (fun flags => { flags with folds := true }) false

def foldedStart : State := { State.initial with flags := folded }

/-- The level around the group of an anchored pattern. -/
def anchor : Level := (Level.opened false .initial).push (.assertion .textStart)

theorem read_folded_iff {text : Text} {es : List Element} (h : Elements text es) {p : Pattern} :
    read ("(?i)".toList ++ text) = .ok p ↔ ∃ t, run foldedStart false es = some t ∧
      t.enclosing = [] ∧ t.level.body = p := by
  have hes : Elements ("(?i)".toList ++ text) (foldCase :: es) := .cons rfl h
  exact hes.read_ok_iff

/-- A pattern that can be read on its own can be read in either case. -/
theorem read_folded {text : Text} {own : Pattern} (h : read text = .ok own) :
    ∃ q, read ("(?i)".toList ++ text) = .ok q := by
  obtain ⟨es, ownEnd, hes, hown, henclosing, -⟩ := read_ok_iff.mp h
  obtain ⟨t, hrun, hcounts⟩ := @run_counts .initial foldedStart rfl _ _ hes.wraps _ hown
  have hclosed : t.enclosing = [] := by
    have hlevels := (Prod.mk.inj hcounts).2
    rw [henclosing] at hlevels
    exact List.map_eq_nil_iff.mp hlevels.symm
  exact ⟨_, (read_folded_iff hes).mpr ⟨t, hrun, hclosed, rfl⟩⟩

theorem read_around_iff {text : Text} {es : List Element} (h : Elements (text ++ ending) es)
    {p : Pattern} :
    read ("(?i)^(?:".toList ++ text ++ ")$".toList) = .ok p ↔
      ∃ t, run (foldedStart.inside folded [anchor]) false es = some t ∧
        t.enclosing = [] ∧ t.level.body = p := by
  have hes : Elements ("(?i)^(?:".toList ++ text ++ ")$".toList)
      (foldCase :: .start :: .settings id true :: es) := by
    rw [List.append_assoc]
    exact .cons rfl (.cons rfl (.cons rfl h))
  exact hes.read_ok_iff

end Reader

def anchored (p : Pattern) : Pattern := .seq (.assertion .textStart) (.seq p (.assertion .textEnd))

theorem sequence_anchored (p : Pattern) :
    sequence [.assertion .textStart, p, .assertion .textEnd] = p.anchored := by
  cases p <;> rfl

namespace Reader

theorem inside_enclosing {s : State} (h : s.enclosing = []) :
    (s.inside outer around).enclosing = around := by
  obtain ⟨flags, level, enclosing⟩ := s
  obtain rfl : enclosing = [] := h
  rfl

/-- The ending closes the group and anchors it. -/
theorem run_ending {t : State} (h : t.enclosing = []) (repeated : Bool) :
    ∃ final, run (t.inside folded [anchor]) repeated [.closing, .stop] = some final ∧
      final.enclosing = [] ∧ final.level.body = t.level.body.anchored := by
  obtain ⟨flags, level, enclosing⟩ := t
  obtain rfl : enclosing = [] := h
  exact ⟨_, rfl, rfl, sequence_anchored _⟩

/-- What is closed on its own is, inside a group, back at the level of the group. -/
theorem run_group {es : List Element} {own t : State} (hown : run .initial false es = some own)
    (hclosed : own.enclosing = [])
    (h : run (foldedStart.inside folded [anchor]) false es = some t) :
    ∃ t', run foldedStart false es = some t' ∧ t'.enclosing = [] ∧ t = t'.inside folded [anchor] := by
  obtain ⟨hinside, hdepth⟩ := @run_inside folded [anchor] es foldedStart _ _ _ hown rfl
  rw [hinside] at h
  obtain ⟨t', hrun, rfl⟩ := Option.map_eq_some_iff.mp h
  have hlength := hdepth t' hrun
  rw [hclosed] at hlength
  exact ⟨t', hrun, List.length_eq_zero_iff.mp hlength, rfl⟩

/-- How long a quotation is does not matter to the groups. -/
theorem run_longer {s t : State} {repeated : Bool} {before : List Element} {quoted : Text}
    (h : run s repeated (before ++ [.quotation quoted false]) = some t) (other : Text) :
    ∃ t', run s repeated (before ++ [.quotation other false]) = some t' ∧
      t'.enclosing = t.enclosing := by
  obtain ⟨_, happend⟩ := run_append repeated before [.quotation quoted false]
  obtain ⟨_, hother⟩ := run_append repeated before [.quotation other false]
  rw [happend] at h
  obtain ⟨middle, hbefore, hquoted⟩ := Option.bind_eq_some_iff.mp h
  obtain rfl := Option.some.inj hquoted
  rw [hother, hbefore]
  refine ⟨_, rfl, ?_⟩
  rw [quotation_enclosing, quotation_enclosing]

section

variable {text : Text} {es : List Element} {own : State} {p : Pattern}

theorem read_anchored_of_closed (hown : run .initial false es = some own) (hclosed : own.enclosing = [])
    (hes : Elements text es) (hending : Elements (text ++ ending) (es ++ [.closing, .stop])) :
    read ("(?i)^(?:".toList ++ text ++ ")$".toList) = .ok p ↔
      ∃ q, read ("(?i)".toList ++ text) = .ok q ∧ p = q.anchored := by
  obtain ⟨repeated, happend⟩ := run_append false es [.closing, .stop]
  simp only [read_around_iff hending, read_folded_iff hes, happend]
  constructor
  · rintro ⟨final, hrun, hfinal, rfl⟩
    obtain ⟨t, hrun, hend⟩ := Option.bind_eq_some_iff.mp hrun
    obtain ⟨t', hrun', henclosing, rfl⟩ := run_group hown hclosed hrun
    obtain ⟨final', hend', -, hbody⟩ := run_ending henclosing repeated
    obtain rfl : final = final' := Option.some.inj (hend.symm.trans hend')
    exact ⟨_, ⟨t', hrun', henclosing, rfl⟩, hbody⟩
  · rintro ⟨q, ⟨t', hrun', henclosing, rfl⟩, rfl⟩
    obtain ⟨final, hend, hfinal, hbody⟩ := run_ending henclosing repeated
    have hinside := (@run_inside folded [anchor] es foldedStart _ _ _ hown rfl).1
    refine ⟨final, ?_, hfinal, hbody⟩
    rw [hinside, hrun']
    exact hend

/-- A quotation that is still open at the ending takes the ending in, and the group stays open. -/
theorem not_read_anchored_of_open {before : List Element} {quoted : Text}
    (hown : run .initial false (before ++ [.quotation quoted false]) = some own)
    (hclosed : own.enclosing = [])
    (hending : Elements (text ++ ending) (before ++ [.quotation (quoted ++ ending) false])) :
    read ("(?i)^(?:".toList ++ text ++ ")$".toList) ≠ .ok p := by
  intro h
  obtain ⟨t, hrun, henclosing, -⟩ := (read_around_iff hending).mp h
  obtain ⟨own', hlonger, hclosed'⟩ := run_longer hown (quoted ++ ending)
  obtain ⟨t', -, hgroup, rfl⟩ := run_group hlonger (hclosed'.trans hclosed) hrun
  rw [inside_enclosing hgroup] at henclosing
  cases henclosing

end

/-- Every quotation in the text is closed. -/
def QuotationsClosed (text : Text) : Prop :=
  ∀ es, Elements text es → ∀ e ∈ es, e.isFinished = true

/-- The anchors and the group around a pattern change nothing of what it is on its own, as long as no
    quotation in it is open. One that is open takes the end of the group in, and nothing can be read. -/
theorem read_anchored_iff {text : Text} {own : Pattern} (hown : read text = .ok own) {p : Pattern} :
    read ("(?i)^(?:".toList ++ text ++ ")$".toList) = .ok p ↔
      QuotationsClosed text ∧ ∃ q, read ("(?i)".toList ++ text) = .ok q ∧ p = q.anchored := by
  obtain ⟨es, ownEnd, hes, hown, henclosing, -⟩ := read_ok_iff.mp hown
  have hquotations : QuotationsClosed text ↔ ∀ e ∈ es, e.isFinished = true := by
    constructor
    · exact fun h => h es hes
    · intro h es' hes'
      rwa [← hes.unique hes']
  rw [hquotations]
  rcases hes.append_ending with ⟨hall, hending⟩ | ⟨before, quoted, rfl, hending⟩
  · rw [read_anchored_of_closed hown henclosing hes hending]
    exact (and_iff_right hall).symm
  · refine iff_of_false (not_read_anchored_of_open hown henclosing hending) ?_
    rintro ⟨hall, -⟩
    cases hall _ (List.mem_append_right _ (List.mem_singleton_self _))

end AsmAssist.Pattern.Reader
