import AsmAssist.Pattern.Reader
import AsmAssist.Proofs.Outcome
import Mathlib.Data.List.Basic

/- What stands behind a pattern does not change how its elements are read. An element that was read from
   a text is over before a closing parenthesis that is put behind the text: no escape, class, name or
   count goes on with it. Only a quotation that is left open does, and it is no matter of this module. -/

namespace AsmAssist.Pattern.Reader

/-- What stands behind the mnemonics in the pattern of a family. -/
def ending : Text := [')', '$']

theorem cutAt_append {stop : Char} {here inside later : Text}
    (h : cutAt stop here = some (inside, later)) :
    later.length < here.length ∧ cutAt stop (here ++ ending) = some (inside, later ++ ending) := by
  induction here generalizing inside with
  | nil => cases h
  | cons c here ih =>
      simp only [cutAt, List.cons_append, List.length_cons] at h ⊢
      split at h
      · next hstop =>
          cases h
          simp [hstop]
      · next hstop =>
          obtain ⟨⟨inside', later'⟩, hcut, heq⟩ := Option.map_eq_some_iff.mp h
          cases heq
          obtain ⟨hshort, hlocal⟩ := ih hcut
          refine ⟨Nat.lt_succ_of_lt hshort, ?_⟩
          rw [if_neg hstop, hlocal]
          rfl

theorem cutAtPair_cons (a b c : Char) (rest : Text) : cutAtPair a b (c :: rest) =
    if c = a ∧ rest.head? = some b then some ([], rest.tail)
    else (cutAtPair a b rest).map fun (inside, after) => (c :: inside, after) := by
  by_cases hc : c = a
  · cases rest with
    | nil => simp [cutAtPair, hc]
    | cons d rest => by_cases hd : d = b <;> simp [cutAtPair, hc, hd]
  · cases rest <;> simp [cutAtPair, hc]

theorem cutAtPair_append {a b : Char} {here inside later : Text}
    (h : cutAtPair a b here = some (inside, later)) :
    later.length < here.length ∧
      cutAtPair a b (here ++ ending) = some (inside, later ++ ending) := by
  induction here generalizing inside with
  | nil => cases h
  | cons c here ih =>
      rw [cutAtPair_cons] at h
      rw [List.cons_append, cutAtPair_cons]
      split at h
      · next hpair =>
          obtain ⟨rest, rfl⟩ := List.head?_eq_some_iff.mp hpair.2
          cases h
          refine ⟨?_, by simp [hpair.1]⟩
          simp only [List.length_cons, List.tail_cons]
          omega
      · next hpair =>
          obtain ⟨⟨inside', later'⟩, hcut, heq⟩ := Option.map_eq_some_iff.mp h
          cases heq
          obtain ⟨hshort, hlocal⟩ := ih hcut
          obtain ⟨d, here, rfl⟩ : ∃ d more, here = d :: more := by
            cases here with
            | nil => cases hcut
            | cons d more => exact ⟨d, more, rfl⟩
          refine ⟨Nat.lt_succ_of_lt hshort, ?_⟩
          refine (if_neg hpair).trans ?_
          rw [hlocal]
          rfl

/-- The ending completes no pair whose second character it does not have. -/
theorem cutAtPair_append_none {a b : Char} (hb : b ∉ ending) {here : Text}
    (h : cutAtPair a b here = none) : cutAtPair a b (here ++ ending) = none := by
  induction here with
  | nil =>
      have hne : '$' ≠ b := fun heq => hb (heq ▸ by decide)
      simp [ending, cutAtPair_cons, cutAtPair, hne]
  | cons c here ih =>
      rw [cutAtPair_cons] at h
      rw [List.cons_append, cutAtPair_cons]
      split at h
      · cases h
      · next hpair =>
          rw [if_neg, ih (Option.map_eq_none_iff.mp h)]
          · rfl
          · rintro ⟨hc, hhead⟩
            cases here with
            | nil => exact hb (List.mem_of_mem_head? hhead)
            | cons d here => exact hpair ⟨hc, hhead⟩

theorem bracedHex_append {n seen : Nat} {here rest : Text} {code : Nat}
    (h : bracedHex n seen here = .ok (code, rest)) :
    rest.length < here.length ∧ bracedHex n seen (here ++ ending) = .ok (code, rest ++ ending) := by
  induction here generalizing n seen with
  | nil => cases h
  | cons c here ih =>
      simp only [bracedHex, List.cons_append, List.length_cons] at h ⊢
      split at h
      · next hclose =>
          split at h
          · cases h
          · next hseen =>
              cases h
              simp [hclose, hseen]
      · next hclose =>
          rw [if_neg hclose]
          split at h
          · cases h
          · next d hd =>
              split at h
              · cases h
              · next hbound =>
                  obtain ⟨hshort, hlocal⟩ := ih h
                  refine ⟨Nat.lt_succ_of_lt hshort, ?_⟩
                  simp only [hbound, if_false, hlocal]

theorem takeWhile_append_ending {accepts : Char → Bool} (hstop : accepts ')' = false) (here : Text) :
    (here ++ ending).takeWhile accepts = here.takeWhile accepts := by
  induction here with
  | nil => simp [ending, hstop]
  | cons c here ih => simp only [List.cons_append, List.takeWhile_cons, ih]

theorem octals_append (here : Text) :
    ((here ++ ending).take 2).takeWhile isOctal = (here.take 2).takeWhile isOctal := by
  match here with
  | [] => decide
  | [a] =>
      have hclose : isOctal ')' = false := by decide
      simp [ending, List.takeWhile_cons, hclose]
  | a :: b :: here => rfl

theorem octals_le (here : Text) : ((here.take 2).takeWhile isOctal).length ≤ here.length :=
  Nat.le_trans (List.takeWhile_sublist _).length_le (List.length_take_le' 2 here)

theorem escape_hex_append {d : Char} {tail rest : Text} {code : Nat}
    (h : escape (d :: 'x' :: tail) = .ok (code, rest)) :
    rest.length < tail.length ∧ escape (d :: 'x' :: (tail ++ ending)) = .ok (code, rest ++ ending) := by
  have hx : isOctal 'x' = false := by decide
  simp [escape, hx] at h ⊢
  split at h
  · cases h
  · next digits =>
      cases hhex : bracedHex 0 0 digits with
      | error later => simp [hhex] at h
      | ok found =>
          simp only [hhex] at h
          cases h
          obtain ⟨hshort, hlocal⟩ := bracedHex_append hhex
          simp only [List.cons_append, hlocal, List.length_cons]
          exact ⟨by omega, trivial⟩
  · cases h
  · next a b later hbrace =>
      simp only [List.cons_append]
      split at h
      · cases h
        refine ⟨?_, rfl⟩
        simp only [List.length_cons]
        omega
      · cases h

/-- The letters that stand for a control character behind a backslash. -/
def controlLetters : List Char := ['a', 'f', 'n', 'r', 't', 'v']

/-- An escape is over where the ending starts. -/
theorem escape_append {here rest : Text} {code : Nat} (h : escape here = .ok (code, rest)) :
    rest.length < here.length ∧ escape (here ++ ending) = .ok (code, rest ++ ending) := by
  match here, h with
  | [], h => cases h
  | [_], h => cases h
  | d :: c :: tail, h =>
      by_cases hx : c = 'x'
      · subst hx
        obtain ⟨hshort, hlocal⟩ := escape_hex_append h
        exact ⟨by simp only [List.length_cons]; omega, hlocal⟩
      have hplain : tail.length < (d :: c :: tail).length := Nat.lt_add_of_pos_right Nat.two_pos
      by_cases hletter : c ∈ controlLetters
      · simp only [controlLetters, List.mem_cons, List.not_mem_nil, or_false] at hletter
        rcases hletter with rfl | rfl | rfl | rfl | rfl | rfl
        all_goals
          cases h
          exact ⟨hplain, rfl⟩
      have hoctals := octals_le tail
      have hdrop := Nat.lt_of_le_of_lt
        (List.drop_sublist ((tail.take 2).takeWhile isOctal).length tail).length_le hplain
      simp only [escape, List.tail_cons, List.cons_append, octals_append,
        List.drop_append_of_le_length hoctals, beq_iff_eq, hx, if_false] at h ⊢
      by_cases hzero : c = '0'
      · rw [if_pos hzero] at h ⊢
        cases h
        exact ⟨hdrop, rfl⟩
      · rw [if_neg hzero] at h ⊢
        by_cases hoctal : isOctal c = true
        · rw [if_pos hoctal] at h ⊢
          cases tail with
          | nil => cases h
          | cons a tail =>
              split at h
              · next hsecond =>
                  cases h
                  exact ⟨hdrop, if_pos hsecond⟩
              · cases h
        · rw [if_neg hoctal] at h ⊢
          simp only [controlLetters, List.mem_cons, List.not_mem_nil, or_false, not_or] at hletter
          obtain ⟨ha, hf, hn, hr, ht, hv⟩ := hletter
          simp only [ha, hf, hn, hr, ht, hv, if_false] at h ⊢
          split at h
          · next hmark =>
              cases h
              exact ⟨hplain, if_pos hmark⟩
          · cases h

/-- Neither the empty name nor a brace alone names a set. -/
theorem property?_unnamed : CharClass.property? [] = none ∧ CharClass.property? ['\x7b'] = none := by
  simp only [← Option.isNone_iff_eq_none]
  decide +kernel

/-- The name of a set as it is written, in braces or one character: the whole of it, the name, and the
    text behind it. -/
def writtenName (here name : Text) : Text × Text × Text :=
  match name with
  | '\x7b' :: inner =>
      match cutAt '\x7d' inner with
      | some (plain, later) => (upTo here later, plain, later)
      | none => (here, ['\x7b'], [])
  | c :: later => (upTo here later, [c], later)
  | [] => (here, [], [])

/-- Whether a set is excluded, and its name without the sign that says so. -/
def signed (negated : Bool) (plain : Text) : Bool × Text :=
  match plain with
  | '^' :: rest => (!negated, rest)
  | _ => (negated, plain)

theorem propertyClass_eq (here : Text) (negated : Bool) (name : Text) :
    propertyClass here negated name =
      match CharClass.property? (signed negated (writtenName here name).2.1).2 with
      | some item =>
          .ok (item.negateIf (signed negated (writtenName here name).2.1).1, (writtenName here name).2.2)
      | none => .error ⟨.badClassRange, (writtenName here name).1⟩ := by
  unfold propertyClass
  rfl

/-- A name that names a set is over where the ending starts. -/
theorem writtenName_append {here name : Text} {negated : Bool} {item : ClassItem}
    (h : CharClass.property? (signed negated (writtenName here name).2.1).2 = some item) (other : Text) :
    (writtenName here name).2.2.length < name.length ∧
      (writtenName other (name ++ ending)).2 =
        ((writtenName here name).2.1, (writtenName here name).2.2 ++ ending) := by
  obtain ⟨hnothing, hbrace⟩ := property?_unnamed
  cases name with
  | nil =>
      have hplain : (signed negated (writtenName here []).2.1).2 = [] := rfl
      rw [hplain, hnothing] at h
      cases h
  | cons c name =>
      by_cases hc : c = '\x7b'
      · subst hc
        cases hcut : cutAt '\x7d' name with
        | none =>
            have hplain : (signed negated (writtenName here ('\x7b' :: name)).2.1).2 = ['\x7b'] := by
              simp [writtenName, hcut, signed]
            rw [hplain, hbrace] at h
            cases h
        | some cut =>
            obtain ⟨plain, later⟩ := cut
            obtain ⟨hshort, hlocal⟩ := cutAt_append hcut
            simp only [writtenName, hcut, hlocal, List.cons_append, List.length_cons, and_true]
            exact Nat.lt_succ_of_lt hshort
      · simp [writtenName]

theorem propertyClass_append {here name rest : Text} {negated : Bool} {item : ClassItem}
    (h : propertyClass here negated name = .ok (item, rest)) (other : Text) :
    rest.length < name.length ∧
      propertyClass other negated (name ++ ending) = .ok (item, rest ++ ending) := by
  rw [propertyClass_eq] at h
  split at h
  · next hfound =>
      cases h
      obtain ⟨hshort, hlocal⟩ := writtenName_append hfound other
      refine ⟨hshort, ?_⟩
      rw [propertyClass_eq, hlocal, hfound]
  · cases h

theorem escapedSet?_append {here rest : Text} {item : ClassItem}
    (h : escapedSet? here = some (.ok (item, rest))) :
    rest.length < here.length ∧ escapedSet? (here ++ ending) = some (.ok (item, rest ++ ending)) := by
  unfold escapedSet? at h
  split at h
  · obtain ⟨hshort, hlocal⟩ := propertyClass_append (Option.some.inj h) _
    exact ⟨Nat.lt_add_right 2 hshort, congrArg some hlocal⟩
  · obtain ⟨hshort, hlocal⟩ := propertyClass_append (Option.some.inj h) _
    exact ⟨Nat.lt_add_right 2 hshort, congrArg some hlocal⟩
  · next c later hp hP =>
      obtain ⟨set, hset, heq⟩ := Option.map_eq_some_iff.mp h
      cases heq
      refine ⟨Nat.lt_add_of_pos_right Nat.two_pos, ?_⟩
      simp [escapedSet?, hset]
  · cases h

theorem escapedSet?_append_none {here : Text} (h : escapedSet? here = none) :
    escapedSet? (here ++ ending) = none := by
  unfold escapedSet? at h
  split at h
  · cases h
  · cases h
  · next c later hp hP => simpa [escapedSet?] using h
  · next hp hP hc =>
      match here with
      | [] => rfl
      | [a] =>
          by_cases ha : a = '\\'
          · subst ha
            rfl
          · simp [escapedSet?, ha]
      | a :: b :: more =>
          by_cases ha : a = '\\'
          · subst ha
            exact absurd rfl (hc b more)
          · simp [escapedSet?, ha]

theorem bracketedName?_append {here rest : Text} {item : ClassItem}
    (h : bracketedName? here = some (.ok (item, rest))) :
    rest.length < here.length ∧ bracketedName? (here ++ ending) = some (.ok (item, rest ++ ending)) := by
  unfold bracketedName? at h
  split at h
  · next inner =>
      obtain ⟨⟨name, later⟩, hcut, heq⟩ := Option.map_eq_some_iff.mp h
      obtain ⟨hshort, hlocal⟩ := cutAtPair_append hcut
      dsimp only at heq
      split at heq
      · next hset =>
          cases heq
          simp only [bracketedName?, List.cons_append, hlocal, Option.map_some, hset, and_true]
          exact Nat.lt_add_right 2 hshort
      · cases heq
  · cases h

theorem bracketedName?_append_none {here : Text} (h : bracketedName? here = none) :
    bracketedName? (here ++ ending) = none := by
  unfold bracketedName? at h
  split at h
  · next inner =>
      have hcut := cutAtPair_append_none (by decide) (Option.map_eq_none_iff.mp h)
      simp only [bracketedName?, List.cons_append, hcut, Option.map_none]
  · next hname =>
      match here with
      | [] => rfl
      | [a] => simp [bracketedName?, ending]
      | a :: b :: more =>
          simp only [bracketedName?, List.cons_append]
          split
          · next heq =>
              cases heq
              exact absurd rfl (hname _)
          · rfl

theorem classChar_append {whole here rest : Text} {code : Nat}
    (h : classChar whole here = .ok (code, rest)) (other : Text) :
    rest.length < here.length ∧ classChar other (here ++ ending) = .ok (code, rest ++ ending) := by
  unfold classChar at h
  split at h
  · cases h
  · exact escape_append h
  · next c rest' hc =>
      cases h
      simp [classChar]

/-- A member of a class is over where the ending starts, unless it might go on with a hyphen. -/
theorem classRange_append {whole here rest : Text} {item : ClassItem}
    (h : classRange whole here = .ok (item, rest)) (hrest : rest ≠ ['-']) (other : Text) :
    rest.length < here.length ∧ classRange other (here ++ ending) = .ok (item, rest ++ ending) := by
  obtain ⟨⟨lo, behind⟩, hlo, h⟩ := Outcome.bind_eq_ok.mp h
  obtain ⟨hshort, hlocal⟩ := classChar_append hlo other
  simp only [classRange, hlocal, bind, Except.bind] at h ⊢
  split at h
  · next c more =>
      simp only [List.cons_append] at hshort ⊢
      split at h
      · next hclose =>
          cases h
          exact ⟨hshort, if_pos hclose⟩
      · next hclose =>
          rw [if_neg hclose]
          obtain ⟨⟨hi, later⟩, hhi, h⟩ := Outcome.bind_eq_ok.mp h
          obtain ⟨hshorter, hlocal'⟩ := classChar_append hhi other
          split at h
          · cases h
          · next hle =>
              cases h
              rw [List.cons_append] at hlocal'
              simp only [hlocal', hle, if_false, and_true]
              simp only [List.length_cons] at hshort hshorter
              omega
  · next hrange =>
      cases h
      refine ⟨hshort, ?_⟩
      match rest with
      | [] => rfl
      | [a] =>
          have ha : a ≠ '-' := fun heq => hrest (by rw [heq])
          simp [ha]
      | a :: b :: more =>
          have ha : a ≠ '-' := fun heq => hrange b more (by rw [heq])
          simp [ha]

theorem classItem_append {whole here rest : Text} {item : ClassItem}
    (h : classItem whole here = .ok (item, rest)) (hrest : rest ≠ ['-']) (other : Text) :
    rest.length < here.length ∧ classItem other (here ++ ending) = .ok (item, rest ++ ending) := by
  unfold classItem at h ⊢
  cases hname : bracketedName? here with
  | some result =>
      simp only [hname] at h
      rw [h] at hname
      obtain ⟨hshort, hlocal⟩ := bracketedName?_append hname
      exact ⟨hshort, by simp only [hlocal]⟩
  | none =>
      rw [bracketedName?_append_none hname]
      cases hset : escapedSet? here with
      | some result =>
          simp only [hname, hset] at h
          rw [h] at hset
          obtain ⟨hshort, hlocal⟩ := escapedSet?_append hset
          exact ⟨hshort, by simp only [hlocal]⟩
      | none =>
          simp only [hname, hset] at h
          rw [escapedSet?_append_none hset]
          exact classRange_append h hrest other

/-- A hyphen alone does not close a class. -/
theorem classItems_hyphen (whole : Text) (fuel : Nat) (items : List ClassItem) :
    ∃ e, classItems whole fuel false items ['-'] = .error e := by
  match fuel with
  | 0 => exact ⟨_, rfl⟩
  | 1 => exact ⟨_, rfl⟩
  | fuel + 2 => exact ⟨_, rfl⟩

/-- A class that is closed is closed before the ending. -/
theorem classItems_append {whole here rest : Text} {fuel : Nat} {isFirst : Bool}
    {items members : List ClassItem}
    (h : classItems whole fuel isFirst items here = .ok (members, rest)) (other : Text) (more : Nat)
    (hmore : fuel ≤ more) :
    rest.length < here.length ∧
      classItems other more isFirst items (here ++ ending) = .ok (members, rest ++ ending) := by
  induction fuel generalizing here isFirst items more with
  | zero => cases h
  | succ fuel ih =>
      obtain ⟨more, rfl⟩ : ∃ n, more = n + 1 := ⟨more - 1, by omega⟩
      have hstep : ∀ {here : Text}, ((classItem whole here).bind fun found =>
            classItems whole fuel false (found.1 :: items) found.2) = .ok (members, rest) →
          rest.length < here.length ∧ ((classItem other (here ++ ending)).bind fun found =>
            classItems other more false (found.1 :: items) found.2) = .ok (members, rest ++ ending) := by
        intro here h
        obtain ⟨⟨item, behind⟩, hitem, h⟩ := Outcome.bind_eq_ok.mp h
        have hbehind : behind ≠ ['-'] := by
          rintro rfl
          obtain ⟨e, herror⟩ := classItems_hyphen whole fuel (item :: items)
          rw [herror] at h
          cases h
        obtain ⟨hshort, hlocal⟩ := classItem_append hitem hbehind other
        obtain ⟨hshorter, hrest⟩ := ih h more (Nat.le_of_succ_le_succ hmore)
        exact ⟨Nat.lt_trans hshorter hshort, Outcome.bind_eq_ok.mpr ⟨_, hlocal, hrest⟩⟩
      unfold classItems at h ⊢
      split at h
      · cases h
        simp
      · next hclose =>
          cases here with
          | nil => exact absurd (hstep h).1 (Nat.not_lt_zero _)
          | cons c here =>
              rw [List.cons_append]
              split
              · next heq => exact (hclose here rfl (by injection heq with hc; rw [hc])).elim
              · exact hstep h

/-- Whether a class excludes its members, and the text of them. -/
def membersText (here : Text) : Bool × Text :=
  match here.tail with
  | '^' :: rest => (true, rest)
  | rest => (false, rest)

theorem charClass_eq (folds : Bool) (here : Text) : charClass folds here =
    (classItems here ((membersText here).2.length + 1) true [] (membersText here).2).map
      fun (items, rest) => (⟨items, folds, (membersText here).1⟩, rest) := by
  unfold charClass membersText
  rfl

theorem membersText_append {here : Text} (hne : here.tail ≠ []) :
    (membersText here).2.length < here.length ∧
      membersText (here ++ ending) = ((membersText here).1, (membersText here).2 ++ ending) := by
  match here with
  | [] => exact absurd rfl hne
  | [_] => exact absurd rfl hne
  | d :: c :: inner =>
      by_cases hc : c = '^'
      · subst hc
        exact ⟨Nat.lt_add_of_pos_right Nat.two_pos, rfl⟩
      · simp [membersText, hc]

theorem charClass_append {here rest : Text} {folds : Bool} {set : CharClass}
    (h : charClass folds here = .ok (set, rest)) :
    rest.length < here.length ∧ charClass folds (here ++ ending) = .ok (set, rest ++ ending) := by
  rw [charClass_eq] at h ⊢
  cases hitems : classItems here ((membersText here).2.length + 1) true [] (membersText here).2 with
  | error e => simp [hitems, Except.map] at h
  | ok found =>
      obtain ⟨items, behind⟩ := found
      have hne : here.tail ≠ [] := by
        intro hnil
        have hempty : (membersText here).2 = [] := by simp [membersText, hnil]
        rw [hempty] at hitems
        cases hitems
      obtain ⟨hshort, hmembers⟩ := membersText_append hne
      obtain ⟨hshorter, hlocal⟩ := classItems_append hitems (here ++ ending)
        (((membersText here).2 ++ ending).length + 1) (by simp)
      rw [hmembers, hlocal]
      rw [hitems] at h
      cases h
      exact ⟨Nat.lt_trans hshorter hshort, rfl⟩

/-- Whether the members are folded does not matter to what is read. -/
theorem charClass_folds (folds : Bool) (here : Text) :
    charClass folds here =
      (charClass false here).map fun (set, rest) => ({ set with folds }, rest) := by
  simp only [charClass, bind, Except.bind]
  cases classItems _ _ _ _ _ <;> rfl

theorem count?_append (here : Text) :
    count? (here ++ ending) = (count? here).map fun (value, rest) => (value, rest ++ ending) := by
  have hdigits := @takeWhile_append_ending Char.isDigit (by decide) here
  have hle := (List.takeWhile_sublist (l := here) Char.isDigit).length_le
  simp only [count?, hdigits]
  split
  · rfl
  · rfl
  · simp [List.drop_append_of_le_length hle]

theorem count?_le {here rest : Text} {value : Option Nat} (h : count? here = some (value, rest)) :
    rest.length ≤ here.length := by
  unfold count? at h
  dsimp only at h
  split at h
  · cases h
  · cases h
  · cases h
    exact (List.drop_sublist _ _).length_le

/-- Bounds, or none, are found before the ending. -/
theorem bounds?_append (c : Char) (here : Text) :
    bounds? (c :: here ++ ending) =
      (bounds? (c :: here)).map fun (bounds, rest) => (bounds, rest ++ ending) := by
  simp only [bounds?, List.cons_append, List.tail_cons, count?_append]
  cases hleast : count? here with
  | none => rfl
  | some found =>
      obtain ⟨least, behind⟩ := found
      simp only [bind, Option.bind, Option.map_some]
      rcases behind with _ | ⟨a, behind⟩
      · rfl
      by_cases hcomma : a = ','
      · subst hcomma
        rcases behind with _ | ⟨b, behind⟩
        · rfl
        by_cases hopen : b = '\x7d'
        · subst hopen
          rfl
        · have hcount := count?_append (b :: behind)
          rw [List.cons_append] at hcount
          cases hmost : count? (b :: behind) with
          | none => simp [hopen, hcount, hmost]
          | some found =>
              obtain ⟨most, _ | ⟨d, later⟩⟩ := found
              · rw [hmost] at hcount
                simp [hopen, hcount, hmost]
                rfl
              · by_cases hclose : d = '\x7d' <;> simp [hopen, hcount, hmost, hclose]
      · by_cases hclose : a = '\x7d' <;> simp [hclose, hcomma]

theorem bounds?_lt {here rest : Text} {bounds : Bounds} (h : bounds? here = some (bounds, rest)) :
    rest.length < here.length := by
  simp only [bounds?, bind, Option.bind] at h
  have htail : here.tail.length ≤ here.length := (List.tail_sublist here).length_le
  split at h
  · cases h
  · next found hleast =>
    have hle := count?_le hleast
    obtain ⟨least, behind⟩ := found
    dsimp only at h hle
    split at h
    · cases h
      simp only [List.length_cons] at hle
      omega
    · split at h
      · cases h
      · next found hmost =>
        have hle' := count?_le hmost
        obtain ⟨most, behind'⟩ := found
        dsimp only at h hle'
        split at h
        · cases h
          simp only [List.length_cons] at hle hle'
          omega
        · cases h
    · cases h
      simp only [List.length_cons] at hle
      omega
    · cases h

theorem groupName_append {here inner later : Text} (h : groupName here inner = .ok later) (other : Text) :
    later.length < inner.length ∧ groupName other (inner ++ ending) = .ok (later ++ ending) := by
  unfold groupName at h ⊢
  cases hcut : cutAt '>' inner with
  | none => simp [hcut] at h
  | some cut =>
      obtain ⟨name, behind⟩ := cut
      obtain ⟨hshort, hlocal⟩ := cutAt_append hcut
      simp only [hcut] at h
      simp only [hlocal]
      split at h
      · next hname =>
          cases h
          exact ⟨hshort, if_pos hname⟩
      · cases h

/-- What the letters of a group do to the settings, whether it opens a level, and the text behind it. -/
def groupChanges? : Bool → Bool → Text → Option ((Flags → Flags) × Bool × Text)
  | _, _, [] => none
  | clears, sawFlag, c :: rest =>
      let letter (change : Flags → Flags) :=
        (groupChanges? clears true rest).map fun (later, start) => (later ∘ change, start)
      match c with
      | 'i' => letter fun flags => { flags with folds := !clears }
      | 'm' => letter fun flags => { flags with multiline := !clears }
      | 's' => letter fun flags => { flags with dotAll := !clears }
      | 'U' => letter fun flags => { flags with swapGreed := !clears }
      | '-' => if clears then none else groupChanges? true false rest
      | ':' => if clears && !sawFlag then none else some (id, true, rest)
      | ')' => if clears && !sawFlag then none else some (id, false, rest)
      | _ => none

theorem groupFlags_eq (here : Text) (flags : Flags) (clears sawFlag : Bool) (inner : Text) :
    (groupFlags here flags clears sawFlag inner).toOption =
      (groupChanges? clears sawFlag inner).map fun (change, opens, later) =>
        ⟨change flags, opens, later⟩ := by
  fun_induction groupFlags here flags clears sawFlag inner with
  | case1 => rfl
  | case2 _ _ _ _ ih | case3 _ _ _ _ ih | case4 _ _ _ _ ih | case5 _ _ _ _ ih =>
      rw [ih]
      simp only [groupChanges?, Option.map_map]
      rfl
  | case6 => rfl
  | case7 flags clears sawFlag rest hclears ih =>
      rw [ih]
      simp [groupChanges?, hclears]
  | case8 flags clears sawFlag rest _ hbad | case10 flags clears sawFlag rest _ hbad =>
      simp only [groupChanges?, hbad, if_true]
      rfl
  | case9 flags clears sawFlag rest hgood | case11 flags clears sawFlag rest hgood =>
      simp only [groupChanges?, hgood]
      rfl
  | case12 flags clears sawFlag c rest =>
      simp [groupChanges?]
      rfl

theorem groupChanges?_append {inner later : Text} {clears sawFlag opens : Bool} {change : Flags → Flags}
    (h : groupChanges? clears sawFlag inner = some (change, opens, later)) :
    later.length < inner.length ∧
      groupChanges? clears sawFlag (inner ++ ending) = some (change, opens, later ++ ending) := by
  induction inner generalizing clears sawFlag change with
  | nil => cases h
  | cons c inner ih =>
      have hletter : ∀ set : Flags → Flags,
          ((groupChanges? clears true inner).map fun (later, start) => (later ∘ set, start)) =
            some (change, opens, later) →
          later.length < inner.length + 1 ∧
          ((groupChanges? clears true (inner ++ ending)).map fun (later, start) => (later ∘ set, start)) =
            some (change, opens, later ++ ending) := by
        intro set h
        obtain ⟨⟨change', opens', later'⟩, hrest, heq⟩ := Option.map_eq_some_iff.mp h
        cases heq
        obtain ⟨hshort, hlocal⟩ := ih hrest
        exact ⟨Nat.lt_succ_of_lt hshort, by rw [hlocal]; rfl⟩
      simp only [groupChanges?, List.cons_append, List.length_cons] at h ⊢
      split at h
      · exact hletter _ h
      · exact hletter _ h
      · exact hletter _ h
      · exact hletter _ h
      · split at h
        · cases h
        · next hclears =>
            obtain ⟨hshort, hlocal⟩ := ih h
            simp only [hclears]
            exact ⟨Nat.lt_succ_of_lt hshort, hlocal⟩
      · split at h
        · cases h
        · next hgood =>
            cases h
            exact ⟨Nat.lt_succ_self _, if_neg hgood⟩
      · split at h
        · cases h
        · next hgood =>
            cases h
            exact ⟨Nat.lt_succ_self _, if_neg hgood⟩
      · cases h

end AsmAssist.Pattern.Reader
