import AsmAssist.Proofs.Pattern.Locality

/- Elements of patterns. What an element is shows in the text alone; what it does depends on the settings
   and the groups that are open. So the reader first splits the text into elements and then carries them
   out, and each of the two can be followed without the other. -/

namespace AsmAssist.Pattern.Reader

/-- An element as it stands in the text. A quotation may be left open, a repetition carries what it makes
    of the item before it. -/
inductive Element where
  | literal (code : Nat)
  | quotation (quoted : Text) (isClosed : Bool)
  | any
  | start
  | stop
  | assertion (condition : Assertion)
  | set (set : CharClass)
  | bar
  | opening (captures : Bool)
  | settings (change : Flags → Flags) (opens : Bool)
  | closing
  | repetition (wrap : Pattern → Pattern)

namespace Element

def isRepetition : Element → Bool
  | repetition _ => true
  | _ => false

/-- Nothing behind the element can become part of it. -/
def isFinished : Element → Bool
  | quotation _ isClosed => isClosed
  | _ => true

end Element

/-- The text behind a repetition, without the mark that it prefers less. -/
def behindRepetition (after : Text) : Text :=
  match after with
  | '?' :: rest => rest
  | _ => after

def opening? (here : Text) : Option (Element × Text) :=
  match here with
  | '(' :: '?' :: 'P' :: '<' :: inner =>
      (groupName here inner).toOption.map fun later => (.opening true, later)
  | '(' :: '?' :: '<' :: inner =>
      (groupName here inner).toOption.map fun later => (.opening true, later)
  | '(' :: '?' :: inner =>
      (groupChanges? false false inner).map fun (change, opens, later) =>
        (.settings change opens, later)
  | _ => some (.opening true, here.tail)

/-- A set or a character that is written as an escape. -/
def escaped? (here : Text) : Option (Element × Text) :=
  match escapedSet? here with
  | some result => result.toOption.map fun (item, rest) => (.set ⟨[item], false, false⟩, rest)
  | none => (escape here).toOption.map fun (code, rest) => (.literal code, rest)

def backslashed? (here : Text) : Option (Element × Text) :=
  match here with
  | '\\' :: 'A' :: rest => some (.assertion .textStart, rest)
  | '\\' :: 'b' :: rest => some (.assertion .wordEdge, rest)
  | '\\' :: 'B' :: rest => some (.assertion .noWordEdge, rest)
  | '\\' :: 'C' :: _ => none
  | '\\' :: 'z' :: rest => some (.assertion .textEnd, rest)
  | '\\' :: 'Q' :: rest =>
      match cutAtPair '\\' 'E' rest with
      | some (quoted, later) => some (.quotation quoted true, later)
      | none => some (.quotation rest false, [])
  | _ => escaped? here

/-- The element at the start of a text, and the text behind it. -/
def element? (here : Text) : Option (Element × Text) :=
  match here with
  | [] => none
  | c :: rest =>
      match c with
      | '(' => opening? here
      | '|' => some (.bar, rest)
      | ')' => some (.closing, rest)
      | '^' => some (.start, rest)
      | '$' => some (.stop, rest)
      | '.' => some (.any, rest)
      | '[' => (charClass false here).toOption.map fun (set, later) => (.set set, later)
      | '*' => some (.repetition .star, behindRepetition rest)
      | '+' => some (.repetition .plus, behindRepetition rest)
      | '?' => some (.repetition .optional, behindRepetition rest)
      | '\x7b' =>
          match bounds? here with
          | none => some (.literal c.toNat, rest)
          | some (bounds, after) =>
              bounds.check?.map fun (least, most) =>
                (.repetition (.repeated · least most), behindRepetition after)
      | '\\' => backslashed? here
      | _ => some (.literal c.toNat, rest)

/-! ### Elements before the ending -/

theorem behindRepetition_append (after : Text) :
    behindRepetition (after ++ ending) = behindRepetition after ++ ending := by
  cases after with
  | nil => rfl
  | cons c after => by_cases hc : c = '?' <;> simp [behindRepetition, hc]

theorem behindRepetition_le (after : Text) : (behindRepetition after).length ≤ after.length := by
  unfold behindRepetition
  split
  · exact Nat.le_succ _
  · exact Nat.le_refl _

theorem opening?_settings {inner : Text} (hname : ∀ more, inner ≠ 'P' :: '<' :: more)
    (hshort : ∀ more, inner ≠ '<' :: more) : opening? ('(' :: '?' :: inner) =
      (groupChanges? false false inner).map fun (change, opens, later) =>
        (.settings change opens, later) := by
  unfold opening?
  split
  · next heq => exact absurd (List.cons.inj (List.cons.inj heq).2).2 (hname _)
  · next heq => exact absurd (List.cons.inj (List.cons.inj heq).2).2 (hshort _)
  · next heq =>
      cases heq
      rfl
  · next hnone => exact absurd rfl (hnone inner)

theorem groupName_opening {here inner rest : Text} {e : Element}
    (h : ((groupName here inner).toOption.map fun later => (Element.opening true, later)) =
      some (e, rest)) (other : Text) :
    e.isFinished = true ∧ rest.length < inner.length ∧
      ((groupName other (inner ++ ending)).toOption.map fun later => (Element.opening true, later)) =
        some (e, rest ++ ending) := by
  obtain ⟨later, hname, heq⟩ := Option.map_eq_some_iff.mp h
  cases heq
  obtain ⟨hshort, hlocal⟩ := groupName_append (Outcome.toOption_eq_some.mp hname) other
  refine ⟨rfl, hshort, ?_⟩
  rw [hlocal]
  rfl

theorem opening?_append {here rest : Text} {e : Element} (h : opening? here = some (e, rest))
    (hne : here ≠ []) :
    e.isFinished = true ∧ rest.length < here.length ∧
      opening? (here ++ ending) = some (e, rest ++ ending) := by
  unfold opening? at h
  split at h
  · obtain ⟨hfinished, hshort, hlocal⟩ := groupName_opening h _
    exact ⟨hfinished, Nat.lt_add_right 4 hshort, hlocal⟩
  · obtain ⟨hfinished, hshort, hlocal⟩ := groupName_opening h _
    exact ⟨hfinished, Nat.lt_add_right 3 hshort, hlocal⟩
  · next inner hname hshort =>
      obtain ⟨⟨change, opens, later⟩, hchanges, heq⟩ := Option.map_eq_some_iff.mp h
      cases heq
      obtain ⟨hlt, hlocal⟩ := groupChanges?_append hchanges
      refine ⟨rfl, Nat.lt_add_right 2 hlt, ?_⟩
      rw [List.cons_append, List.cons_append, opening?_settings, hlocal]
      · rfl
      · intro more heq
        cases inner with
        | nil => cases hchanges
        | cons a inner =>
            cases inner with
            | nil => simp [ending] at heq
            | cons b inner =>
                obtain ⟨rfl, rfl, -⟩ : a = 'P' ∧ b = '<' ∧ inner ++ ending = more := by
                  simpa using heq
                exact hname inner rfl
      · intro more heq
        cases inner with
        | nil => cases hchanges
        | cons a inner =>
            obtain ⟨rfl, -⟩ : a = '<' ∧ inner ++ ending = more := by simpa using heq
            exact hshort inner rfl
  · next _ _ hflags =>
      obtain ⟨c, here, rfl⟩ := List.exists_cons_of_ne_nil hne
      cases h
      have hplain : ∀ more, c :: here ++ ending ≠ '(' :: '?' :: more := by
        intro more heq
        cases here with
        | nil => simp [ending] at heq
        | cons d here =>
            obtain ⟨rfl, rfl, -⟩ : c = '(' ∧ d = '?' ∧ here ++ ending = more := by simpa using heq
            exact hflags here rfl
      refine ⟨rfl, Nat.lt_succ_self _, ?_⟩
      unfold opening?
      split
      · next heq => exact absurd heq (hplain _)
      · next heq => exact absurd heq (hplain _)
      · next heq => exact absurd heq (hplain _)
      · rfl

theorem escaped?_append {here rest : Text} {e : Element} (h : escaped? here = some (e, rest)) :
    e.isFinished = true ∧ rest.length < here.length ∧
      escaped? (here ++ ending) = some (e, rest ++ ending) := by
  unfold escaped? at h ⊢
  cases hset : escapedSet? here with
  | some result =>
      rw [hset] at h
      obtain ⟨⟨item, later⟩, hresult, heq⟩ := Option.map_eq_some_iff.mp h
      cases heq
      rw [Outcome.toOption_eq_some.mp hresult] at hset
      obtain ⟨hshort, hlocal⟩ := escapedSet?_append hset
      refine ⟨rfl, hshort, ?_⟩
      rw [hlocal]
      rfl
  | none =>
      rw [hset] at h
      obtain ⟨⟨code, later⟩, hcode, heq⟩ := Option.map_eq_some_iff.mp h
      cases heq
      obtain ⟨hshort, hlocal⟩ := escape_append (Outcome.toOption_eq_some.mp hcode)
      refine ⟨rfl, hshort, ?_⟩
      rw [escapedSet?_append_none hset, hlocal]
      rfl

/-- The letters that stand for more than a character or a set behind a backslash. -/
def specialLetters : List Char := ['A', 'b', 'B', 'C', 'z', 'Q']

theorem not_mem_specialLetters {c : Char} {more : Text}
    (hA : ∀ rest, '\\' :: c :: more ≠ '\\' :: 'A' :: rest)
    (hb : ∀ rest, '\\' :: c :: more ≠ '\\' :: 'b' :: rest)
    (hB : ∀ rest, '\\' :: c :: more ≠ '\\' :: 'B' :: rest)
    (hC : ∀ rest, '\\' :: c :: more ≠ '\\' :: 'C' :: rest)
    (hz : ∀ rest, '\\' :: c :: more ≠ '\\' :: 'z' :: rest)
    (hQ : ∀ rest, '\\' :: c :: more ≠ '\\' :: 'Q' :: rest) : c ∉ specialLetters := by
  intro hspecial
  simp only [specialLetters, List.mem_cons, List.not_mem_nil, or_false] at hspecial
  rcases hspecial with rfl | rfl | rfl | rfl | rfl | rfl
  · exact hA more rfl
  · exact hb more rfl
  · exact hB more rfl
  · exact hC more rfl
  · exact hz more rfl
  · exact hQ more rfl

theorem backslashed?_eq_escaped? {here : Text}
    (h : ∀ c more, here = '\\' :: c :: more → c ∉ specialLetters) :
    backslashed? here = escaped? here := by
  unfold backslashed?
  split
  · exact absurd (by decide) (h _ _ rfl)
  · exact absurd (by decide) (h _ _ rfl)
  · exact absurd (by decide) (h _ _ rfl)
  · exact absurd (by decide) (h _ _ rfl)
  · exact absurd (by decide) (h _ _ rfl)
  · exact absurd (by decide) (h _ _ rfl)
  · rfl

theorem backslashed?_append {here rest : Text} {e : Element} (h : backslashed? here = some (e, rest)) :
    rest.length < here.length ∧ (e.isFinished = true →
      backslashed? (here ++ ending) = some (e, rest ++ ending)) := by
  unfold backslashed? at h
  split at h
  · cases h
    exact ⟨Nat.lt_add_of_pos_right Nat.two_pos, fun _ => rfl⟩
  · cases h
    exact ⟨Nat.lt_add_of_pos_right Nat.two_pos, fun _ => rfl⟩
  · cases h
    exact ⟨Nat.lt_add_of_pos_right Nat.two_pos, fun _ => rfl⟩
  · cases h
  · cases h
    exact ⟨Nat.lt_add_of_pos_right Nat.two_pos, fun _ => rfl⟩
  · next text =>
      cases hcut : cutAtPair '\\' 'E' text with
      | none =>
          rw [hcut] at h
          cases h
          exact ⟨Nat.succ_pos _, fun hfinished => nomatch hfinished⟩
      | some cut =>
          obtain ⟨quoted, later⟩ := cut
          rw [hcut] at h
          cases h
          obtain ⟨hshort, hlocal⟩ := cutAtPair_append hcut
          refine ⟨Nat.lt_add_right 2 hshort, fun _ => ?_⟩
          simp only [List.cons_append, backslashed?, hlocal]
  · next hA hb hB hC hz hQ =>
      obtain ⟨hfinished, hshort, hlocal⟩ := escaped?_append h
      refine ⟨hshort, fun _ => ?_⟩
      rw [backslashed?_eq_escaped?, hlocal]
      intro c more heq
      match here with
      | [] => cases h
      | [a] => simp [escaped?, escapedSet?, escape, Except.toOption] at h
      | a :: b :: here =>
          obtain ⟨rfl, rfl, -⟩ : a = '\\' ∧ b = c ∧ here ++ ending = more := by simpa using heq
          exact not_mem_specialLetters hA hb hB hC hz hQ

/-- An element that is finished is read the same before the ending, and it takes some of the text. -/
theorem element?_append {here rest : Text} {e : Element} (h : element? here = some (e, rest)) :
    rest.length < here.length ∧
      (e.isFinished = true → element? (here ++ ending) = some (e, rest ++ ending)) := by
  cases here with
  | nil => cases h
  | cons c here =>
      have hone : ∀ {e' : Element}, some (e', here) = some (e, rest) →
          rest.length < (c :: here).length ∧
            (e.isFinished = true → some (e', here ++ ending) = some (e, rest ++ ending)) := by
        rintro _ ⟨⟩
        exact ⟨Nat.lt_succ_self _, fun _ => rfl⟩
      have hbehind : ∀ {wrap : Pattern → Pattern} {after : Text}, after.length ≤ here.length →
          some (Element.repetition wrap, behindRepetition after) = some (e, rest) →
          rest.length < (c :: here).length ∧
            (e.isFinished = true →
              some (Element.repetition wrap, behindRepetition (after ++ ending)) =
                some (e, rest ++ ending)) := by
        rintro _ after hle ⟨⟩
        have hshort := Nat.le_trans (behindRepetition_le after) hle
        exact ⟨Nat.lt_succ_of_le hshort, fun _ => by rw [behindRepetition_append]⟩
      unfold element? at h ⊢
      simp only [List.cons_append] at h ⊢
      split at h
      · obtain ⟨-, hshort, hlocal⟩ := opening?_append h (List.cons_ne_nil _ _)
        exact ⟨hshort, fun _ => hlocal⟩
      · exact hone h
      · exact hone h
      · exact hone h
      · exact hone h
      · exact hone h
      · obtain ⟨⟨set, later⟩, hset, heq⟩ := Option.map_eq_some_iff.mp h
        cases heq
        obtain ⟨hshort, hlocal⟩ := charClass_append (Outcome.toOption_eq_some.mp hset)
        rw [List.cons_append] at hlocal
        exact ⟨hshort, fun _ => by rw [hlocal]; rfl⟩
      · exact hbehind (Nat.le_refl _) h
      · exact hbehind (Nat.le_refl _) h
      · exact hbehind (Nat.le_refl _) h
      · have hlocal := bounds?_append '\x7b' here
        rw [List.cons_append] at hlocal
        rw [hlocal]
        cases hbounds : bounds? ('\x7b' :: here) with
        | none =>
            rw [hbounds] at h
            exact hone h
        | some found =>
            obtain ⟨bounds, after⟩ := found
            have hshort := bounds?_lt hbounds
            rw [hbounds] at h
            obtain ⟨⟨least, most⟩, hcheck, heq⟩ := Option.map_eq_some_iff.mp h
            simp only [Option.map_some, hcheck]
            exact hbehind (Nat.le_of_lt_succ hshort) (congrArg some heq)
      · exact backslashed?_append h
      · exact hone h

/-- A quotation that is left open takes the ending in. -/
theorem element?_open {here rest quoted : Text} (h : element? here = some (.quotation quoted false, rest)) :
    rest = [] ∧ element? (here ++ ending) = some (.quotation (quoted ++ ending) false, []) := by
  cases here with
  | nil => cases h
  | cons c here =>
      unfold element? at h
      dsimp only at h
      split at h
      · exact nomatch (opening?_append h (List.cons_ne_nil _ _)).1
      · cases h
      · cases h
      · cases h
      · cases h
      · cases h
      · obtain ⟨_, _, heq⟩ := Option.map_eq_some_iff.mp h
        cases heq
      · cases h
      · cases h
      · cases h
      · split at h
        · cases h
        · obtain ⟨_, _, heq⟩ := Option.map_eq_some_iff.mp h
          cases heq
      · unfold backslashed? at h
        split at h
        · cases h
        · cases h
        · cases h
        · cases h
        · cases h
        · next heq =>
            cases heq
            split at h
            · cases h
            · next hcut =>
                cases h
                have hlocal := cutAtPair_append_none (by decide) hcut
                refine ⟨rfl, ?_⟩
                simp only [List.cons_append, element?, backslashed?, hlocal]
        · exact nomatch (escaped?_append h).1
      · cases h

end AsmAssist.Pattern.Reader
