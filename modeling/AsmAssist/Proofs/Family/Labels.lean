import AsmAssist.Family
import Mathlib.Data.List.Forall2

/- Labels of signatures. A template is read once from left to right, and what is filled in is not read
   again, so a value may spell a slot without being one. The slots of a label start with a brace that they
   hold nowhere else. So no slot of a template is lost inside another: each of them is filled, and what
   stands on its two sides is filled as if it stood alone. -/

namespace AsmAssist

namespace Template

/-- One reading from left to right: where a slot stands, its value takes its place and the reading goes on
    behind it; any other byte is copied. -/
inductive Filled (slots : List Slot) : Bytes → Bytes → Prop
  | nil : Filled slots [] []
  | slot {spelling value rest text : Bytes} : (spelling, value) ∈ slots → Filled slots rest text →
      Filled slots (spelling ++ rest) (value ++ text)
  | copy {b : UInt8} {rest text : Bytes} : (∀ slot ∈ slots, ¬ slot.1 <+: b :: rest) →
      Filled slots rest text → Filled slots (b :: rest) (b :: text)

def brace : UInt8 := '{'.toUInt8

/-- No slot can be taken for another, and none starts inside another. -/
structure Apart (slots : List Slot) : Prop where
  opened : ∀ slot ∈ slots, ∃ body, slot.1 = brace :: body ∧ brace ∉ body
  distinct : ∀ slot ∈ slots, ∀ other ∈ slots, slot.1 <+: other.1 → slot = other

section Reading

variable {slots : List Slot} (hslots : Apart slots)

include hslots

theorem Apart.ne_nil {slot : Slot} (h : slot ∈ slots) : slot.1 ≠ [] := by
  obtain ⟨body, hbody, -⟩ := hslots.opened slot h
  rw [hbody]
  exact List.cons_ne_nil _ _

/-- At most one slot stands at the start of a text. -/
theorem Apart.unique {slot other : Slot} (h : slot ∈ slots) (hother : other ∈ slots) {text : Bytes}
    (hleads : slot.1 <+: text) (hleads' : other.1 <+: text) : slot = other := by
  rcases List.prefix_or_prefix_of_prefix hleads hleads' with hshort | hshort
  · exact hslots.distinct slot h other hother hshort
  · exact (hslots.distinct other hother slot h hshort).symm

/-- A slot that does not end within a text does not go on into another slot. -/
theorem Apart.not_across {slot : Slot} (h : slot ∈ slots) {b : UInt8} {before after : Bytes}
    (hnot : ¬ slot.1 <+: b :: before) : ¬ slot.1 <+: b :: before ++ brace :: after := by
  intro hleads
  obtain ⟨body, hbody, hbrace⟩ := hslots.opened slot h
  rcases List.prefix_or_prefix_of_prefix hleads (List.prefix_append (b :: before) (brace :: after)) with
    hwithin | ⟨more, hmore⟩
  · exact hnot hwithin
  · -- The part of the slot behind the text starts with the brace of the other slot.
    rw [← hmore, List.prefix_append_right_inj] at hleads
    cases more with
    | nil => exact hnot ⟨[], by rw [← hmore]; simp⟩
    | cons c more =>
        obtain ⟨rfl, -⟩ := List.cons_prefix_cons.mp hleads
        rw [hbody, List.cons_append] at hmore
        obtain ⟨-, rfl⟩ := List.cons.inj hmore
        exact hbrace (List.mem_append_right _ List.mem_cons_self)

/-- A template that is filled from any of its bytes on is filled by one reading of what stands there. -/
theorem filled_fillAfter (skip : Nat) (template : Bytes) :
    Filled slots (template.drop skip) (fillAfter slots skip template) := by
  fun_induction fillAfter slots skip template with
  | case1 skip =>
      rw [List.drop_nil]
      exact .nil
  | case2 skip b rest ih => exact ih
  | case3 b rest spelling value hfind ih =>
      have hmem : (spelling, value) ∈ slots := List.mem_of_find?_eq_some hfind
      have hleads := List.find?_some hfind
      obtain ⟨after, hafter⟩ : spelling <+: b :: rest := List.isPrefixOf_iff_prefix.mp hleads
      obtain ⟨c, tail, rfl⟩ := List.exists_cons_of_ne_nil (hslots.ne_nil hmem)
      have hrest : rest = tail ++ after := (List.cons.inj hafter).2.symm
      rw [hrest, List.length_cons, Nat.add_sub_cancel, List.drop_left] at ih
      rw [List.drop_zero, ← hafter, hrest, List.length_cons, Nat.add_sub_cancel]
      exact .slot hmem ih
  | case4 b rest hfind ih =>
      refine .copy ?_ ih
      intro slot hslot hleads
      have hnone := List.find?_eq_none.mp hfind slot hslot
      exact hnone (List.isPrefixOf_iff_prefix.mpr hleads)

theorem Filled.unique {template text other : Bytes} (h : Filled slots template text)
    (hother : Filled slots template other) : other = text := by
  induction h generalizing other with
  | nil =>
      generalize hnil : ([] : Bytes) = template at hother
      cases hother with
      | nil => rfl
      | slot hmem _ => exact absurd (List.append_eq_nil_iff.mp hnil.symm).1 (hslots.ne_nil hmem)
      | copy => cases hnil
  | @slot spelling value rest text hmem _ ih =>
      generalize hwhole : spelling ++ rest = template at hother
      cases hother with
      | nil => exact absurd (List.append_eq_nil_iff.mp hwhole).1 (hslots.ne_nil hmem)
      | @slot spelling' value' rest' text' hmem' hrest' =>
          have hleads : spelling <+: spelling' ++ rest' := ⟨rest, hwhole⟩
          cases hslots.unique hmem hmem' hleads (List.prefix_append _ _)
          obtain rfl := List.append_cancel_left hwhole
          rw [ih hrest']
      | copy hnone _ => exact absurd ⟨rest, hwhole⟩ (hnone _ hmem)
  | @copy b rest text hnone _ ih =>
      generalize hwhole : b :: rest = template at hother
      cases hother with
      | nil => cases hwhole
      | slot hmem' _ => exact absurd ⟨_, hwhole.symm⟩ (hnone _ hmem')
      | copy _ hrest' =>
          obtain ⟨rfl, rfl⟩ := List.cons.inj hwhole
          rw [ih hrest']

/-- A template and a reading of it fix the text that is filled in. -/
theorem filled_iff (template text : Bytes) :
    Filled slots template text ↔ text = fill slots template := by
  have hfill : Filled slots template (fill slots template) := filled_fillAfter hslots 0 template
  constructor
  · exact hfill.unique hslots
  · rintro rfl
    exact hfill

/-- A text in front of a slot is read to its end before the slot. -/
theorem Filled.append_brace {before left after right : Bytes} (h : Filled slots before left)
    (hafter : Filled slots (brace :: after) right) :
    Filled slots (before ++ brace :: after) (left ++ right) := by
  induction h with
  | nil => exact hafter
  | slot hmem _ ih =>
      rw [List.append_assoc, List.append_assoc]
      exact .slot hmem ih
  | copy hnone _ ih =>
      exact .copy (fun slot hslot => hslots.not_across hslot (hnone slot hslot)) ih

/-- Every slot of a template is filled, whatever stands around it. -/
theorem fill_append_slot {slot : Slot} (h : slot ∈ slots) (before after : Bytes) :
    fill slots (before ++ slot.1 ++ after) = fill slots before ++ slot.2 ++ fill slots after := by
  have hbefore : Filled slots before (fill slots before) := filled_fillAfter hslots 0 before
  have hafter : Filled slots (slot.1 ++ after) (slot.2 ++ fill slots after) :=
    .slot h (filled_fillAfter hslots 0 after)
  obtain ⟨body, hbody, -⟩ := hslots.opened slot h
  have hwhole : Filled slots (before ++ slot.1 ++ after)
      (fill slots before ++ slot.2 ++ fill slots after) := by
    rw [hbody, List.cons_append] at hafter
    rw [hbody, List.append_assoc, List.cons_append, List.append_assoc]
    exact hbefore.append_brace hslots hafter
  exact ((filled_iff hslots _ _).mp hwhole).symm

end Reading

end Template

namespace Family

open Template (Slot Filled Apart fill)

/-- The slots of a label, filled with the mnemonic in upper case and two texts. -/
def labelSlots (mnemonic assign op : Bytes) : List Slot :=
  [(.ofString "{mnemonic}", mnemonic.toUpper), (.ofString "{assign}", assign),
    (.ofString "{op}", op)]

theorem labelSlots_apart (mnemonic assign op : Bytes) : Apart (labelSlots mnemonic assign op) where
  opened := by
    simp only [labelSlots, List.forall_mem_cons]
    exact ⟨⟨_, rfl, by decide⟩, ⟨_, rfl, by decide⟩, ⟨_, rfl, by decide⟩, by simp⟩
  distinct := by
    have hfalse : ∀ {p q : Prop}, ¬ p → p → q := fun hnot h => absurd h hnot
    simp only [labelSlots, List.forall_mem_cons]
    refine ⟨⟨fun _ => trivial, hfalse ?_, hfalse ?_, by simp⟩,
      ⟨hfalse ?_, fun _ => trivial, hfalse ?_, by simp⟩,
      ⟨hfalse ?_, hfalse ?_, fun _ => trivial, by simp⟩, by simp⟩
    all_goals decide

/-- Association lists are asked for the first entry of a key. -/
theorem operator?_eq_lookup (f : Family) (mnemonic : Bytes) :
    f.operator? mnemonic = f.operators.lookup mnemonic.toUpper := by
  rw [operator?]
  induction f.operators with
  | nil => rfl
  | cons entry entries ih =>
      rw [List.find?_cons, List.lookup_cons, BEq.comm, ← ih]
      cases mnemonic.toUpper == entry.1 <;> rfl

theorem slots_of_symbol {f : Family} {mnemonic symbol : Bytes}
    (h : f.operators.lookup mnemonic.toUpper = some symbol) :
    f.slots mnemonic = labelSlots mnemonic (.ofString " <-") (.ofString " " ++ symbol) := by
  rw [slots, operator?_eq_lookup, h]
  rfl

theorem slots_of_none {f : Family} {mnemonic : Bytes}
    (h : f.operators.lookup mnemonic.toUpper = none) :
    f.slots mnemonic = labelSlots mnemonic (.ofString ",") (.ofString ",") := by
  rw [slots, operator?_eq_lookup, h]
  rfl

/-- A signature is shown as it is given, but for the label. The label is the one text that a reading of the
    template gives, and each slot in the template parts it into the readings of its two sides. -/
structure Renders (slots : List Slot) (given shown : Signature) : Prop where
  doc : shown.doc = given.doc
  parameters : shown.parameters = given.parameters
  label : ∀ text, Filled slots given.label text ↔ text = shown.label
  slot : ∀ slot ∈ slots, ∀ before after, given.label = before ++ slot.1 ++ after →
    ∃ left right, Filled slots before left ∧ Filled slots after right ∧
      shown.label = left ++ slot.2 ++ right

theorem renders_render {slots : List Slot} (h : Apart slots) (given : Signature) :
    Renders slots given (given.render slots) where
  doc := rfl
  parameters := rfl
  label := Template.filled_iff h given.label
  slot := by
    intro slot hslot before after hlabel
    refine ⟨fill slots before, fill slots after, (Template.filled_iff h _ _).mpr rfl,
      (Template.filled_iff h _ _).mpr rfl, ?_⟩
    rw [← Template.fill_append_slot h hslot, ← hlabel]
    rfl

theorem help_renders {slots : List Slot} (h : Apart slots) {f : Family} {mnemonic : Bytes}
    (hslots : f.slots mnemonic = slots) (operands : List Token) :
    List.Forall₂ (Renders slots) [f.register, f.immediate] (f.help mnemonic operands).signatures := by
  rw [help, hslots]
  exact .cons (renders_render h _) (.cons (renders_render h _) .nil)

/-- Help shows both signatures of a family, each with its template filled in one reading. An instruction
    with an operator for its mnemonic in upper case is written as an assignment, any other with commas. -/
theorem labels_are_filled_once (f : Family) (mnemonic : Bytes) (operands : List Token) :
    (∀ symbol, f.operators.lookup mnemonic.toUpper = some symbol →
      List.Forall₂ (Renders (labelSlots mnemonic (.ofString " <-") (.ofString " " ++ symbol)))
        [f.register, f.immediate] (f.help mnemonic operands).signatures) ∧
    (f.operators.lookup mnemonic.toUpper = none →
      List.Forall₂ (Renders (labelSlots mnemonic (.ofString ",") (.ofString ",")))
        [f.register, f.immediate] (f.help mnemonic operands).signatures) := by
  constructor
  · intro symbol hsymbol
    exact help_renders (labelSlots_apart _ _ _) (slots_of_symbol hsymbol) operands
  · intro hnone
    exact help_renders (labelSlots_apart _ _ _) (slots_of_none hnone) operands

/-- A family with an operator that spells a slot, and with a slot in its template that is not closed. -/
def misleading : Family :=
  { blank with
    operators := [(.ofString "ADD", .ofString "{mnemonic}")]
    register := ⟨.ofString "\x7bmnemonic\x7bop\x7d{assign}", [], []⟩ }

theorem misleading_filled_once :
    misleading.operators.lookup (Bytes.ofString "add").toUpper = some (.ofString "{mnemonic}") ∧
      Renders (labelSlots (.ofString "add") (.ofString " <-") (.ofString " {mnemonic}"))
        misleading.register ⟨.ofString "\x7bmnemonic {mnemonic} <-", [], []⟩ ∧
      misleading.operators.lookup (Bytes.ofString "sub").toUpper = none ∧
      Renders (labelSlots (.ofString "sub") (.ofString ",") (.ofString ","))
        misleading.register ⟨.ofString "\x7bmnemonic,,", [], []⟩ := by
  have hadd : misleading.operators.lookup (Bytes.ofString "add").toUpper =
      some (.ofString "{mnemonic}") := by decide
  have hsub : misleading.operators.lookup (Bytes.ofString "sub").toUpper = none := by decide
  have hassigned := (labels_are_filled_once misleading (.ofString "add") []).1 _ hadd
  have hlisted := (labels_are_filled_once misleading (.ofString "sub") []).2 hsub
  exact ⟨hadd, (List.forall₂_cons.mp hassigned).1, hsub, (List.forall₂_cons.mp hlisted).1⟩

end Family

end AsmAssist
