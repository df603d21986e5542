import AsmAssist.Catalog
import AsmAssist.Proofs.Config.Loading
import AsmAssist.Proofs.Outcome
import Mathlib.Data.List.Induction

/- Instructions from all layers. Read from the highest layer down, an instruction counts if no other of
   its name, in whatever case, stands before it. So a name means what the first layer that has it says,
   and a layer at the bottom adds to the end and changes nothing. -/

namespace AsmAssist

namespace Sequence

variable {α κ : Type} [BEq κ] [LawfulBEq κ] {key : α → κ}

/-- The key of an element at a place is the key of none further left. -/
def isNew (key : α → κ) (xs : List α) (x : α) (i : Nat) : Bool :=
  !((xs.take i).map key).contains (key x)

/-- The elements whose key stands at no earlier place. -/
def firstOccurrences (key : α → κ) (xs : List α) : List α :=
  (xs.zipIdx.filter fun entry => isNew key xs entry.1 entry.2).map Prod.fst

omit [LawfulBEq κ] in
/-- Whether an element is new does not depend on what follows it. -/
theorem firstOccurrences_append (xs ys : List α) :
    firstOccurrences key (xs ++ ys) = firstOccurrences key xs ++
      ((ys.zipIdx xs.length).filter fun entry => isNew key (xs ++ ys) entry.1 entry.2).map Prod.fst := by
  have hsame : ∀ entry ∈ xs.zipIdx,
      isNew key (xs ++ ys) entry.1 entry.2 = isNew key xs entry.1 entry.2 := by
    rintro ⟨x, i⟩ hmem
    have hi : i ≤ xs.length := Nat.le_of_lt (by simpa using (List.mem_zipIdx hmem).2.1)
    rw [isNew, isNew, List.take_append_of_le_length hi]
  rw [firstOccurrences, List.zipIdx_append, List.filter_append, List.map_append, Nat.zero_add,
    firstOccurrences, List.filter_congr hsame]

omit [LawfulBEq κ] in
theorem firstOccurrences_grows (xs ys : List α) :
    ∃ added, List.Sublist added ys ∧
      firstOccurrences key (xs ++ ys) = firstOccurrences key xs ++ added := by
  refine ⟨_, ?_, firstOccurrences_append xs ys⟩
  have hsublist := (List.filter_sublist (l := ys.zipIdx xs.length)
    (p := fun entry => isNew key (xs ++ ys) entry.1 entry.2)).map Prod.fst
  rwa [List.zipIdx_map_fst] at hsublist

omit [LawfulBEq κ] in
theorem firstOccurrences_concat (xs : List α) (x : α) :
    firstOccurrences key (xs ++ [x]) =
      firstOccurrences key xs ++ if (xs.map key).contains (key x) then [] else [x] := by
  rw [firstOccurrences_append, List.zipIdx_singleton, List.filter_singleton, isNew, List.take_left]
  cases (xs.map key).contains (key x) <;> rfl

omit [LawfulBEq κ] in
theorem firstOccurrences_sublist (xs : List α) : List.Sublist (firstOccurrences key xs) xs := by
  have hsublist := (List.filter_sublist (l := xs.zipIdx)
    (p := fun entry => isNew key xs entry.1 entry.2)).map Prod.fst
  rwa [List.zipIdx_map_fst] at hsublist

/-- The fold keeps the first occurrences, the last of them in front, and all the keys so far. -/
theorem firstByKey_fold (xs : List α) (kept : List α × List κ)
    (hkept : kept = xs.foldl (fun (kept : List α × List κ) x =>
      if kept.2.contains (key x) then kept else (x :: kept.1, key x :: kept.2)) ([], [])) :
    kept.1.reverse = firstOccurrences key xs ∧ ∀ k, k ∈ kept.2 ↔ k ∈ xs.map key := by
  induction xs using List.reverseRecOn generalizing kept with
  | nil =>
      subst hkept
      exact ⟨rfl, fun k => Iff.rfl⟩
  | append_singleton xs x ih =>
      rw [List.foldl_concat] at hkept
      obtain ⟨hentries, hkeys⟩ := ih _ rfl
      generalize xs.foldl _ _ = before at hkept hentries hkeys
      have hseen : before.2.contains (key x) = (xs.map key).contains (key x) := by
        rw [Bool.eq_iff_iff, List.contains_iff_mem, List.contains_iff_mem, hkeys]
      rw [firstOccurrences_concat, hkept, hseen]
      cases hnew : (xs.map key).contains (key x) with
      | true =>
          have hmem : key x ∈ xs.map key := List.contains_iff_mem.mp hnew
          refine ⟨by simpa using hentries, ?_⟩
          intro k
          simp only [if_true, hkeys, List.map_append, List.map_cons, List.map_nil, List.mem_append,
            List.mem_singleton]
          exact (or_iff_left_of_imp fun hk => hk ▸ hmem).symm
      | false =>
          refine ⟨by simp [hentries], ?_⟩
          intro k
          simp [hkeys, or_comm]

theorem firstByKey_eq (xs : List α) : firstByKey key xs = firstOccurrences key xs :=
  (firstByKey_fold xs _ rfl).1

theorem firstOccurrences_apart (xs : List α) :
    (firstOccurrences key xs).Pairwise fun x y => key x ≠ key y := by
  induction xs using List.reverseRecOn with
  | nil => exact .nil
  | append_singleton xs x ih =>
      rw [firstOccurrences_concat, List.pairwise_append]
      cases hnew : (xs.map key).contains (key x) with
      | true => exact ⟨ih, .nil, by simp⟩
      | false =>
          refine ⟨ih, List.pairwise_singleton _ _, ?_⟩
          rintro y hy _ (_ | ⟨_, ⟨⟩⟩) hkey
          have hmem : key x ∈ xs.map key :=
            hkey ▸ List.mem_map_of_mem ((firstOccurrences_sublist xs).mem hy)
          rw [List.contains_iff_mem.mpr hmem] at hnew
          cases hnew

/-- Of each key the first element is kept. -/
theorem find?_firstOccurrences (xs : List α) (k : κ) :
    (firstOccurrences key xs).find? (key · == k) = xs.find? (key · == k) := by
  induction xs using List.reverseRecOn with
  | nil => rfl
  | append_singleton xs x ih =>
      rw [firstOccurrences_concat, List.find?_append, List.find?_append, ih]
      cases hnew : (xs.map key).contains (key x) with
      | false => rfl
      | true =>
          by_cases hkey : key x = k
          · -- The key was there before, so it is found before.
            obtain ⟨y, hy, hsame⟩ := List.mem_map.mp (List.contains_iff_mem.mp hnew)
            have hfound : (xs.find? (key · == k)).isSome := by
              rw [List.find?_isSome]
              exact ⟨y, hy, by simp [hsame, hkey]⟩
            obtain ⟨z, hz⟩ := Option.isSome_iff_exists.mp hfound
            simp [hz]
          · simp [hkey]

end Sequence

namespace Config.Loader

variable {α ε : Type}

/-- Only where there is no error is nothing left out. -/
theorem eq_of_upToError {xs : List (Except ε α)} {ys : List α} (h : upToError xs = ys.map .ok) :
    xs = ys.map .ok := by
  fun_induction upToError xs generalizing ys with
  | case1 => exact h
  | case2 a rest ih =>
      cases ys with
      | nil => cases h
      | cons y ys =>
          obtain ⟨hfirst, hrest⟩ := List.cons.inj h
          rw [List.map_cons, ← hfirst, ih hrest]
  | case3 e rest =>
      cases ys with
      | nil => cases h
      | cons y ys => cases (List.cons.inj h).1

end Config.Loader

namespace Catalog

open Config (Loader Layer LookupError Value Decoder)
open Sequence (firstOccurrences)

def instructionShape : Decoder (List Instruction) := .list Instruction.ofValue

def instructionPath : Bytes := .ofString "instructions"

/-- The layers of instructions in a loader, highest first, if all of them have the right shape. -/
def HasLayers (l : Loader) (layers : List (List Instruction)) : Prop :=
  l.all instructionShape instructionPath = layers.map .ok

/-- Something that a layer says of instructions has not their shape. -/
def HasMisfit (l : Loader) : Prop :=
  ∃ layers, l.layers = .ok layers ∧ ∃ layer ∈ layers, ∃ v,
    l.language.find instructionPath layer.value = .value v ∧ instructionShape v = none

/-- Each instruction counts that is the first of its name, in whatever case. -/
structure Merges (layers : List (List Instruction)) (merged : List Instruction) : Prop where
  entries : merged = firstOccurrences (·.name.toUpper) layers.flatten
  apart : merged.Pairwise fun i j => i.name.toUpper ≠ j.name.toUpper
  represented : ∀ layer ∈ layers, ∀ i ∈ layer, ∃ j ∈ merged, j.name.toUpper = i.name.toUpper ∧
    layers.findSome? (·.find? (·.name.toUpper == i.name.toUpper)) = some j

theorem merges_mergeInstructions (layers : List (List Instruction)) :
    Merges layers (mergeInstructions layers) := by
  have hentries : mergeInstructions layers =
      firstOccurrences (·.name.toUpper) layers.flatten := Sequence.firstByKey_eq _
  refine ⟨hentries, ?_, ?_⟩
  · rw [hentries]
    exact Sequence.firstOccurrences_apart _
  · intro layer hlayer i hi
    have hmem : i ∈ layers.flatten := List.mem_flatten.mpr ⟨layer, hlayer, hi⟩
    have hfound : (layers.flatten.find? (·.name.toUpper == i.name.toUpper)).isSome := by
      rw [List.find?_isSome]
      exact ⟨i, hmem, beq_self_eq_true _⟩
    obtain ⟨j, hj⟩ := Option.isSome_iff_exists.mp hfound
    have hkept : (mergeInstructions layers).find? (·.name.toUpper == i.name.toUpper) = some j := by
      rw [hentries, Sequence.find?_firstOccurrences, hj]
    have hname := List.find?_some hj
    refine ⟨j, List.mem_of_find?_eq_some hkept, eq_of_beq hname, ?_⟩
    rw [← List.find?_flatten, hj]

theorem mergeInstructions_grows (layers : List (List Instruction)) (layer : List Instruction) :
    ∃ added, List.Sublist added layer ∧
      mergeInstructions (layers ++ [layer]) = mergeInstructions layers ++ added := by
  simp only [mergeInstructions, Sequence.firstByKey_eq, List.flatten_concat]
  exact Sequence.firstOccurrences_grows _ _

theorem readInstructions_ok {l : Loader} {instructions : List Instruction}
    (h : readInstructions l = .ok instructions) :
    ∃ layers, HasLayers l layers ∧ instructions = mergeInstructions layers := by
  rw [readInstructions] at h
  split at h
  · cases h
  · next layers hlayers =>
      cases h
      refine ⟨layers, ?_, rfl⟩
      have hall := Config.eachOf_ok.mp hlayers
      rw [HasLayers, ← List.forall₂_eq_eq_eq, List.forall₂_map_right_iff]
      exact hall

/-- A catalog is what its parts were read as, one after the other. -/
theorem build_ok {l : Loader} {c : Catalog} (h : build l = .ok c) :
    readFamilies l = .ok c.families ∧ readInstructions l = .ok c.instructions ∧
      l.first (.list Condition.ofValue) [] (.ofString "conditions") = .ok c.conditions ∧
      readRegisters l = .ok c.registers := by
  obtain ⟨families, hfamilies, h⟩ := Outcome.bind_eq_ok.mp h
  obtain ⟨instructions, hinstructions, h⟩ := Outcome.bind_eq_ok.mp h
  obtain ⟨conditions, hconditions, h⟩ := Outcome.bind_eq_ok.mp h
  obtain ⟨registers, hregisters, h⟩ := Outcome.bind_eq_ok.mp h
  cases h
  exact ⟨hfamilies, Outcome.mapError_eq_ok.mp hinstructions, Outcome.mapError_eq_ok.mp hconditions,
    Outcome.mapError_eq_ok.mp hregisters⟩

theorem registers_of_build {l : Loader} {c : Catalog} (h : build l = .ok c) {named : List Register}
    {count : Int64}
    (hnamed : l.first (.list Register.ofValue) [] (.ofString "registers") = .ok named)
    (hcount : l.first .int 0 (.ofString "generalRegisters") = .ok count) :
    c.registers = withGeneral named count := by
  have hread := (build_ok h).2.2.2
  simp only [readRegisters, hnamed, hcount, bind, Except.bind] at hread
  exact (Except.ok.inj hread).symm

/-- A catalog has what the layers of its configuration say of instructions. -/
theorem layers_of_build {l : Loader} {c : Catalog} (h : build l = .ok c) :
    ∃ layers, HasLayers l layers ∧ c.instructions = mergeInstructions layers :=
  readInstructions_ok (build_ok h).2.1

theorem HasLayers.unique {l : Loader} {layers others : List (List Instruction)}
    (h : HasLayers l layers) (hother : HasLayers l others) : layers = others := by
  have hsame : layers.map Except.ok = others.map (Except.ok (ε := LookupError)) := h.symm.trans hother
  exact List.map_injective_iff.mpr (fun _ _ => Except.ok.inj) hsame

theorem not_hasLayers_of_misfit {l : Loader} (h : HasMisfit l) (layers : List (List Instruction)) :
    ¬ HasLayers l layers := by
  obtain ⟨found, hfound, layer, hlayer, v, hv, hshape⟩ := h
  intro hlayers
  rw [HasLayers, Loader.all, Loader.values, hfound] at hlayers
  have hdecoded := Loader.eq_of_upToError hlayers
  have hmem : (.error (.shape instructionPath)) ∈ layers.map (Except.ok (ε := LookupError)) := by
    rw [← hdecoded]
    refine List.mem_map.mpr ⟨v, List.mem_filterMap.mpr ⟨layer, hlayer, by rw [hv]; rfl⟩, ?_⟩
    rw [Loader.decode, hshape]
  obtain ⟨_, -, hok⟩ := List.mem_map.mp hmem
  cases hok

/-- The instructions of a catalog are those of all layers that are the first of their name. Of a name,
    the highest layer that has it counts, and a new layer at the bottom adds to their end. If something
    that a layer says has not the shape of instructions, there is no catalog. -/
theorem first_definition_wins (l : Loader) :
    (∀ layers c, HasLayers l layers → build l = .ok c →
      Merges layers c.instructions ∧
      ∀ l' layer c', HasLayers l' (layers ++ [layer]) → build l' = .ok c' →
        ∃ added, List.Sublist added layer ∧ c'.instructions = c.instructions ++ added) ∧
    (HasMisfit l → ∃ e, build l = .error e) := by
  have hmerged : ∀ {l layers c}, HasLayers l layers → build l = .ok c →
      c.instructions = mergeInstructions layers := by
    intro l layers c hlayers hbuild
    obtain ⟨others, hothers, hc⟩ := layers_of_build hbuild
    rw [hc, hlayers.unique hothers]
  constructor
  · intro layers c hlayers hbuild
    rw [hmerged hlayers hbuild]
    refine ⟨merges_mergeInstructions layers, ?_⟩
    intro l' layer c' hlayers' hbuild'
    rw [hmerged hlayers' hbuild']
    exact mergeInstructions_grows layers layer
  · intro hmisfit
    cases hbuild : build l with
    | error e => exact ⟨e, rfl⟩
    | ok c =>
        obtain ⟨layers, hlayers, -⟩ := layers_of_build hbuild
        exact absurd hlayers (not_hasLayers_of_misfit hmisfit layers)

/-- A configuration of built-in sources that no schema restricts. -/
def builtIn (texts : List String) : Loader :=
  .load ⟨[], [], []⟩ [] [] (texts.map fun text => ⟨[], .ofString text⟩)

def ownAdd : String := "instructions: [\x7bname: \"add\", detail: \"own\"\x7d]"

def addAndSub : String := "instructions: [\x7bname: \"ADD\"\x7d, \x7bname: \"sub\"\x7d]"

def subAndOr : String := "instructions: [\x7bname: \"Sub\"\x7d, \x7bname: \"or\"\x7d, \x7bname: \"OR\"\x7d]"

/-- The instructions of the texts above, name and detail. -/
def readAs (names : List (String × String)) : List Instruction :=
  names.map fun (name, detail) => ⟨.ofString name, [], .ofString detail⟩

theorem own_add_wins :
    HasLayers (builtIn [ownAdd, addAndSub])
      [readAs [("add", "own")], readAs [("ADD", ""), ("sub", "")]] ∧
    (∃ c c', build (builtIn [ownAdd, addAndSub]) = .ok c ∧
      build (builtIn [ownAdd, addAndSub, subAndOr]) = .ok c' ∧
      Merges [readAs [("add", "own")], readAs [("ADD", ""), ("sub", "")]] c.instructions ∧
      ∃ added, List.Sublist added (readAs [("Sub", ""), ("or", ""), ("OR", "")]) ∧
        c'.instructions = c.instructions ++ added) ∧
    HasMisfit (builtIn [ownAdd, "instructions: 3"]) ∧
    ∃ e, build (builtIn [ownAdd, "instructions: 3"]) = .error e := by
  have hlayers : HasLayers (builtIn [ownAdd, addAndSub])
      [readAs [("add", "own")], readAs [("ADD", ""), ("sub", "")]] := rfl
  have hmore : HasLayers (builtIn [ownAdd, addAndSub, subAndOr])
      ([readAs [("add", "own")], readAs [("ADD", ""), ("sub", "")]] ++
        [readAs [("Sub", ""), ("or", ""), ("OR", "")]]) := rfl
  have hmisfit : HasMisfit (builtIn [ownAdd, "instructions: 3"]) :=
    ⟨_, rfl, _, .tail _ (.head _), _, rfl, rfl⟩
  obtain ⟨hmerges, hgrows⟩ :=
    (first_definition_wins (builtIn [ownAdd, addAndSub])).1 _ _ hlayers rfl
  exact ⟨hlayers, ⟨_, _, rfl, rfl, hmerges, hgrows _ _ _ hmore rfl⟩, hmisfit,
    (first_definition_wins (builtIn [ownAdd, "instructions: 3"])).2 hmisfit⟩

end Catalog

end AsmAssist
