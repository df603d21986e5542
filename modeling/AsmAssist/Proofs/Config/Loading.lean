import AsmAssist.Config.Store
import Mathlib.Data.List.Forall2

/- Loading, all or nothing. What can be wrong with a schema, with a file and with a source is said for
   each alone; the load error is the first of these in the order schema, files, sources. It shows
   wherever a loader is asked, and where there is none every source is a layer. -/

namespace AsmAssist.Config

/-- The fault of the first element that has one. -/
def FirstFault {α ε : Type} (fault : α → ε → Prop) (xs : List α) (e : ε) : Prop :=
  ∃ before x after, xs = before ++ x :: after ∧ (∀ y ∈ before, ∀ e, ¬ fault y e) ∧ fault x e

section Steps

variable {α β ε : Type} {step : α → Except ε β}

theorem firstFault_cons {fault : α → ε → Prop} {x : α} {xs : List α} {e : ε} :
    FirstFault fault (x :: xs) e ↔ fault x e ∨ (∀ e, ¬ fault x e) ∧ FirstFault fault xs e := by
  constructor
  · rintro ⟨before, y, after, hsplit, hbefore, hfault⟩
    cases before with
    | nil =>
        cases hsplit
        exact .inl hfault
    | cons z before =>
        cases hsplit
        obtain ⟨hz, hrest⟩ := List.forall_mem_cons.mp hbefore
        exact .inr ⟨hz, before, y, after, rfl, hrest, hfault⟩
  · rintro (hfault | ⟨hx, before, y, after, rfl, hbefore, hfault⟩)
    · exact ⟨[], x, xs, rfl, nofun, hfault⟩
    · exact ⟨x :: before, y, after, rfl, List.forall_mem_cons.mpr ⟨hx, hbefore⟩, hfault⟩

theorem eachOf_error {fault : α → ε → Prop} (hstep : ∀ x e, step x = .error e ↔ fault x e)
    (xs : List α) (e : ε) : eachOf step xs = .error e ↔ FirstFault fault xs e := by
  induction xs with
  | nil =>
      constructor
      · nofun
      · rintro ⟨before, x, after, hsplit, -⟩
        simp at hsplit
  | cons x xs ih =>
      rw [firstFault_cons, ← ih]
      simp only [← hstep]
      rw [eachOf]
      cases step x with
      | error e' => simp
      | ok y =>
          cases eachOf step xs with
          | error e' => simp
          | ok ys => simp

theorem eachOf_ok {xs : List α} {ys : List β} :
    eachOf step xs = .ok ys ↔ List.Forall₂ (fun x y => step x = .ok y) xs ys := by
  induction xs generalizing ys with
  | nil => simp [eachOf, eq_comm]
  | cons x xs ih =>
      rw [List.forall₂_cons_left_iff, eachOf]
      cases step x with
      | error e => simp
      | ok y =>
          cases hrest : eachOf step xs with
          | error e => simp [← ih, hrest]
          | ok zs => simp [← ih, hrest, eq_comm]

theorem eachOf_succeeds {xs : List α} :
    (∃ ys, eachOf step xs = .ok ys) ↔ ∀ x ∈ xs, ∃ y, step x = .ok y := by
  induction xs with
  | nil => simp [eachOf]
  | cons x xs ih =>
      rw [List.forall_mem_cons, ← ih, eachOf]
      cases step x with
      | error e => simp
      | ok y =>
          cases eachOf step xs with
          | error e => simp
          | ok ys => simp

/-- Where every step keeps a name, so do all steps together. -/
theorem map_of_eachOf {γ : Type} {f : α → γ} {g : β → γ}
    (hstep : ∀ x y, step x = .ok y → f x = g y) {xs : List α} {ys : List β}
    (h : eachOf step xs = .ok ys) : xs.map f = ys.map g := by
  rw [← List.forall₂_eq_eq_eq, List.forall₂_map_left_iff, List.forall₂_map_right_iff]
  exact (eachOf_ok.mp h).imp hstep

end Steps

/-! ### What can be wrong -/

section Faults

variable (language : Language) (files : Files) (schemaText : Bytes)

/-- A schema that is there and has no value. -/
inductive SchemaFault : LoadError → Prop
  | noValue : schemaText ≠ [] → language.compile? (Loader.closedStruct schemaText) = none →
      SchemaFault .badSchema

inductive FileFault (path : Bytes) : LoadError → Prop
  | unreadable {e : FileError} : files.read path = .error e → FileFault path (.file e)

/-- A source that has no value, or one that a schema does not admit. -/
inductive SourceFault (source : Source) : LoadError → Prop
  | noValue : language.compile? source.content = none → SourceFault source (.badSource source.name)
  | misfit {v s : Value} : language.compile? source.content = some v → schemaText ≠ [] →
      language.compile? (Loader.closedStruct schemaText) = some s →
      language.isValid (language.unify s v) = false → SourceFault source (.againstSchema source.name)

/-- The source that a path leads to. -/
def IsFile (path : Bytes) (source : Source) : Prop :=
  source.name = path ∧ files.read path = .ok source.content

/-- The load error: the fault of the schema, else of the first file that has one, else of the first
    source that has one. -/
inductive LoadFault (paths : List Bytes) (builtin : List Source) : LoadError → Prop
  | schema {e : LoadError} : SchemaFault language schemaText e → LoadFault paths builtin e
  | file {e : LoadError} : (∀ e, ¬ SchemaFault language schemaText e) →
      FirstFault (FileFault files) paths e → LoadFault paths builtin e
  | source {sources : List Source} {e : LoadError} : (∀ e, ¬ SchemaFault language schemaText e) →
      List.Forall₂ (IsFile files) paths sources →
      FirstFault (SourceFault language schemaText) (sources ++ builtin) e →
      LoadFault paths builtin e

end Faults

namespace Loader

/-- Whatever the loader is asked, it reports the error. -/
structure Fails (l : Loader) (e : LoadError) : Prop where
  paths : l.paths = .error e
  values : ∀ path, l.values path = .error e
  assign : ∀ (α : Type) (shape : Decoder α) path, l.assign shape path = .error (.load e)
  first : ∀ (α : Type) (shape : Decoder α) missing path,
    l.first shape missing path = .error (.load e)
  all : ∀ (α : Type) (shape : Decoder α) path, l.all shape path = [.error (.load e)]

/-- The loader has layers of these names, and whatever it is asked, it reports no load error. -/
structure Succeeds (l : Loader) (names : List Bytes) : Prop where
  paths : l.paths = .ok names
  values : ∀ path e, l.values path ≠ .error e
  assign : ∀ (α : Type) (shape : Decoder α) path e, l.assign shape path ≠ .error (.load e)
  first : ∀ (α : Type) (shape : Decoder α) missing path e,
    l.first shape missing path ≠ .error (.load e)
  all : ∀ (α : Type) (shape : Decoder α) path e, .error (.load e) ∉ l.all shape path

/-! ### What a loader reports -/

theorem fails_iff {l : Loader} {e : LoadError} : l.Fails e ↔ l.layers = .error e := by
  constructor
  · intro hfails
    have hpaths := hfails.paths
    rw [Loader.paths] at hpaths
    cases hlayers : l.layers with
    | error e' =>
        rw [hlayers] at hpaths
        cases hpaths
        rfl
    | ok layers =>
        rw [hlayers] at hpaths
        cases hpaths
  · intro hlayers
    have hvalues : ∀ path, l.values path = .error e := by
      intro path
      rw [values, hlayers]
    have hassign : ∀ (α : Type) (shape : Decoder α) path,
        l.assign shape path = .error (.load e) := by
      intro α shape path
      rw [assign, hvalues]
    refine ⟨?_, hvalues, hassign, ?_, ?_⟩
    · rw [Loader.paths, hlayers]
    · intro α shape missing path
      rw [first, hassign]
    · intro α shape path
      rw [all, hvalues]

theorem decode_ne_load {α : Type} (shape : Decoder α) (path : Bytes) (v : Value) (e : LoadError) :
    decode shape path v ≠ .error (.load e) := by
  rw [decode]
  cases shape v with
  | none => nofun
  | some a => nofun

theorem mem_of_upToError {α ε : Type} {x : Except ε α} {xs : List (Except ε α)}
    (h : x ∈ upToError xs) : x ∈ xs := by
  fun_induction upToError xs with
  | case1 => exact h
  | case2 a rest ih =>
      rcases List.mem_cons.mp h with rfl | hrest
      · exact List.mem_cons_self
      · exact List.mem_cons_of_mem _ (ih hrest)
  | case3 e rest =>
      cases List.mem_singleton.mp h
      exact List.mem_cons_self

theorem succeeds_of_ok {l : Loader} {layers : List Layer} (hlayers : l.layers = .ok layers) :
    l.Succeeds (layers.map (·.name)) := by
  have hvalues : ∀ path, ∃ vs, l.values path = .ok vs := by
    intro path
    rw [values, hlayers]
    exact ⟨_, rfl⟩
  have hassign : ∀ (α : Type) (shape : Decoder α) path e,
      l.assign shape path ≠ .error (.load e) := by
    intro α shape path e
    obtain ⟨vs, hvs⟩ := hvalues path
    rw [assign, hvs]
    cases vs with
    | nil => nofun
    | cons v vs => exact decode_ne_load shape path v e
  refine ⟨?_, ?_, hassign, ?_, ?_⟩
  · rw [Loader.paths, hlayers]
  · intro path e
    obtain ⟨vs, hvs⟩ := hvalues path
    rw [hvs]
    nofun
  · intro α shape missing path e hfirst
    rw [first] at hfirst
    split at hfirst
    · cases hfirst
    · exact hassign α shape path e hfirst
  · intro α shape path e hall
    obtain ⟨vs, hvs⟩ := hvalues path
    rw [all, hvs] at hall
    obtain ⟨v, -, hv⟩ := List.mem_map.mp (mem_of_upToError hall)
    exact decode_ne_load shape path v e hv

/-! ### What loading meets -/

variable {language : Language} {files : Files} {schemaText : Bytes}

theorem schema_error {e : LoadError} :
    schema language schemaText = .error e ↔ SchemaFault language schemaText e := by
  unfold schema
  constructor
  · intro h
    split at h
    · cases h
    · next hthere =>
        split at h
        · cases h
        · next hnone =>
            cases h
            exact .noValue (fun hempty => hthere (List.isEmpty_iff.mpr hempty)) hnone
  · rintro ⟨hthere, hnone⟩
    rw [if_neg (fun hempty => hthere (List.isEmpty_iff.mp hempty)), hnone]

theorem schema_of_no_fault (h : ∀ e, ¬ SchemaFault language schemaText e) :
    ∃ schema?, schema language schemaText = .ok schema? := by
  cases hschema : schema language schemaText with
  | error e => exact absurd (schema_error.mp hschema) (h e)
  | ok schema? => exact ⟨schema?, rfl⟩

theorem schema_value {schema? : Option Value} (h : schema language schemaText = .ok schema?)
    (s : Value) :
    schema? = some s ↔
      schemaText ≠ [] ∧ language.compile? (closedStruct schemaText) = some s := by
  unfold schema at h
  split at h
  · next hempty =>
      cases h
      simp [List.isEmpty_iff.mp hempty]
  · next hthere =>
      have hthere : schemaText ≠ [] := fun hempty => hthere (List.isEmpty_iff.mpr hempty)
      split at h
      · next v hv =>
          cases h
          simp [hthere, hv]
      · cases h

theorem readFile_error (path : Bytes) (e : LoadError) :
    readFile files path = .error e ↔ FileFault files path e := by
  unfold readFile
  constructor
  · intro h
    split at h
    · cases h
    · next hread =>
        cases h
        exact .unreadable hread
  · rintro ⟨hread⟩
    rw [hread]

theorem readFile_ok {path : Bytes} {source : Source} :
    readFile files path = .ok source ↔ IsFile files path source := by
  unfold readFile
  constructor
  · intro h
    split at h
    · next hread =>
        cases h
        exact ⟨rfl, hread⟩
    · cases h
  · rintro ⟨rfl, hread⟩
    rw [hread]

theorem layer_error {schema? : Option Value} (hschema : schema language schemaText = .ok schema?)
    (source : Source) (e : LoadError) :
    layer language schema? source = .error e ↔ SourceFault language schemaText source e := by
  have hvalue := schema_value hschema
  unfold layer
  constructor
  · intro h
    split at h
    · next hnone =>
        cases h
        exact .noValue hnone
    · next v hv =>
        split at h
        · cases h
        · next s =>
            obtain ⟨hthere, hs⟩ := (hvalue s).mp rfl
            split at h
            · cases h
            · next hvalid =>
                cases h
                exact .misfit hv hthere hs (eq_false_of_ne_true hvalid)
  · rintro (hnone | ⟨hv, hthere, hs, hvalid⟩)
    · rw [hnone]
    · obtain rfl := (hvalue _).mpr ⟨hthere, hs⟩
      simp only [hv, hvalid, Bool.false_eq_true, if_false]

/-- A layer is the value of its source, under its name. -/
theorem layer_ok {schema? : Option Value} {source : Source} {found : Layer}
    (h : layer language schema? source = .ok found) :
    ∃ v, language.compile? source.content = some v ∧ found = ⟨source.name, v⟩ := by
  unfold layer at h
  split at h
  · cases h
  · next v hv =>
      split at h
      · cases h
        exact ⟨v, hv, rfl⟩
      · split at h
        · cases h
          exact ⟨v, hv, rfl⟩
        · cases h

theorem layer_name {schema? : Option Value} {source : Source} {found : Layer}
    (h : layer language schema? source = .ok found) : source.name = found.name := by
  obtain ⟨v, -, rfl⟩ := layer_ok h
  rfl

theorem loadLayers_error {paths : List Bytes} {builtin : List Source} {e : LoadError} :
    loadLayers language files schemaText paths builtin = .error e ↔
      LoadFault language files schemaText paths builtin e := by
  have hread : eachOf (readFile files) paths = .error e ↔ FirstFault (FileFault files) paths e :=
    eachOf_error readFile_error paths e
  constructor
  · intro h
    unfold loadLayers at h
    cases hschema : schema language schemaText with
    | error e' =>
        rw [hschema] at h
        cases h
        exact .schema (schema_error.mp hschema)
    | ok schema? =>
        have hno : ∀ e, ¬ SchemaFault language schemaText e := by
          intro e he
          rw [schema_error.mpr he] at hschema
          cases hschema
        rw [hschema] at h
        dsimp only at h
        cases hfiles : eachOf (readFile files) paths with
        | error e' =>
            rw [hfiles] at h
            cases h
            exact .file hno (hread.mp hfiles)
        | ok sources =>
            rw [hfiles] at h
            have hsources := (eachOf_ok.mp hfiles).imp fun _ _ => readFile_ok.mp
            exact .source hno hsources ((eachOf_error (layer_error hschema) _ e).mp h)
  · -- The stages before the one that fails have results, which its faults were stated of.
    rintro (hfault | ⟨hno, hfirst⟩ | ⟨hno, hfiles, hfirst⟩)
    · rw [loadLayers, schema_error.mpr hfault]
    · obtain ⟨schema?, hschema⟩ := schema_of_no_fault hno
      rw [loadLayers, hschema]
      dsimp only
      rw [hread.mpr hfirst]
    · obtain ⟨schema?, hschema⟩ := schema_of_no_fault hno
      rw [loadLayers, hschema]
      dsimp only
      rw [eachOf_ok.mpr (hfiles.imp fun _ _ => readFile_ok.mpr)]
      exact (eachOf_error (layer_error hschema) _ e).mpr hfirst

theorem loadLayers_ok {paths : List Bytes} {builtin : List Source} {layers : List Layer}
    (h : loadLayers language files schemaText paths builtin = .ok layers) :
    layers.map (·.name) = paths ++ builtin.map (·.name) := by
  unfold loadLayers at h
  split at h
  · cases h
  · split at h
    · cases h
    · next sources hfiles =>
        have hpaths : paths.map id = sources.map (·.name) :=
          map_of_eachOf (fun _ _ hsource => (readFile_ok.mp hsource).1.symm) hfiles
        have hnames : (sources ++ builtin).map (·.name) = layers.map (·.name) :=
          map_of_eachOf (fun _ _ => layer_name) h
        rw [← hnames, List.map_append, ← hpaths, List.map_id]

variable (language files schemaText)

/-- In any language of configurations, loading either fails with one error, which every question to
    the loader reports, or gives a layer for every file and every built-in source, in this order. The
    error is the fault of the schema, else of the first file that cannot be read, whatever is in the
    files before it, else of the first source. -/
theorem loading_is_all_or_nothing (paths : List Bytes) (builtin : List Source) :
    ((∃ e, (loadIn language files schemaText paths builtin).Fails e) ∨
      (loadIn language files schemaText paths builtin).Succeeds
        (paths ++ builtin.map (·.name))) ∧
    ∀ e, (loadIn language files schemaText paths builtin).Fails e ↔
      LoadFault language files schemaText paths builtin e := by
  constructor
  · cases hlayers : loadLayers language files schemaText paths builtin with
    | error e =>
        left
        exact ⟨e, fails_iff.mpr hlayers⟩
    | ok layers =>
        right
        rw [← loadLayers_ok hlayers]
        exact succeeds_of_ok hlayers
  · intro e
    rw [fails_iff]
    exact loadLayers_error

/-- A file that is missing counts before one that has no value, also where it comes later. -/
theorem missing_file_outranks_bad_source :
    SourceFault .standard [] ⟨.ofString "bad", .ofString ":"⟩ (.badSource (.ofString "bad")) ∧
      (loadIn .standard ⟨[([.ofString "bad"], .ofString ":")], [], []⟩ []
        [.ofString "bad", .ofString "none"] []).Fails (.file (.missing (.ofString "none"))) := by
  constructor
  · exact .noValue rfl
  · refine ((loading_is_all_or_nothing _ _ _ _ _).2 _).mpr (.file ?_ ?_)
    · rintro e ⟨hthere, -⟩
      exact hthere rfl
    · refine ⟨[.ofString "bad"], .ofString "none", [], rfl, ?_, .unreadable (by decide)⟩
      rintro path hpath e ⟨hread⟩
      obtain rfl := List.mem_singleton.mp hpath
      cases hread

end Loader

end AsmAssist.Config
