import AsmAssist.Proofs.Config.Loading

/- Looking up in layers. All the data at a path is read layer by layer, highest first, up to the first
   value of the wrong shape; what is looked up alone is the first of that. So a source below one that
   has a value at the path has no say, nor has a source where something stands that is no value. -/

namespace AsmAssist.Config

/-- What stands at a path in a source. -/
def Source.finding (language : Language) (path : Bytes) (source : Source) : Finding :=
  match language.compile? source.content with
  | some v => language.find path v
  | none => .absent

/-- What is read at a path, given what stands there in each layer, highest first. A layer with nothing
    there, or with something that is no value, adds nothing; a value of the wrong shape is an error and
    the end. -/
inductive Yields {α : Type} (shape : Decoder α) (path : Bytes) :
    List Finding → List (Except LookupError α) → Prop
  | nil : Yields shape path [] []
  | absent {findings : List Finding} {entries : List (Except LookupError α)} :
      Yields shape path findings entries → Yields shape path (.absent :: findings) entries
  | erroneous {findings : List Finding} {entries : List (Except LookupError α)} :
      Yields shape path findings entries → Yields shape path (.erroneous :: findings) entries
  | datum {findings : List Finding} {entries : List (Except LookupError α)} {v : Value} {a : α} :
      shape v = some a → Yields shape path findings entries →
      Yields shape path (.value v :: findings) (.ok a :: entries)
  | misfit {findings : List Finding} {v : Value} : shape v = none →
      Yields shape path (.value v :: findings) [.error (.shape path)]

/-- The sources of a configuration by falling priority: its files, and what is built in. -/
def SourcesOf (files : Files) (paths : List Bytes) (builtin sources : List Source) : Prop :=
  ∃ read, List.Forall₂ (IsFile files) paths read ∧ sources = read ++ builtin

namespace Loader

variable {α : Type}

/-- How the answers of a loader hang together: what is looked up alone is the first of all. -/
structure Answers (l : Loader) (shape : Decoder α) (path : Bytes) : Prop where
  succeeds : ∀ a, l.assign shape path = .ok a ↔ (l.all shape path).head? = some (.ok a)
  fails : l.assign shape path = .error (.shape path) ↔
    ∃ e, (l.all shape path).head? = some (.error e)
  misses : l.assign shape path = .error .notFound ↔ l.all shape path = []
  first_missing : l.all shape path = [] → ∀ missing, l.first shape missing path = .ok missing

/-- Two loaders give the same answers to all questions for a path. -/
structure SameAt (l l' : Loader) (path : Bytes) : Prop where
  values : l.values path = l'.values path
  assign : ∀ (α : Type) (shape : Decoder α), l.assign shape path = l'.assign shape path
  first : ∀ (α : Type) (shape : Decoder α) missing,
    l.first shape missing path = l'.first shape missing path
  all : ∀ (α : Type) (shape : Decoder α), l.all shape path = l'.all shape path

/-! ### Answers from the values at a path -/

theorem head?_upToError {ε : Type} (xs : List (Except ε α)) : (upToError xs).head? = xs.head? := by
  fun_cases upToError xs <;> rfl

theorem decode_error {shape : Decoder α} {path : Bytes} {v : Value} {e : LookupError}
    (h : decode shape path v = .error e) : e = .shape path := by
  rw [decode] at h
  cases hshape : shape v with
  | none =>
      rw [hshape] at h
      cases h
      rfl
  | some a =>
      rw [hshape] at h
      cases h

theorem answers_of_values {l : Loader} {path : Bytes} {vs : List Value} (h : l.values path = .ok vs)
    (shape : Decoder α) : l.Answers shape path := by
  have hall : l.all shape path = upToError (vs.map (decode shape path)) := by rw [all, h]
  have hhead : (l.all shape path).head? = vs.head?.map (decode shape path) := by
    rw [hall, head?_upToError, List.head?_map]
  cases vs with
  | nil =>
      have hassign : l.assign shape path = .error .notFound := by rw [assign, h]
      have hnone : l.all shape path = [] := hall
      constructor
      · simp [hassign, hnone]
      · simp [hassign, hnone]
      · simp [hassign, hnone]
      · intro _ missing
        rw [first, hassign]
  | cons v vs =>
      have hassign : l.assign shape path = decode shape path v := by rw [assign, h]
      have hsome : l.all shape path ≠ [] := by
        intro hnone
        rw [hnone] at hhead
        cases hhead
      rw [List.head?_cons, Option.map_some] at hhead
      constructor
      · simp [hassign, hhead]
      · rw [hassign, hhead]
        constructor
        · intro hdecode
          exact ⟨_, congrArg some hdecode⟩
        · rintro ⟨e, he⟩
          cases decode_error (Option.some.inj he)
          exact Option.some.inj he
      · rw [hassign]
        constructor
        · intro hdecode
          cases decode_error hdecode
        · exact fun hnone => absurd hnone hsome
      · exact fun hnone => absurd hnone hsome

/-- All questions for a path are answered from the values there. -/
theorem sameAt_of_values {l l' : Loader} {path : Bytes} (h : l.values path = l'.values path) :
    SameAt l l' path := by
  have hassign : ∀ (α : Type) (shape : Decoder α), l.assign shape path = l'.assign shape path := by
    intro α shape
    rw [assign, assign, h]
  refine ⟨h, hassign, ?_, ?_⟩
  · intro α shape missing
    rw [first, first, hassign]
  · intro α shape
    rw [all, all, h]

/-- What comes after a value is not looked at when one value is asked for. -/
theorem assign_of_values {l l' : Loader} {path : Bytes} {upper lower lower' : List Value} {v : Value}
    (h : l.values path = .ok (upper ++ v :: lower))
    (h' : l'.values path = .ok (upper ++ v :: lower')) (shape : Decoder α) :
    l.assign shape path = l'.assign shape path := by
  rw [assign, assign, h, h']
  cases upper with
  | nil => rfl
  | cons u upper => rfl

theorem yields_all {l : Loader} {path : Bytes} {findings : List Finding}
    (h : l.values path = .ok (findings.filterMap Finding.value?)) (shape : Decoder α) :
    Yields shape path findings (l.all shape path) := by
  have hall : l.all shape path =
      upToError ((findings.filterMap Finding.value?).map (decode shape path)) := by rw [all, h]
  rw [hall]
  clear h hall
  induction findings with
  | nil => exact .nil
  | cons finding findings ih =>
      cases finding with
      | absent => exact .absent ih
      | erroneous => exact .erroneous ih
      | value v =>
          have hvalue : (Finding.value v).value? = some v := rfl
          rw [List.filterMap_cons_some hvalue, List.map_cons]
          cases hshape : shape v with
          | none =>
              have hdecode : decode shape path v = .error (.shape path) := by rw [decode, hshape]
              rw [hdecode]
              exact .misfit hshape
          | some a =>
              have hdecode : decode shape path v = .ok a := by rw [decode, hshape]
              rw [hdecode]
              exact .datum hshape ih

/-! ### Values from the sources -/

section Sources

variable {language : Language} {files : Files} {schemaText : Bytes} {paths : List Bytes}
  {builtin sources : List Source}

theorem loadLayers_of_sources (hsources : SourcesOf files paths builtin sources) :
    loadLayers language files schemaText paths builtin =
      match schema language schemaText with
      | .error e => .error e
      | .ok schema? => eachOf (layer language schema?) sources := by
  obtain ⟨read, hread, rfl⟩ := hsources
  have hfiles : eachOf (readFile files) paths = .ok read :=
    eachOf_ok.mpr (hread.imp fun _ _ => readFile_ok.mpr)
  unfold loadLayers
  cases schema language schemaText with
  | error e => rfl
  | ok schema? => simp only [hfiles]

theorem sources_of_ok {layers : List Layer}
    (h : loadLayers language files schemaText paths builtin = .ok layers) :
    ∃ sources, SourcesOf files paths builtin sources := by
  unfold loadLayers at h
  split at h
  · cases h
  · split at h
    · cases h
    · next read hfiles =>
        exact ⟨_, read, (eachOf_ok.mp hfiles).imp fun _ _ => readFile_ok.mp, rfl⟩

/-- A source is a layer or not whatever the sources beside it are. -/
theorem loads_iff (hsources : SourcesOf files paths builtin sources) :
    (∃ layers, loadLayers language files schemaText paths builtin = .ok layers) ↔
      ∃ schema?, schema language schemaText = .ok schema? ∧
        ∀ source ∈ sources, ∃ found, layer language schema? source = .ok found := by
  rw [loadLayers_of_sources hsources]
  cases schema language schemaText with
  | error e => simp
  | ok schema? => simp [eachOf_succeeds]

theorem layer_finding {schema? : Option Value} {source : Source} {found : Layer}
    (h : layer language schema? source = .ok found) (path : Bytes) :
    source.finding language path = language.find path found.value := by
  obtain ⟨v, hv, rfl⟩ := layer_ok h
  rw [Source.finding, hv]

theorem values_of_sources (hsources : SourcesOf files paths builtin sources) {layers : List Layer}
    (h : loadLayers language files schemaText paths builtin = .ok layers) (path : Bytes) :
    (loadIn language files schemaText paths builtin).values path =
      .ok ((sources.map (·.finding language path)).filterMap Finding.value?) := by
  have hfindings : sources.map (·.finding language path) =
      layers.map fun layer => language.find path layer.value := by
    rw [loadLayers_of_sources hsources] at h
    split at h
    · cases h
    · exact map_of_eachOf (fun _ _ hlayer => layer_finding hlayer path) h
  rw [values, loadIn, h, hfindings, List.filterMap_map]
  rfl

/-! ### Sources without a say -/

variable {files' : Files} {paths' : List Bytes} {builtin' : List Source} {path : Bytes}
  {upper lower lower' : List Source} {source : Source}

/-- Below a source with a value at the path, all sources can be others. -/
theorem assign_of_finding {layers layers' : List Layer} {v : Value}
    (hfinding : source.finding language path = .value v)
    (hsources : SourcesOf files paths builtin (upper ++ source :: lower))
    (hload : loadLayers language files schemaText paths builtin = .ok layers)
    (hsources' : SourcesOf files' paths' builtin' (upper ++ source :: lower'))
    (hload' : loadLayers language files' schemaText paths' builtin' = .ok layers')
    (shape : Decoder α) :
    (loadIn language files schemaText paths builtin).assign shape path =
      (loadIn language files' schemaText paths' builtin').assign shape path := by
  have hsplit : ∀ below : List Source,
      ((upper ++ source :: below).map (·.finding language path)).filterMap Finding.value? =
        (upper.map (·.finding language path)).filterMap Finding.value? ++
          v :: (below.map (·.finding language path)).filterMap Finding.value? := by
    intro below
    have hvalue : (source.finding language path).value? = some v := by rw [hfinding, Finding.value?]
    rw [List.map_append, List.map_cons, List.filterMap_append, List.filterMap_cons_some hvalue]
  have hvalues := values_of_sources hsources hload path
  have hvalues' := values_of_sources hsources' hload' path
  rw [hsplit] at hvalues hvalues'
  exact assign_of_values hvalues hvalues' shape

/-- A source with something at the path that is no value can be left out. What is left still loads,
    as each source was a layer for itself. -/
theorem sameAt_without_erroneous {layers : List Layer}
    (hfinding : source.finding language path = .erroneous)
    (hsources : SourcesOf files paths builtin (upper ++ source :: lower))
    (hload : loadLayers language files schemaText paths builtin = .ok layers)
    (hsources' : SourcesOf files' paths' builtin' (upper ++ lower)) :
    SameAt (loadIn language files schemaText paths builtin)
      (loadIn language files' schemaText paths' builtin') path := by
  obtain ⟨schema?, hschema, hlayer⟩ := (loads_iff hsources).mp ⟨layers, hload⟩
  have hkept : ∀ kept ∈ upper ++ lower, ∃ found, layer language schema? kept = .ok found := by
    intro kept hmem
    exact hlayer kept ((List.sublist_cons_self source lower).append_left upper |>.subset hmem)
  obtain ⟨layers', hload'⟩ := (loads_iff hsources').mpr ⟨schema?, hschema, hkept⟩
  have hvalue : (source.finding language path).value? = none := by simp [hfinding, Finding.value?]
  apply sameAt_of_values
  rw [values_of_sources hsources hload, values_of_sources hsources' hload', List.map_append,
    List.map_append, List.map_cons, List.filterMap_append, List.filterMap_append,
    List.filterMap_cons_none hvalue]

end Sources

variable (language : Language) (files : Files) (schemaText : Bytes)

/-- In any language of configurations, a lookup in a loader that has layers asks them in order. All
    the data is what the sources yield, highest first, and one lookup gives the first of it: its data,
    or its error, or that nothing was found. Once a source has a value at the path, the sources below
    it can be others, and a source with something there that is no value can be left out. -/
theorem lookup_is_layered (paths : List Bytes) (builtin : List Source) {layers : List Layer}
    (hload : (loadIn language files schemaText paths builtin).layers = .ok layers) :
    ∃ sources, SourcesOf files paths builtin sources ∧ ∀ (α : Type) (shape : Decoder α) path,
      (loadIn language files schemaText paths builtin).Answers shape path ∧
      Yields shape path (sources.map (·.finding language path))
        ((loadIn language files schemaText paths builtin).all shape path) ∧
      ∀ upper source lower, sources = upper ++ source :: lower →
        ∀ files' paths' builtin',
          (∀ v lower' layers', source.finding language path = .value v →
            SourcesOf files' paths' builtin' (upper ++ source :: lower') →
            (loadIn language files' schemaText paths' builtin').layers = .ok layers' →
            (loadIn language files schemaText paths builtin).assign shape path =
              (loadIn language files' schemaText paths' builtin').assign shape path ∧
            ∀ missing, (loadIn language files schemaText paths builtin).first shape missing path =
              (loadIn language files' schemaText paths' builtin').first shape missing path) ∧
          (source.finding language path = .erroneous →
            SourcesOf files' paths' builtin' (upper ++ lower) →
            SameAt (loadIn language files schemaText paths builtin)
              (loadIn language files' schemaText paths' builtin') path) := by
  obtain ⟨sources, hsources⟩ := sources_of_ok hload
  refine ⟨sources, hsources, ?_⟩
  intro α shape path
  have hvalues := values_of_sources hsources hload path
  refine ⟨answers_of_values hvalues shape, yields_all hvalues shape, ?_⟩
  rintro upper source lower rfl files' paths' builtin'
  constructor
  · intro v lower' layers' hfinding hsources' hload'
    have hassign := assign_of_finding hfinding hsources hload hsources' hload' shape
    refine ⟨hassign, ?_⟩
    intro missing
    rw [first, first, hassign]
  · intro hfinding hsources'
    exact sameAt_without_erroneous hfinding hsources hload hsources'

/-- Three built-in sources: one with a name that is not resolved, one with a flag, one with a number.
    Asked for the flag, the first can be left out and the last can be another. -/
theorem flag_between_erroneous_and_misfit :
    (∃ layers, (loadIn .standard ⟨[], [], []⟩ [] [] [⟨[], .ofString "x?: 1\ny: x"⟩,
      ⟨[], .ofString "y: true"⟩, ⟨[], .ofString "y: 3"⟩]).layers = .ok layers) ∧
    Source.finding .standard (.ofString "y") ⟨[], .ofString "x?: 1\ny: x"⟩ = .erroneous ∧
    SameAt
      (loadIn .standard ⟨[], [], []⟩ [] [] [⟨[], .ofString "x?: 1\ny: x"⟩,
        ⟨[], .ofString "y: true"⟩, ⟨[], .ofString "y: 3"⟩])
      (loadIn .standard ⟨[], [], []⟩ [] [] [⟨[], .ofString "y: true"⟩, ⟨[], .ofString "y: 3"⟩])
      (.ofString "y") ∧
    ∀ missing,
      (loadIn .standard ⟨[], [], []⟩ [] [] [⟨[], .ofString "x?: 1\ny: x"⟩,
        ⟨[], .ofString "y: true"⟩, ⟨[], .ofString "y: 3"⟩]).first .bool missing (.ofString "y") =
      (loadIn .standard ⟨[], [], []⟩ [] [] [⟨[], .ofString "x?: 1\ny: x"⟩,
        ⟨[], .ofString "y: true"⟩]).first .bool missing (.ofString "y") := by
  obtain ⟨sources, ⟨read, hread, rfl⟩, hlookup⟩ :=
    lookup_is_layered .standard ⟨[], [], []⟩ [] [] [⟨[], .ofString "x?: 1\ny: x"⟩,
      ⟨[], .ofString "y: true"⟩, ⟨[], .ofString "y: 3"⟩] rfl
  cases hread
  obtain ⟨-, -, hwithout⟩ := hlookup Bool .bool (.ofString "y")
  refine ⟨⟨_, rfl⟩, rfl, ?_, ?_⟩
  · exact (hwithout [] _ _ rfl _ _ _).2 rfl ⟨[], .nil, rfl⟩
  · exact ((hwithout [_] _ _ rfl _ _ _).1 _ [] _ rfl ⟨[], .nil, rfl⟩ rfl).2

end Loader

end AsmAssist.Config
