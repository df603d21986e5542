import AsmAssist.Proofs.Session.History
import AsmAssist.Proofs.Symbol.Resolution

/- Definitions agree with the outline of a document. What a definition leads to is in the outline, and
   from every column of a label it leads to the first item of that name, which may be another label or
   the entry point. -/

namespace AsmAssist

namespace Request

theorem find?_outline (document uri name : Bytes) :
    (outline document uri).find? (·.name == name) =
      (Symbol.lookup? (Symbol.index document) name).map fun symbol =>
        ⟨symbol.name, uri, symbol.range⟩ := by
  rw [outline, List.find?_map]
  rfl

theorem declaration?_in_outline {document uri : Bytes} {line column : Int} {location : Location}
    (h : declaration? document line column uri = some location) :
    ∃ item ∈ outline document uri, item.location = location := by
  obtain ⟨symbol, hresolve, rfl⟩ := Option.map_eq_some_iff.mp h
  exact ⟨_, List.mem_map_of_mem (Symbol.mem_of_resolve? hresolve), rfl⟩

theorem declaration?_of_label {document uri : Bytes} {item : SymbolInformation}
    (hitem : item ∈ (outline document uri).tail) {column : Int}
    (hfrom : item.location.range.start.column ≤ column)
    (hto : column ≤ item.location.range.start.column + item.name.runeCount) :
    ∃ first, (outline document uri).find? (·.name == item.name) = some first ∧
      declaration? document item.location.range.start.line column uri = some first.location := by
  rw [outline, ← List.map_tail] at hitem
  obtain ⟨symbol, hsymbol, rfl⟩ := List.mem_map.mp hitem
  obtain ⟨first, hlookup, hresolve⟩ := Symbol.resolve?_index hsymbol hfrom hto
  refine ⟨⟨first.name, uri, first.range⟩, ?_, ?_⟩
  · rw [find?_outline, hlookup]
    rfl
  · rw [declaration?, hresolve]
    rfl

end Request

namespace Session

variable (language : Config.Language) (settings : Settings) (threshold : Journal.Level)
  (history : List Request)

theorem symbols_reached (document uri : Bytes) :
    ((reached language settings threshold history).symbols document uri).answer =
      Request.outline document uri := by
  simp only [symbols, askSymbols_eq (reached_faithful language settings threshold history),
    Request.outline]

theorem definition_reached (document : Bytes) (line column : Int) (uri : Bytes) :
    ((reached language settings threshold history).definition document line column uri).answer =
      Request.declaration? document line column uri := by
  have hreached := reached_faithful language settings threshold history
  obtain ⟨_, hrun⟩ := definition_cases hreached document line column uri
  rw [hrun]

/-- Whatever was asked before, a definition leads to an item of the outline; and from every column of
    a label, its ends included, it leads to the first item that has the name of the label. -/
theorem definition_agrees_with_outline (document uri : Bytes) :
    (∀ line column location,
      ((reached language settings threshold history).definition document line column uri).answer =
        some location →
      ∃ item ∈ ((reached language settings threshold history).symbols document uri).answer,
        item.location = location) ∧
    ∀ item ∈ ((reached language settings threshold history).symbols document uri).answer.tail,
      ∀ column, item.location.range.start.column ≤ column →
        column ≤ item.location.range.start.column + item.name.runeCount →
      ∃ first, ((reached language settings threshold history).symbols document uri).answer.find?
          (·.name == item.name) = some first ∧
        ((reached language settings threshold history).definition document
          item.location.range.start.line column uri).answer = some first.location := by
  simp only [symbols_reached, definition_reached]
  constructor
  · intro line column location hfound
    exact Request.declaration?_in_outline hfound
  · intro item hitem column hfrom hto
    exact Request.declaration?_of_label hitem hfrom hto

/-- A label that has the name of the entry point leads there, even from the column behind it. -/
theorem definition_of_entry_label :
    ((reached .standard ⟨⟨[], [], []⟩, [], []⟩ .warn
      [.symbols (.ofString "y:") (.ofString "u")]).definition
        (.ofString "x:_start:") 0 8 (.ofString "u")).answer =
        some ⟨.ofString "u", Symbol.entryPoint.range⟩ := by
  have hlabel := (definition_agrees_with_outline .standard ⟨⟨[], [], []⟩, [], []⟩ .warn
    [.symbols (.ofString "y:") (.ofString "u")] (.ofString "x:_start:") (.ofString "u")).2
    ⟨.ofString "_start", .ofString "u", ⟨⟨0, 2⟩, ⟨0, 9⟩⟩⟩ (by decide) 8 (by decide) (by decide)
  obtain ⟨first, hfirst, hfound⟩ := hlabel
  cases hfirst
  exact hfound

end Session

end AsmAssist
