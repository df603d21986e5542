import AsmAssist.Proofs.Symbol.Index

/- Which symbol a cursor names. A cursor at either end of a label touches two tokens, but its neighbour
   in front can only be the colon of the label before, and no symbol is called that: names are words.
   So a cursor on a label finds the first symbol of that name. -/

namespace AsmAssist.Symbol

/-! ### Tokens of a line -/

section Scanned

variable {text : Bytes} {lineNumber : Int} {t : Token} (ht : t ∈ (Scan.line text lineNumber).tokens)

include ht

theorem scanned_word (hword : t.kind = .word) : ∀ b ∈ t.text, Ascii.isWord b = true := by
  obtain ⟨pieces, s, hreads, p, hp, rfl⟩ := Scan.piece_of_mem ht
  exact hreads.word_bytes p hp hword

theorem scanned_colon (hcolon : t.kind = .colon) : t.text = [':'.toUInt8] := by
  obtain ⟨pieces, s, hreads, p, hp, rfl⟩ := Scan.piece_of_mem ht
  exact hreads.text_of_colon p hp hcolon

theorem scanned_width (hword : t.kind = .word) :
    t.range.stop.column = t.range.start.column + t.text.runeCount := by
  obtain ⟨pieces, s, hreads, p, hp, rfl⟩ := Scan.piece_of_mem ht
  rw [hreads.text_of_word p hp hword]
  exact hreads.width_of_mem p hp

end Scanned

/-! ### Names -/

theorem name_of_declared {text : Bytes} {lineNumber : Int} {s : Symbol}
    (h : s ∈ declared text lineNumber) : ∀ b ∈ s.name, Ascii.isWord b = true := by
  obtain ⟨t, ht, hword, hname, -⟩ := leading_word ((declared_sublist text lineNumber).mem h)
  rw [hname]
  exact scanned_word ht hword

theorem name_of_index {document : Bytes} {s : Symbol} (h : s ∈ index document) :
    ∀ b ∈ s.name, Ascii.isWord b = true := by
  rcases List.mem_cons.mp h with rfl | hdeclared
  · exact List.all_eq_true.mp (by decide)
  · change s ∈ (index document).tail at hdeclared
    rw [index_tail] at hdeclared
    obtain ⟨⟨n, text⟩, -, hs⟩ := List.mem_flatMap.mp hdeclared
    exact name_of_declared hs

theorem lookup?_colon (document : Bytes) : lookup? (index document) [':'.toUInt8] = .none := by
  apply List.find?_eq_none.mpr
  intro s hs hname
  have hword := name_of_index hs ':'.toUInt8 (by rw [eq_of_beq hname]; exact List.mem_singleton.mpr rfl)
  exact absurd hword (by decide)

theorem lookup?_of_mem {table : List Symbol} {s : Symbol} (h : s ∈ table) :
    ∃ first, lookup? table s.name = some first := by
  apply Option.isSome_iff_exists.mp
  rw [lookup?, List.find?_isSome]
  exact ⟨s, h, BEq.rfl⟩

theorem mem_of_resolve? {text : Bytes} {lineNumber column : Int} {table : List Symbol} {s : Symbol}
    (h : resolve? text lineNumber column table = some s) : s ∈ table := by
  obtain ⟨t, -, hfound⟩ := List.exists_of_findSome?_eq_some h
  exact List.mem_of_find?_eq_some hfound

/-! ### The cursor on a label -/

/-- Of the tokens that touch a column on a label, the word of the label is the first that names a
    symbol: what stands further in front does not touch it, and colons name nothing. -/
theorem findSome?_leading {lineNumber : Int} {tokens : List Token} {table : List Symbol}
    {s first : Symbol} {column : Int} (hordered : Folding.Ordered lineNumber tokens)
    (hwidth : ∀ t ∈ tokens, t.kind = .word →
      t.range.stop.column = t.range.start.column + t.text.runeCount)
    (hcolon : ∀ t ∈ tokens, t.kind = .colon → lookup? table t.text = .none)
    (hs : s ∈ leading tokens) (hfirst : lookup? table s.name = some first)
    (hfrom : s.range.start.column ≤ column)
    (hto : column ≤ s.range.start.column + s.name.runeCount) :
    (tokens.filter (·.range.covers column)).findSome? (fun t => lookup? table t.text) =
      some first := by
  fun_induction leading tokens with
  | case1 a b rest hpair ih =>
      simp only [List.forall_mem_cons] at hwidth hcolon
      rcases List.mem_cons.mp hs with rfl | hs
      · have hcovers : a.range.covers column = true := by
          have hstop := hwidth.1 hpair.1
          simp only [Range.covers, Bool.and_eq_true, decide_eq_true_eq] at hfrom hto ⊢
          omega
        rw [List.filter_cons_of_pos (by simp [hcovers]), List.findSome?_cons, hfirst]
      · -- The colon `b` is at least one column wide, so `a` ends before the label `t` starts; `b` may
        -- end where `t` starts.
        obtain ⟨t, ht, -, -, hstart⟩ := leading_word hs
        have hapart := hordered.apart
        simp only [List.pairwise_cons, List.forall_mem_cons] at hapart
        have hwide := hordered.wide b (by simp)
        have hbefore := hapart.2.1 t ht
        have hskip : a.range.covers column = false := by
          simp only [Range.covers, Bool.and_eq_false_iff, decide_eq_false_iff_not]
          rw [hstart] at hfrom
          omega
        have hsub : List.Sublist rest (a :: b :: rest) := .cons _ (.cons _ (.refl _))
        have hrest := ih (hordered.sublist hsub) hwidth.2.2 hcolon.2.2 hs
        rw [List.filter_cons_of_neg (by simp [hskip])]
        cases hb : b.range.covers column with
        | false => rwa [List.filter_cons_of_neg (by simp [hb])]
        | true => rwa [List.filter_cons_of_pos (by simp [hb]), List.findSome?_cons, hcolon.2.1 hpair.2]
  | case2 => cases hs
  | case3 => cases hs

theorem resolve?_declared {document text : Bytes} {lineNumber column : Int} {s first : Symbol}
    (hs : s ∈ declared text lineNumber) (hfirst : lookup? (index document) s.name = some first)
    (hfrom : s.range.start.column ≤ column)
    (hto : column ≤ s.range.start.column + s.name.runeCount) :
    resolve? text lineNumber column (index document) = some first := by
  refine findSome?_leading (Folding.scanned text lineNumber).2 ?_ ?_
    ((declared_sublist text lineNumber).mem hs) hfirst hfrom hto
  · intro t ht hword
    exact scanned_width ht hword
  · intro t ht hcolon
    rw [scanned_colon ht hcolon]
    exact lookup?_colon document

/-- A cursor on a label of a document finds the first symbol with the name of the label. -/
theorem resolve?_index {document : Bytes} {s : Symbol} (hs : s ∈ (index document).tail) {column : Int}
    (hfrom : s.range.start.column ≤ column)
    (hto : column ≤ s.range.start.column + s.name.runeCount) :
    ∃ first, lookup? (index document) s.name = some first ∧
      resolve? (Lines.line document s.range.start.line) s.range.start.line column (index document) =
        some first := by
  obtain ⟨first, hfirst⟩ := lookup?_of_mem (List.mem_of_mem_tail hs)
  refine ⟨first, hfirst, ?_⟩
  rw [index_tail] at hs
  obtain ⟨⟨n, text⟩, hline, hdeclared⟩ := List.mem_flatMap.mp hs
  rw [line_of_declared hdeclared, Lines.line_of_mem hline]
  exact resolve?_declared hdeclared hfirst hfrom hto

end AsmAssist.Symbol
