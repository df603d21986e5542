import AsmAssist.Symbol
import AsmAssist.Proofs.Folding.Trees

/- The index of a document, read without folding. On a line that was understood to its end, the labels
   that folding finds in front are the words in front that have a colon behind them. So each symbol
   stands where its name is spelled, and the symbols come in the order of the document. -/

namespace AsmAssist

/-- The order of places in a document. -/
def Position.Precedes (p q : Position) : Prop :=
  p.line < q.line ∨ p.line = q.line ∧ p.column < q.column

namespace Lines

theorem line_of_mem {s text : Bytes} {n : Nat} (h : (n, text) ∈ numbered s) : line s n = text := by
  obtain ⟨⟨found, i⟩, hmem, heq⟩ := List.mem_map.mp h
  cases heq
  have hat : (of s)[n]? = some text := List.mem_zipIdx_iff_getElem?.mp hmem
  rw [line, if_neg (by omega), Int.toNat_natCast, hat]
  rfl

theorem numbered_increasing (s : Bytes) : (numbered s).Pairwise fun a b => a.1 < b.1 := by
  have hnumbers : (numbered s).map Prod.fst = List.range' 0 (of s).length := by
    rw [numbered, List.map_map, ← List.zipIdx_map_snd]
    rfl
  rw [← List.pairwise_map (f := Prod.fst) (R := fun a b : Nat => a < b), hnumbers]
  exact List.pairwise_lt_range'

end Lines

namespace Symbol

open Folding (reduce)

/-- The labels in front of scanned tokens: the longest row of words with a colon behind each. -/
def leading : List Token → List Symbol
  | name :: colon :: rest =>
      if name.kind = .word ∧ colon.kind = .colon then
        ⟨name.text, ⟨name.range.start, colon.range.stop⟩⟩ :: leading rest
      else []
  | _ => []

/-- The labels that a line declares. A line that was not understood to its end declares none. -/
def declared (text : Bytes) (lineNumber : Int) : List Symbol :=
  match (Scan.line text lineNumber).error with
  | .none => leading (Scan.line text lineNumber).tokens
  | .some _ => []

/-- The name stands in the document where the symbol starts. -/
def SpelledAt (document : Bytes) (s : Symbol) : Prop :=
  ∃ before after, Lines.line document s.range.start.line = before ++ s.name ++ after ∧
    (Lines.line document s.range.start.line).takeRunes s.range.start.column = before ∧
    before.runeCount = s.range.start.column

/-! ### Labels in front -/

theorem takeWhile_label_eq_nil {tokens : List Token} (h : ∀ t ∈ tokens.head?, t.kind ≠ .label) :
    tokens.takeWhile (·.kind == .label) = [] := by
  cases tokens with
  | nil => rfl
  | cons t tokens => exact List.takeWhile_cons_of_neg (by simpa using h t rfl)

/-- The labels in front of the folded tokens are the words in front with a colon behind them. -/
theorem leading_of_reduce {tokens : List Token} (hlabel : ∀ t ∈ tokens, t.kind ≠ .label) :
    ((reduce tokens).takeWhile (·.kind == .label)).map (fun t => ⟨t.text, t.range⟩) =
      leading tokens := by
  rw [Folding.reduce_eq_pass]
  have hfirst : ∀ t ∈ tokens.head?, t.kind ≠ .label :=
    fun t ht => hlabel t (List.mem_of_mem_head? ht)
  fun_induction leading tokens with
  | case1 a b rest hpair ih =>
      simp only [List.forall_mem_cons] at hlabel
      rw [Folding.pass_label hpair.1 hpair.2, List.takeWhile_cons_of_pos rfl, List.map_cons,
        ih hlabel.2.2 fun t ht => hlabel.2.2 t (List.mem_of_mem_head? ht)]
      rfl
  | case2 a b rest hpair =>
      rw [takeWhile_label_eq_nil (Folding.pass_no_label hfirst ?_)]
      · rfl
      · rintro _ _ _ ⟨rfl⟩
        exact hpair
  | case3 tokens hshort =>
      rw [takeWhile_label_eq_nil (Folding.pass_no_label hfirst ?_)]
      · rfl
      · rintro a b rest rfl
        exact absurd rfl (hshort a b rest)

/-- The symbols of a line need no folding. -/
theorem ofLine_eq_declared (text : Bytes) (lineNumber : Int) :
    ofLine text lineNumber = declared text lineNumber := by
  have hlabel : ∀ t ∈ (Scan.line text lineNumber).tokens, t.kind ≠ .label :=
    fun t ht => (Folding.scanned_of_mem t ht).not_label
  cases herror : (Scan.line text lineNumber).error with
  | none =>
      simp only [ofLine, declared, Line.tokenize, herror]
      exact leading_of_reduce hlabel
  | some e =>
      simp only [ofLine, declared, Line.tokenize, herror]
      rw [takeWhile_label_eq_nil fun t ht => hlabel t (List.mem_of_mem_head? ht)]
      rfl

theorem index_tail (document : Bytes) :
    (index document).tail =
      (Lines.numbered document).flatMap fun (n, text) => declared text n := by
  simp only [index, List.tail_cons, ofLine_eq_declared]

/-! ### Places -/

theorem leading_word {tokens : List Token} {s : Symbol} (h : s ∈ leading tokens) :
    ∃ t ∈ tokens, t.kind = .word ∧ s.name = t.text ∧ s.range.start = t.range.start := by
  fun_induction leading tokens with
  | case1 a b rest hpair ih =>
      rcases List.mem_cons.mp h with rfl | h
      · exact ⟨a, List.mem_cons_self .., hpair.1, rfl, rfl⟩
      · obtain ⟨t, ht, hword⟩ := ih h
        exact ⟨t, List.mem_cons_of_mem a (List.mem_cons_of_mem b ht), hword⟩
  | case2 => cases h
  | case3 => cases h

theorem leading_starts (tokens : List Token) :
    List.Sublist ((leading tokens).map (·.range.start)) (tokens.map (·.range.start)) := by
  fun_induction leading tokens with
  | case1 a b rest hpair ih => exact .cons_cons _ (.cons _ ih)
  | case2 => exact List.nil_sublist _
  | case3 => exact List.nil_sublist _

theorem declared_sublist (text : Bytes) (lineNumber : Int) :
    List.Sublist (declared text lineNumber) (leading (Scan.line text lineNumber).tokens) := by
  rw [declared]
  split
  · exact List.Sublist.refl _
  · exact List.nil_sublist _

section Declared

variable {text : Bytes} {lineNumber : Int} {s : Symbol} (h : s ∈ declared text lineNumber)

include h

theorem line_of_declared : s.range.start.line = lineNumber := by
  obtain ⟨t, ht, -, -, hstart⟩ := leading_word ((declared_sublist text lineNumber).mem h)
  rw [hstart]
  exact ((Folding.scanned text lineNumber).2.onLine t ht).1

theorem spelled_of_declared :
    ∃ before after, text = before ++ s.name ++ after ∧
      text.takeRunes s.range.start.column = before ∧ before.runeCount = s.range.start.column := by
  obtain ⟨t, ht, hword, hname, hstart⟩ := leading_word ((declared_sublist text lineNumber).mem h)
  obtain ⟨pieces, last, hreads, p, hp, rfl⟩ := Scan.piece_of_mem ht
  obtain ⟨before, after, hsplit, hcount, htake, -⟩ := hreads.place_of_mem hp
  rw [hname, hreads.text_of_word p hp hword, hstart]
  exact ⟨before, after, hsplit, htake, hcount⟩

end Declared

theorem declared_increasing (text : Bytes) (lineNumber : Int) :
    (declared text lineNumber).Pairwise fun s t => s.range.start.Precedes t.range.start := by
  have hordered := (Folding.scanned text lineNumber).2
  have htokens : ((Scan.line text lineNumber).tokens.map (·.range.start)).Pairwise
      Position.Precedes := by
    rw [List.pairwise_map]
    refine hordered.increasing.imp_of_mem ?_
    intro t u ht hu hlt
    exact .inr ⟨(hordered.onLine t ht).1.trans (hordered.onLine u hu).1.symm, hlt⟩
  have hleading := htokens.sublist (leading_starts _)
  rw [List.pairwise_map] at hleading
  exact hleading.sublist (declared_sublist text lineNumber)

/-- The index is the entry point and what the lines declare. Behind the entry point every symbol
    stands where its name is spelled, and each comes after the ones before it. -/
theorem index_reads_labels (document : Bytes) :
    index document = entryPoint ::
      (Lines.numbered document).flatMap (fun (n, text) => declared text n) ∧
    (∀ s ∈ (index document).tail, SpelledAt document s) ∧
    (index document).tail.Pairwise fun s t => s.range.start.Precedes t.range.start := by
  refine ⟨congrArg (entryPoint :: ·) (index_tail document), ?_, ?_⟩
  · rw [index_tail]
    intro s hs
    obtain ⟨⟨n, text⟩, hline, hs⟩ := List.mem_flatMap.mp hs
    have htext : Lines.line document s.range.start.line = text := by
      rw [line_of_declared hs, Lines.line_of_mem hline]
    rw [SpelledAt, htext]
    exact spelled_of_declared hs
  · rw [index_tail, List.pairwise_flatMap]
    refine ⟨fun line _ => declared_increasing _ _, ?_⟩
    refine (Lines.numbered_increasing document).imp ?_
    intro a b hlt s hs t ht
    left
    rw [line_of_declared hs, line_of_declared ht]
    omega

end Symbol

end AsmAssist
