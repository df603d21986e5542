import AsmAssist.Proofs.Scanner.Reading

/- What the tokens of a line cover: the texts that were read and the rest are the line, and the
   columns of a token count the characters of the line up to it, also where the line is not UTF-8. -/

namespace AsmAssist

/-- The characters of a line between the two columns of a range. -/
def Range.slice (r : Range) (line : Bytes) : Bytes :=
  (line.takeRunes r.stop.column).drop (line.takeRunes r.start.column).length

namespace Scanner

structure Covers (line : Bytes) (lineNumber : Int) (pieces : List Piece) (remaining : Bytes) :
    Prop where
  first : ∀ p ∈ pieces.head?, p.token.range.start = ⟨lineNumber, 0⟩
  adjacent : pieces.IsChain fun p q => q.token.range.start = p.token.range.stop
  onLine : ∀ p ∈ pieces,
    p.token.range.start.line = lineNumber ∧ p.token.range.stop.line = lineNumber
  wide : ∀ p ∈ pieces, p.token.range.start.column + 1 ≤ p.token.range.stop.column
  text : texts pieces ++ remaining = line
  columns : ∀ p ∈ pieces, line.takeRunes p.token.range.stop.column =
    line.takeRunes p.token.range.start.column ++ p.text
  total : (pieces.getLast?.map (·.token.range.stop.column)).getD 0 + remaining.runeCount =
    line.runeCount

namespace Reads

theorem apart {s s' : Scanner} {pieces : List Piece} (h : Reads s pieces s') :
    pieces.Pairwise fun p q => p.token.range.stop.column ≤ q.token.range.start.column := by
  induction h with
  | stop => exact .nil
  | step _ hrest ih =>
      refine .cons ?_ ih
      intro q hq
      obtain ⟨before, -, -, hstart, -⟩ := hrest.range_of_mem hq
      rw [hstart]
      exact Int.le_add_of_nonneg_right (Int.natCast_nonneg _)

variable {line : Bytes} {lineNumber : Int} {pieces : List Piece} {s : Scanner}

theorem onLine (h : Reads (start line lineNumber) pieces s) : ∀ p ∈ pieces,
    p.token.range.start.line = lineNumber ∧ p.token.range.stop.line = lineNumber := by
  intro p hp
  obtain ⟨before, after, -, hstart, hstop⟩ := h.range_of_mem hp
  rw [hstart, hstop]
  exact ⟨rfl, rfl⟩

/-- The columns of a token are the numbers of characters before its text and up to its end. -/
theorem columns_of_mem (h : Reads (start line lineNumber) pieces s) {p : Piece} (hp : p ∈ pieces) :
    ∃ before after, pieces = before ++ p :: after ∧
      p.token.range.start.column = (texts before).runeCount ∧
      p.token.range.stop.column = (texts before ++ p.text).runeCount := by
  obtain ⟨before, after, hsplit, hstart, hstop⟩ := h.range_of_mem hp
  refine ⟨before, after, hsplit, ?_, ?_⟩
  · rw [hstart]
    exact Int.zero_add _
  · rw [hstop]
    exact Int.zero_add _

theorem wide (h : Reads (start line lineNumber) pieces s) :
    ∀ p ∈ pieces, p.token.range.start.column + 1 ≤ p.token.range.stop.column := by
  intro p hp
  have hpos := Bytes.runeCount_pos (h.text_ne_nil p hp)
  obtain ⟨before, after, rfl, hstart, hstop⟩ := h.columns_of_mem hp
  have hbefore : Lexeme.Lexable (texts before) :=
    lexable_texts fun q hq => h.lexable_of_mem q (List.mem_append_left _ hq)
  rw [hstart, hstop, Bytes.runeCount_append (hbefore.splits _)]
  omega

/-- Where a token stands, the line holds the text that it was read from. -/
theorem place_of_mem (h : Reads (start line lineNumber) pieces s) {p : Piece} (hp : p ∈ pieces) :
    ∃ before after, line = before ++ p.text ++ after ∧
      before.runeCount = p.token.range.start.column ∧
      line.takeRunes p.token.range.start.column = before ∧
      line.takeRunes p.token.range.stop.column = before ++ p.text := by
  have hlex := h.lexable_of_mem
  have hline : line = texts pieces ++ s.rest := h.rest_eq
  obtain ⟨before, after, rfl, hstart, hstop⟩ := h.columns_of_mem hp
  have hbefore : Lexeme.Lexable (texts before) :=
    lexable_texts fun q hq => hlex q (List.mem_append_left _ hq)
  have hupto : Lexeme.Lexable (texts before ++ p.text) := hbefore.append (hlex p hp)
  have hsplit : line = texts before ++ p.text ++ (texts after ++ s.rest) := by
    rw [hline, texts_append, texts_cons]
    simp only [List.append_assoc]
  refine ⟨texts before, texts after ++ s.rest, hsplit, hstart.symm, ?_, ?_⟩
  · rw [hstart, hsplit, List.append_assoc]
    exact Bytes.takeRunes_runeCount (hbefore.splits _)
  · rw [hstop, hsplit]
    exact Bytes.takeRunes_runeCount (hupto.splits _)

theorem columns (h : Reads (start line lineNumber) pieces s) :
    ∀ p ∈ pieces, line.takeRunes p.token.range.stop.column =
      line.takeRunes p.token.range.start.column ++ p.text := by
  intro p hp
  obtain ⟨before, after, -, -, hstart, hstop⟩ := h.place_of_mem hp
  rw [hstart, hstop]

/-- The columns of a token single out the text that it was read from. -/
theorem slice_of_mem (h : Reads (start line lineNumber) pieces s) {p : Piece} (hp : p ∈ pieces) :
    p.token.range.slice line = p.text := by
  rw [Range.slice, h.columns p hp, List.drop_left]

theorem stop_column (h : Reads (start line lineNumber) pieces s) :
    (pieces.getLast?.map (·.token.range.stop.column)).getD 0 = (texts pieces).runeCount := by
  have hlast := congrArg Position.column (h.last_stop.trans h.position_eq)
  have hzero : ((start line lineNumber).position.moveRight (texts pieces).runeCount).column =
      (texts pieces).runeCount := Int.zero_add _
  rw [← hzero, ← hlast]
  cases pieces.getLast? <;> rfl

theorem total (h : Reads (start line lineNumber) pieces s) :
    (pieces.getLast?.map (·.token.range.stop.column)).getD 0 + s.rest.runeCount =
      line.runeCount := by
  have hline : line = texts pieces ++ s.rest := h.rest_eq
  rw [h.stop_column, hline, Bytes.runeCount_append (h.lexable.splits _), Int.natCast_add]

theorem covers (h : Reads (start line lineNumber) pieces s) :
    Covers line lineNumber pieces s.rest where
  first := h.head_start
  adjacent := h.chain
  onLine := h.onLine
  wide := h.wide
  text := h.rest_eq.symm
  columns := h.columns
  total := h.total

end Reads

theorem Ending.toOption {s : Scanner} {final : List Entry} (h : Ending s final) :
    final.filterMap Except.toOption = [] := by
  cases h <;> rfl

theorem drain_tokens (s : Scanner) :
    s.drain.1.filterMap Except.toOption = (pieces (s.rest.length + 1) s).map Piece.token := by
  obtain ⟨-, final, hend, hentries⟩ := drain_reads s
  have hok : Except.toOption ∘ (fun p : Piece => (.ok p.token : Entry)) = some ∘ Piece.token := rfl
  rw [hentries, List.filterMap_append, hend.toOption, List.append_nil, List.filterMap_map, hok,
    List.filterMap_eq_map]

/-- The tokens of a line are adjacent, and with the rest they make up the line, column by column. -/
theorem drain_covers (line : Bytes) (lineNumber : Int) :
    (start line lineNumber).drain.1.filterMap Except.toOption =
        (pieces (line.length + 1) (start line lineNumber)).map Piece.token ∧
      Covers line lineNumber (pieces (line.length + 1) (start line lineNumber))
        (start line lineNumber).drain.2.rest :=
  ⟨drain_tokens (start line lineNumber), (drain_reads (start line lineNumber)).1.covers⟩

end Scanner

end AsmAssist
