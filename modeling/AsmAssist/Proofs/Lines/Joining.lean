import AsmAssist.Proofs.Lines

/- Lines put together and cut apart again. A text made of lines is cut into the same lines, whether a line
   feed stands behind each of them or a carriage return and a line feed, for at most one carriage return
   is taken along. Whatever the text, it has one line more than line feeds. -/

namespace AsmAssist

namespace Sequence

variable {α : Type} [BEq α] [LawfulBEq α]

theorem length_splitOn (sep : α) (xs : List α) : (splitOn sep xs).length = xs.count sep + 1 := by
  induction xs with
  | nil => rfl
  | cons x xs ih =>
      cases hx : x == sep with
      | true =>
          obtain rfl := eq_of_beq hx
          rw [splitOn_sep, List.length_cons, ih, List.count_cons_self]
      | false =>
          obtain ⟨piece, pieces, hxs⟩ := splitOn_eq_cons sep xs
          rw [hxs] at ih
          rw [splitOn_of_ne hx hxs, List.count_cons_of_ne (ne_of_beq_false hx), ← ih]
          rfl

theorem not_mem_of_mem_splitOn {sep : α} {xs : List α} :
    ∀ piece ∈ splitOn sep xs, sep ∉ piece := by
  induction xs with
  | nil => simp [splitOn]
  | cons x xs ih =>
      cases hx : x == sep with
      | true =>
          obtain rfl := eq_of_beq hx
          rw [splitOn_sep]
          exact List.forall_mem_cons.mpr ⟨List.not_mem_nil, ih⟩
      | false =>
          obtain ⟨piece, pieces, hxs⟩ := splitOn_eq_cons sep xs
          rw [hxs] at ih
          rw [splitOn_of_ne hx hxs]
          obtain ⟨hpiece, hpieces⟩ := List.forall_mem_cons.mp ih
          have hne : sep ≠ x := (ne_of_beq_false hx).symm
          exact List.forall_mem_cons.mpr ⟨List.not_mem_cons_of_ne_of_not_mem hne hpiece, hpieces⟩

end Sequence

namespace Lines

open Sequence (splitOn splitOn_ne_nil splitOn_append splitOn_of_not_mem length_splitOn
  not_mem_of_mem_splitOn)

/-- What may stand behind a line. -/
inductive Terminator where
  | feed
  | returnAndFeed

def Terminator.bytes : Terminator → Bytes
  | feed => [lineFeed]
  | returnAndFeed => [carriageReturn, lineFeed]

/-- A line with its terminator. A carriage return at the end of the line itself could not be told from
    one of the terminator. -/
structure Row where
  line : Bytes
  terminator : Terminator
  unbroken : lineFeed ∉ line
  unreturned : line.getLast? ≠ some carriageReturn

def Row.text (row : Row) : Bytes := row.line ++ row.terminator.bytes

/-- Terminated lines, and a last one that is not. -/
def joined (rows : List Row) (last : Bytes) : Bytes := rows.flatMap Row.text ++ last

/-! ### One line -/

theorem ofPieces_cons (piece : Bytes) {pieces : List Bytes} (h : pieces ≠ []) :
    ofPieces (piece :: pieces) = dropReturn piece :: ofPieces pieces := by
  cases pieces with
  | nil => exact absurd rfl h
  | cons => rfl

theorem dropReturn_of_ne {line : Bytes} (h : line.getLast? ≠ some carriageReturn) :
    dropReturn line = line := by
  rw [dropReturn, if_neg (by simpa using h)]

theorem dropReturn_return (line : Bytes) : dropReturn (line ++ [carriageReturn]) = line := by
  simp [dropReturn]

/-- What stands before a line feed is a line, the carriage return at its end left out. -/
theorem of_append {piece : Bytes} (h : lineFeed ∉ piece) (s : Bytes) :
    of (piece ++ lineFeed :: s) = dropReturn piece :: of s := by
  rw [of, splitOn_append, splitOn_of_not_mem h, List.singleton_append,
    ofPieces_cons piece (splitOn_ne_nil lineFeed s), of]

theorem of_row (row : Row) (s : Bytes) : of (row.text ++ s) = row.line :: of s := by
  obtain ⟨line, terminator, hunbroken, hunreturned⟩ := row
  cases terminator with
  | feed =>
      have htext : Row.text ⟨line, .feed, hunbroken, hunreturned⟩ ++ s = line ++ lineFeed :: s := by
        simp [Row.text, Terminator.bytes]
      rw [htext, of_append hunbroken, dropReturn_of_ne hunreturned]
  | returnAndFeed =>
      have htext : Row.text ⟨line, .returnAndFeed, hunbroken, hunreturned⟩ ++ s =
          (line ++ [carriageReturn]) ++ lineFeed :: s := by
        simp [Row.text, Terminator.bytes]
      have hreturned : lineFeed ∉ line ++ [carriageReturn] := by
        rw [List.mem_append, List.mem_singleton, not_or]
        exact ⟨hunbroken, by decide⟩
      rw [htext, of_append hreturned, dropReturn_return]

/-! ### Whole texts -/

theorem of_joined (rows : List Row) {last : Bytes} (h : lineFeed ∉ last) :
    of (joined rows last) = rows.map Row.line ++ [last] := by
  induction rows with
  | nil =>
      rw [joined, List.flatMap_nil, List.nil_append, of, splitOn_of_not_mem h]
      rfl
  | cons row rows ih =>
      have hjoined : joined (row :: rows) last = row.text ++ joined rows last := by
        rw [joined, List.flatMap_cons, List.append_assoc, joined]
      rw [hjoined, of_row, ih, List.map_cons, List.cons_append]

theorem length_of (s : Bytes) : (of s).length = s.count lineFeed + 1 := by
  rw [of, length_ofPieces, length_splitOn]

theorem unbroken_of_dropReturn {piece : Bytes} (h : lineFeed ∉ piece) : lineFeed ∉ dropReturn piece := by
  rcases dropReturn_cases piece with hsame | hreturn
  · rwa [hsame]
  · rw [← hreturn] at h
    exact fun hmem => h (List.mem_append_left _ hmem)

theorem unbroken_of_ofPieces {pieces : List Bytes} (h : ∀ piece ∈ pieces, lineFeed ∉ piece) :
    ∀ line ∈ ofPieces pieces, lineFeed ∉ line := by
  fun_induction ofPieces pieces with
  | case1 => exact h
  | case2 => exact h
  | case3 piece pieces _ ih =>
      obtain ⟨hpiece, hpieces⟩ := List.forall_mem_cons.mp h
      exact List.forall_mem_cons.mpr ⟨unbroken_of_dropReturn hpiece, ih hpieces⟩

theorem numbered_lines (s : Bytes) : (numbered s).map Prod.snd = of s := by
  simp only [numbered, List.map_map, Function.comp_def, List.zipIdx_map_fst]

theorem numbered_numbers (s : Bytes) : (numbered s).map Prod.fst = List.range (of s).length := by
  simp only [numbered, List.map_map, Function.comp_def, List.zipIdx_map_snd, List.range_eq_range']

theorem numbered_eq_zip (s : Bytes) : numbered s = (List.range (of s).length).zip (of s) := by
  exact List.zip_of_prod (numbered_numbers s) (numbered_lines s)

/-- Lines that were put together, each with a terminator of its own, are the lines of the text, numbered
    from 0 on. Any text has one line more than line feeds, and no line feed in a line. -/
theorem cutting_inverts_joining :
    (∀ (rows : List Row) (last : Bytes), lineFeed ∉ last →
      numbered (joined rows last) =
        (List.range (rows.length + 1)).zip (rows.map Row.line ++ [last])) ∧
    ∀ s : Bytes, (numbered s).map Prod.fst = List.range (s.count lineFeed + 1) ∧
      ∀ entry ∈ numbered s, lineFeed ∉ entry.2 := by
  constructor
  · intro rows last hlast
    rw [numbered_eq_zip, of_joined rows hlast, List.length_append, List.length_map,
      List.length_singleton]
  · intro s
    rw [numbered_numbers, length_of]
    refine ⟨rfl, ?_⟩
    intro entry hentry
    have hline : entry.2 ∈ of s := numbered_lines s ▸ List.mem_map_of_mem hentry
    exact unbroken_of_ofPieces not_mem_of_mem_splitOn _ hline

/-- An empty line, a line with a carriage return in it, and a last line that ends in one. -/
theorem joined_with_returns :
    lineFeed ∉ Bytes.ofString "b\r" ∧
      numbered (joined [⟨[], .returnAndFeed, by decide, by decide⟩,
        ⟨Bytes.ofString "\ra", .feed, by decide, by decide⟩] (.ofString "b\r")) =
          [(0, []), (1, Bytes.ofString "\ra"), (2, Bytes.ofString "b\r")] := by
  have hlast : lineFeed ∉ Bytes.ofString "b\r" := by decide
  exact ⟨hlast, cutting_inverts_joining.1 _ _ hlast⟩

end Lines

end AsmAssist
