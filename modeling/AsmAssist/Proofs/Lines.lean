import AsmAssist.Text.Lines

/- Lines and the pieces between line feeds. A document is cut at every line feed, and a line is its
   piece without one carriage return at the end, unless it is the last. So two documents with a line
   feed between them are cut apart, and carriage returns put before all line feeds end the pieces. -/

namespace AsmAssist

namespace Sequence

variable {α : Type} [BEq α]

theorem splitOn_ne_nil (sep : α) (xs : List α) : splitOn sep xs ≠ [] := by
  fun_cases splitOn sep xs with
  | case1 => exact List.cons_ne_nil _ _
  | case2 => exact List.cons_ne_nil _ _
  | case3 => exact List.cons_ne_nil _ _
  | case4 => exact List.cons_ne_nil _ _

theorem splitOn_eq_cons (sep : α) (xs : List α) : ∃ piece pieces, splitOn sep xs = piece :: pieces :=
  List.exists_cons_of_ne_nil (splitOn_ne_nil sep xs)

theorem splitOn_sep [ReflBEq α] (sep : α) (xs : List α) :
    splitOn sep (sep :: xs) = [] :: splitOn sep xs := by
  obtain ⟨piece, pieces, hxs⟩ := splitOn_eq_cons sep xs
  simp only [splitOn, hxs, BEq.rfl, if_true]

theorem splitOn_of_ne {sep x : α} (hx : (x == sep) = false) {xs piece : List α}
    {pieces : List (List α)} (hxs : splitOn sep xs = piece :: pieces) :
    splitOn sep (x :: xs) = (x :: piece) :: pieces := by
  simp only [splitOn, hxs, hx, Bool.false_eq_true, if_false]

/-- A separator parts the cuts of what stands before it and after it. -/
theorem splitOn_append [ReflBEq α] (sep : α) (xs ys : List α) :
    splitOn sep (xs ++ sep :: ys) = splitOn sep xs ++ splitOn sep ys := by
  induction xs with
  | nil => exact splitOn_sep sep ys
  | cons x xs ih =>
      obtain ⟨piece, pieces, hxs⟩ := splitOn_eq_cons sep xs
      rw [hxs] at ih
      cases hx : x == sep with
      | true => simp only [List.cons_append, splitOn, ih, hxs, hx, if_true]
      | false =>
          rw [List.cons_append, splitOn_of_ne hx ih, splitOn_of_ne hx hxs]
          rfl

theorem splitOn_of_not_mem [LawfulBEq α] {sep : α} {xs : List α} (h : sep ∉ xs) :
    splitOn sep xs = [xs] := by
  induction xs with
  | nil => rfl
  | cons x xs ih =>
      obtain ⟨hx, hxs⟩ := not_or.mp (mt List.mem_cons.mpr h)
      exact splitOn_of_ne (beq_false_of_ne (Ne.symm hx)) (ih hxs)

end Sequence

namespace Lines

open Sequence (splitOn splitOn_sep splitOn_of_ne splitOn_eq_cons splitOn_ne_nil splitOn_append)

/-- The document with a carriage return before every line feed. -/
def withReturns (s : Bytes) : Bytes :=
  s.flatMap fun b => if b == lineFeed then [carriageReturn, lineFeed] else [b]

/-- Every piece but the last with a carriage return at its end. -/
def returned : List Bytes → List Bytes
  | [] => []
  | [last] => [last]
  | piece :: pieces => (piece ++ [carriageReturn]) :: returned pieces

theorem returned_cons (piece : Bytes) {pieces : List Bytes} (h : pieces ≠ []) :
    returned (piece :: pieces) = (piece ++ [carriageReturn]) :: returned pieces := by
  cases pieces with
  | nil => exact absurd rfl h
  | cons => rfl

theorem splitOn_withReturns (s : Bytes) :
    splitOn lineFeed (withReturns s) = returned (splitOn lineFeed s) := by
  induction s with
  | nil => rfl
  | cons b s ih =>
      obtain ⟨piece, pieces, hs⟩ := splitOn_eq_cons lineFeed s
      cases hb : b == lineFeed with
      | true =>
          have hreturn : withReturns (b :: s) = [carriageReturn] ++ lineFeed :: withReturns s := by
            simp only [withReturns, List.flatMap_cons, hb, if_true]
            rfl
          rw [hreturn, splitOn_append, eq_of_beq hb, splitOn_sep,
            returned_cons [] (splitOn_ne_nil lineFeed s), ih]
          rfl
      | false =>
          have hplain : withReturns (b :: s) = b :: withReturns s := by
            simp only [withReturns, List.flatMap_cons, hb]
            rfl
          rw [hs] at ih
          rw [hplain, splitOn_of_ne hb hs]
          cases pieces with
          | nil => exact splitOn_of_ne hb ih
          | cons => exact splitOn_of_ne hb ih

theorem length_ofPieces (pieces : List Bytes) : (ofPieces pieces).length = pieces.length := by
  fun_induction ofPieces pieces with
  | case1 => rfl
  | case2 => rfl
  | case3 piece pieces _ ih => rw [List.length_cons, List.length_cons, ih]

/-- The carriage return that a line loses is all that its piece has more. -/
theorem dropReturn_cases (piece : Bytes) :
    dropReturn piece = piece ∨ dropReturn piece ++ [carriageReturn] = piece := by
  cases hlast : piece.getLast? == some carriageReturn with
  | false =>
      left
      simp only [dropReturn, hlast, Bool.false_eq_true, if_false]
  | true =>
      right
      obtain ⟨line, rfl⟩ := List.getLast?_eq_some_iff.mp (eq_of_beq hlast)
      simp only [dropReturn, hlast, if_true, List.dropLast_concat]

section Blind

variable {β : Type} (read : Bytes → Nat → List β)
  (hblind : ∀ text n, read (text ++ [carriageReturn]) n = read text n)

include hblind

theorem read_dropReturn (piece : Bytes) (n : Nat) : read (dropReturn piece) n = read piece n := by
  rcases dropReturn_cases piece with hsame | hreturn
  · rw [hsame]
  · rw [← hblind, hreturn]

/-- A reading that a carriage return at the end does not change reads the same from the lines as from
    the pieces. -/
theorem flatMap_ofPieces (pieces : List Bytes) (first : Nat) :
    ((ofPieces pieces).zipIdx first).flatMap (fun x => read x.1 x.2) =
      (pieces.zipIdx first).flatMap fun x => read x.1 x.2 := by
  fun_induction ofPieces pieces generalizing first with
  | case1 => rfl
  | case2 => rfl
  | case3 piece pieces _ ih =>
      rw [List.zipIdx_cons, List.zipIdx_cons, List.flatMap_cons, List.flatMap_cons, ih,
        read_dropReturn read hblind]

theorem flatMap_returned (pieces : List Bytes) (first : Nat) :
    ((returned pieces).zipIdx first).flatMap (fun x => read x.1 x.2) =
      (pieces.zipIdx first).flatMap fun x => read x.1 x.2 := by
  fun_induction returned pieces generalizing first with
  | case1 => rfl
  | case2 => rfl
  | case3 piece pieces _ ih =>
      rw [List.zipIdx_cons, List.zipIdx_cons, List.flatMap_cons, List.flatMap_cons, ih, hblind]

end Blind

end Lines

end AsmAssist
