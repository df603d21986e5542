import AsmAssist.Token.Scanner
import AsmAssist.Proofs.Lexeme.Cut
import Mathlib.Data.List.Chain

/- Runs of the scanner. A step either takes a nonempty readable text off the rest or does not move;
   a run is a chain of such steps, and it fixes which text was read for which token and where each
   of them stands. -/

namespace AsmAssist

theorem Position.moveRight_zero (p : Position) : p.moveRight 0 = p := by
  simp only [Position.moveRight, Int.add_zero]

theorem Position.moveRight_moveRight (p : Position) (m n : Int) :
    (p.moveRight m).moveRight n = p.moveRight (m + n) := by
  simp only [Position.moveRight, Int.add_assoc]

namespace Scanner

open Lexeme (first? Cut Lexable Inert)

structure Piece where
  token : Token
  text : Bytes

def texts (pieces : List Piece) : Bytes := pieces.flatMap Piece.text

@[simp] theorem texts_nil : texts [] = [] := rfl

@[simp] theorem texts_cons (p : Piece) (pieces : List Piece) :
    texts (p :: pieces) = p.text ++ texts pieces := List.flatMap_cons

@[simp] theorem texts_append (before after : List Piece) :
    texts (before ++ after) = texts before ++ texts after := List.flatMap_append

/-- The tokens that `take` hands out, each beside the text that its step took off the rest. -/
def pieces : Nat → Scanner → List Piece
  | 0, _ => []
  | limit + 1, s =>
      match s.next with
      | (.token t, s') => ⟨t, s.rest.take (s.rest.length - s'.rest.length)⟩ :: pieces limit s'
      | _ => []

def tokenAt (position : Position) (kind : Kind) (cut : Cut) (text : Bytes) : Token :=
  ⟨kind, .raw cut.value, ⟨position, position.moveRight text.runeCount⟩⟩

/-- The lexeme at the start of `text ++ rest` is the one that takes `text` off it. -/
structure Takes (kind : Kind) (cut : Cut) (text rest : Bytes) : Prop where
  found : first? (text ++ rest) = some (kind, cut)
  length_eq : text.length = cut.length
  ne_nil : text ≠ []
  lexable : Lexable text

/-- Everything one step can do. -/
inductive Stepped (s : Scanner) : Step × Scanner → Prop
  | finished : s.rest = [] → Stepped s (.finished, s)
  | failure {b : UInt8} {more : Bytes} : s.rest = b :: more → first? (b :: more) = none →
      Stepped s (.failure ⟨s.position, (Rune.lead b more).1⟩, s)
  | token {kind : Kind} {cut : Cut} {text rest : Bytes} : s.rest = text ++ rest →
      Takes kind cut text rest →
      Stepped s (.token (tokenAt s.position kind cut text),
        ⟨rest, s.position.moveRight text.runeCount⟩)

theorem next_stepped (s : Scanner) : Stepped s s.next := by
  obtain ⟨rest, position⟩ := s
  cases rest with
  | nil => exact .finished rfl
  | cons b more =>
      cases hfirst : first? (b :: more) with
      | none =>
          simp only [next, hfirst]
          exact .failure rfl hfirst
      | some found =>
          obtain ⟨kind, cut⟩ := found
          obtain ⟨text, after, hsplit, hlen, hne, hlex⟩ := Lexeme.first?_readable hfirst
          have htake : (b :: more).take cut.length = text := by rw [hsplit, ← hlen, List.take_left]
          have hdrop : (b :: more).drop cut.length = after := by rw [hsplit, ← hlen, List.drop_left]
          simp only [next, hfirst, htake, hdrop]
          exact .token hsplit ⟨hsplit ▸ hfirst, hlen, hne, hlex⟩

/-- A run: the pieces that were read on the way from one place to another. -/
inductive Reads : Scanner → List Piece → Scanner → Prop
  | stop (s : Scanner) : Reads s [] s
  | step {kind : Kind} {cut : Cut} {text rest : Bytes} {position : Position} {pieces : List Piece}
      {s : Scanner} : Takes kind cut text rest →
      Reads ⟨rest, position.moveRight text.runeCount⟩ pieces s →
      Reads ⟨text ++ rest, position⟩ (⟨tokenAt position kind cut text, text⟩ :: pieces) s

theorem lexable_texts {pieces : List Piece} (h : ∀ p ∈ pieces, Lexable p.text) :
    Lexable (texts pieces) := by
  induction pieces with
  | nil => exact .nil
  | cons p pieces ih =>
      simp only [List.forall_mem_cons] at h
      exact h.1.append (ih h.2)

namespace Reads

variable {s s' : Scanner} {pieces : List Piece}

theorem rest_eq (h : Reads s pieces s') : s.rest = texts pieces ++ s'.rest := by
  induction h with
  | stop => rfl
  | step _ _ ih => rw [texts_cons, List.append_assoc, ← ih]

/-- Every piece is a lexeme and its token, whose value is a raw text. -/
theorem taken (h : Reads s pieces s') : ∀ p ∈ pieces, ∃ kind cut position rest,
    p.token = tokenAt position kind cut p.text ∧ Takes kind cut p.text rest := by
  induction h with
  | stop => simp
  | @step kind cut text rest position pieces s' htakes _ ih =>
      simp only [List.forall_mem_cons]
      exact ⟨⟨kind, cut, position, rest, rfl, htakes⟩, ih⟩

theorem lexable_of_mem (h : Reads s pieces s') : ∀ p ∈ pieces, Lexable p.text := by
  intro p hp
  obtain ⟨_, _, _, _, -, htakes⟩ := h.taken p hp
  exact htakes.lexable

theorem text_ne_nil (h : Reads s pieces s') : ∀ p ∈ pieces, p.text ≠ [] := by
  intro p hp
  obtain ⟨_, _, _, _, -, htakes⟩ := h.taken p hp
  exact htakes.ne_nil

theorem raw_of_mem (h : Reads s pieces s') : ∀ p ∈ pieces, ∃ text, p.token.payload = .raw text := by
  intro p hp
  obtain ⟨_, cut, _, _, htoken, -⟩ := h.taken p hp
  rw [htoken]
  exact ⟨cut.value, rfl⟩

theorem kind_of_mem (h : Reads s pieces s') :
    ∀ p ∈ pieces, p.token.kind ∈ Lexeme.rules.map Lexeme.Rule.kind := by
  intro p hp
  obtain ⟨kind, _, _, _, htoken, htakes⟩ := h.taken p hp
  obtain ⟨rule, hr, hkind, -⟩ := Lexeme.first?_rule htakes.found
  have hsame : p.token.kind = kind := by rw [htoken]; rfl
  rw [hsame, ← hkind]
  exact List.mem_map_of_mem hr

theorem text_of_word (h : Reads s pieces s') :
    ∀ p ∈ pieces, p.token.kind = .word → p.token.text = p.text := by
  intro p hp hword
  obtain ⟨kind, cut, position, rest, htoken, htakes⟩ := h.taken p hp
  rw [htoken] at hword ⊢
  cases (show kind = .word from hword)
  have hvalue := Lexeme.first?_word htakes.found
  rw [← htakes.length_eq, List.take_left] at hvalue
  exact hvalue

theorem word_bytes (h : Reads s pieces s') :
    ∀ p ∈ pieces, p.token.kind = .word → ∀ b ∈ p.token.text, Ascii.isWord b = true := by
  intro p hp hword
  obtain ⟨kind, cut, position, rest, htoken, htakes⟩ := h.taken p hp
  rw [htoken] at hword ⊢
  cases (show kind = .word from hword)
  exact Lexeme.first?_word_bytes htakes.found

theorem text_of_colon (h : Reads s pieces s') :
    ∀ p ∈ pieces, p.token.kind = .colon → p.token.text = [':'.toUInt8] := by
  intro p hp hcolon
  obtain ⟨kind, cut, position, rest, htoken, htakes⟩ := h.taken p hp
  rw [htoken] at hcolon ⊢
  cases (show kind = .colon from hcolon)
  exact Lexeme.first?_colon htakes.found

/-- A token is as wide as the text it was read from. -/
theorem width_of_mem (h : Reads s pieces s') :
    ∀ p ∈ pieces, p.token.range.stop.column = p.token.range.start.column + p.text.runeCount := by
  intro p hp
  obtain ⟨kind, cut, position, rest, htoken, -⟩ := h.taken p hp
  rw [htoken]
  rfl

theorem lexable (h : Reads s pieces s') : Lexable (texts pieces) := lexable_texts h.lexable_of_mem

theorem position_eq (h : Reads s pieces s') :
    s'.position = s.position.moveRight (texts pieces).runeCount := by
  induction h with
  | stop s => exact (Position.moveRight_zero s.position).symm
  | @step kind cut text rest position pieces s' htakes _ ih =>
      rw [ih, texts_cons, Bytes.runeCount_append (htakes.lexable.splits _), Position.moveRight_moveRight,
        Int.natCast_add]

theorem head_start (h : Reads s pieces s') :
    ∀ p ∈ pieces.head?, p.token.range.start = s.position := by
  cases h with
  | stop => simp
  | step =>
      rintro p hp
      cases hp
      rfl

theorem chain (h : Reads s pieces s') :
    pieces.IsChain fun p q => q.token.range.start = p.token.range.stop := by
  induction h with
  | stop => exact .nil
  | step _ hrest ih => exact List.isChain_cons.mpr ⟨hrest.head_start, ih⟩

theorem last_stop (h : Reads s pieces s') :
    (pieces.getLast?.map (·.token.range.stop)).getD s.position = s'.position := by
  induction h with
  | stop => rfl
  | @step kind cut text rest position pieces s' _ hrest ih =>
      cases pieces with
      | nil => exact ih
      | cons p pieces =>
          rw [List.getLast?_cons_cons, ← ih, List.getLast?_cons]
          rfl

/-- A token stands where the text before it ends, and it is as wide as its own text. -/
theorem range_of_mem (h : Reads s pieces s') {p : Piece} (hp : p ∈ pieces) :
    ∃ before after, pieces = before ++ p :: after ∧
      p.token.range.start = s.position.moveRight (texts before).runeCount ∧
      p.token.range.stop = s.position.moveRight (texts before ++ p.text).runeCount := by
  induction h with
  | stop => cases hp
  | @step kind cut text rest position pieces s' htakes hrest ih =>
      rcases List.mem_cons.mp hp with rfl | hp
      · exact ⟨[], pieces, rfl, (Position.moveRight_zero position).symm, rfl⟩
      · obtain ⟨before, after, rfl, hstart, hstop⟩ := ih hp
        refine ⟨_ :: before, after, rfl, ?_, ?_⟩
        · rw [hstart, texts_cons, Bytes.runeCount_append (htakes.lexable.splits _),
            Position.moveRight_moveRight, Int.natCast_add]
        · rw [hstop, texts_cons, List.append_assoc,
            Bytes.runeCount_append (htakes.lexable.splits _), Position.moveRight_moveRight, Int.natCast_add]

/-- Without the text after it, a run reads the same pieces if that text is inert. -/
theorem truncate (h : Reads s pieces s') (hinert : Inert s'.rest) :
    Reads ⟨texts pieces, s.position⟩ pieces ⟨[], s'.position⟩ := by
  induction h with
  | stop => exact .stop _
  | @step kind cut text rest position pieces s' htakes hrest ih =>
      -- The cut must not change for want of the rest: all that is read from here on is readable.
      have hsame : first? (text ++ texts pieces) = some (kind, cut) := by
        have hrest_eq : rest = texts pieces ++ s'.rest := hrest.rest_eq
        rw [← htakes.found, hrest_eq, ← List.append_assoc]
        refine (Lexeme.first?_append (htakes.lexable.append hrest.lexable) ?_
          (hinert.parted _)).symm
        simp [htakes.ne_nil]
      exact .step ⟨hsame, htakes.length_eq, htakes.ne_nil, htakes.lexable⟩ (ih hinert)

/-- Runs from one place that cannot go on are the same run. -/
theorem unique (h : Reads s pieces s') {others : List Piece} {t : Scanner}
    (hother : Reads s others t) (hs : first? s'.rest = none) (ht : first? t.rest = none) :
    pieces = others ∧ s' = t := by
  induction h generalizing others with
  | stop s =>
      cases hother with
      | stop => exact ⟨rfl, rfl⟩
      | step htakes _ =>
          rw [htakes.found] at hs
          cases hs
  | @step kind cut text rest position pieces s' htakes hrest ih =>
      generalize hwhole : text ++ rest = whole at hother
      cases hother with
      | stop =>
          rw [← hwhole, htakes.found] at ht
          cases ht
      | @step kind₂ cut₂ text₂ rest₂ _ others _ htakes₂ hrest₂ =>
          have hfound := htakes.found
          rw [hwhole, htakes₂.found] at hfound
          cases hfound
          -- One cut, so one length: the two runs take the same text.
          have hlen : text.length = text₂.length := htakes.length_eq.trans htakes₂.length_eq.symm
          obtain ⟨rfl, rfl⟩ := List.append_inj hwhole hlen
          obtain ⟨rfl, rfl⟩ := ih hrest₂ hs
          exact ⟨rfl, rfl⟩

end Reads

/-- How a run that was not cut short ends: with nothing left, or before a text that has no cut. -/
inductive Ending (s : Scanner) : List Entry → Prop
  | finished : s.rest = [] → Ending s []
  | failure {b : UInt8} {more : Bytes} : s.rest = b :: more → first? (b :: more) = none →
      Ending s [.error ⟨s.position, (Rune.lead b more).1⟩]

theorem take_succ (limit : Nat) (s : Scanner) : take (limit + 1) s =
    match s.next with
    | (.finished, s') => ([], s')
    | (.failure e, s') => ([.error e], s')
    | (.token t, s') => (.ok t :: (take limit s').1, (take limit s').2) := rfl

theorem pieces_succ (limit : Nat) (s : Scanner) : pieces (limit + 1) s =
    match s.next with
    | (.token t, s') => ⟨t, s.rest.take (s.rest.length - s'.rest.length)⟩ :: pieces limit s'
    | _ => [] := rfl

/-- Enough steps read a line to its end, or to the character that stops the scanner. -/
theorem take_reads {limit : Nat} {s : Scanner} (hlimit : s.rest.length < limit) :
    Reads s (pieces limit s) (s.take limit).2 ∧
      ∃ final, Ending (s.take limit).2 final ∧
        (s.take limit).1 = (pieces limit s).map (fun p => .ok p.token) ++ final := by
  induction limit generalizing s with
  | zero => cases hlimit
  | succ limit ih =>
      rw [take_succ, pieces_succ]
      -- Both recursions branch on the same step, so one case split serves them.
      have hstep := next_stepped s
      generalize s.next = out at hstep
      cases hstep with
      | finished hrest => exact ⟨.stop s, [], .finished hrest, rfl⟩
      | failure hrest hfirst => exact ⟨.stop s, _, .failure hrest hfirst, rfl⟩
      | @token kind cut text rest hrest htakes =>
          obtain ⟨whole, position⟩ := s
          change whole = text ++ rest at hrest
          subst hrest
          have hpos := List.length_pos_iff.mpr htakes.ne_nil
          have hshort : rest.length < limit := by
            simp only [List.length_append] at hlimit
            omega
          obtain ⟨hreads, final, hend, hentries⟩ :=
            @ih ⟨rest, position.moveRight text.runeCount⟩ hshort
          have htext : (text ++ rest).take ((text ++ rest).length - rest.length) = text := by
            rw [List.length_append, Nat.add_sub_cancel, List.take_left]
          simp only [htext]
          refine ⟨.step htakes hreads, final, hend, ?_⟩
          rw [hentries]
          rfl

theorem drain_reads (s : Scanner) :
    Reads s (pieces (s.rest.length + 1) s) s.drain.2 ∧
      ∃ final, Ending s.drain.2 final ∧
        s.drain.1 = (pieces (s.rest.length + 1) s).map (fun p => .ok p.token) ++ final :=
  take_reads (Nat.lt_succ_self _)

end Scanner

end AsmAssist
