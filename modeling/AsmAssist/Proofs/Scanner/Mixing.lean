import AsmAssist.Proofs.Scanner.Coverage
import AsmAssist.Proofs.Scanner.Language

/- Requests to one scanner, in any order. A scanner keeps nothing but its place, so a consumer that stops
   and goes on is handed the tokens of the line one after the other, whichever way it asks for them. At
   the end of the tokens the scanner no longer moves, and every later reply is the same. -/

namespace AsmAssist.Scanner

/-- The tokens that a reply hands out. -/
def Reply.tokens : Reply → List Token
  | .step (.token t) => [t]
  | .step _ => []
  | .entries found => found.filterMap Except.toOption
  | .remaining _ => []

def handedOut (s : Scanner) (requests : List Request) : List Token :=
  (s.serveAll requests).flatMap Reply.tokens

/-- The tokens that are handed out without a stop. -/
def uninterrupted (s : Scanner) : List Token := s.drain.1.filterMap Except.toOption

/-- The scanner when requests have been served. -/
def after (s : Scanner) : List Request → Scanner
  | [] => s
  | request :: requests => (s.serve request).2.after requests

/-- The reply when there are no tokens left, only an error or the end of the line. -/
def Reply.atEnd (error : Option ScanError) (rest : Bytes) : Request → Reply
  | .next => .step (error.elim .finished .failure)
  | .tokens _ => .entries (error.toList.map .error)
  | .remaining => .remaining rest

/-! ### What requests read -/

theorem Reads.trans {s t u : Scanner} {pieces more : List Piece} (h : Reads s pieces t)
    (hmore : Reads t more u) : Reads s (pieces ++ more) u := by
  induction h with
  | stop => exact hmore
  | step htakes _ ih => exact .step htakes (ih hmore)

theorem Reads.eq_of_nil {s t : Scanner} (h : Reads s [] t) : t = s := by
  cases h
  rfl

theorem next_reads (s : Scanner) :
    ∃ pieces, Reads s pieces s.next.2 ∧ (Reply.step s.next.1).tokens = pieces.map Piece.token := by
  have hstep := next_stepped s
  generalize s.next = out at hstep
  cases hstep with
  | finished => exact ⟨[], .stop s, rfl⟩
  | failure => exact ⟨[], .stop s, rfl⟩
  | @token kind cut text rest hrest htakes =>
      obtain ⟨whole, position⟩ := s
      change whole = text ++ rest at hrest
      subst hrest
      exact ⟨_, .step htakes (.stop _), rfl⟩

/-- However early a sequence is stopped, the tokens handed out were read one after the other. -/
theorem take_run (limit : Nat) (s : Scanner) :
    ∃ pieces, Reads s pieces (s.take limit).2 ∧
      (s.take limit).1.filterMap Except.toOption = pieces.map Piece.token := by
  induction limit generalizing s with
  | zero => exact ⟨[], .stop s, rfl⟩
  | succ limit ih =>
      obtain ⟨first, hfirst, htokens⟩ := next_reads s
      rw [take_succ]
      generalize s.next = out at hfirst htokens
      obtain ⟨step, t⟩ := out
      cases step with
      | finished => exact ⟨first, hfirst, htokens⟩
      | failure e => exact ⟨first, hfirst, htokens⟩
      | token token =>
          obtain ⟨more, hmore, hrest⟩ := ih t
          refine ⟨first ++ more, hfirst.trans hmore, ?_⟩
          rw [List.map_append, ← htokens, ← hrest]
          rfl

theorem serve_reads (s : Scanner) (request : Request) :
    ∃ pieces, Reads s pieces (s.serve request).2 ∧
      (s.serve request).1.tokens = pieces.map Piece.token := by
  cases request with
  | next => exact next_reads s
  | tokens limit =>
      cases limit with
      | zero => exact take_run (s.rest.length + 1) s
      | succ limit => exact take_run (limit + 1) s
  | remaining => exact ⟨[], .stop s, rfl⟩

theorem after_reads (s : Scanner) (requests : List Request) :
    ∃ pieces, Reads s pieces (s.after requests) ∧
      s.handedOut requests = pieces.map Piece.token := by
  induction requests generalizing s with
  | nil => exact ⟨[], .stop s, rfl⟩
  | cons request requests ih =>
      obtain ⟨first, hfirst, htokens⟩ := serve_reads s request
      obtain ⟨more, hmore, hrest⟩ := ih (s.serve request).2
      refine ⟨first ++ more, hfirst.trans hmore, ?_⟩
      rw [List.map_append, ← htokens, ← hrest]
      rfl

theorem serveAll_append (s : Scanner) (requests later : List Request) :
    s.serveAll (requests ++ later) = s.serveAll requests ++ (s.after requests).serveAll later := by
  induction requests generalizing s with
  | nil => rfl
  | cons request requests ih =>
      simp only [List.cons_append, serveAll, after, ih]

/-! ### The end of the tokens -/

namespace Ending

variable {s : Scanner} {final : List Entry} (h : Ending s final)

include h

theorem next_eq : s.next = ((Scan.ofEntries final).error.elim .finished .failure, s) := by
  obtain ⟨rest, position⟩ := s
  cases h with
  | finished hrest =>
      cases (show rest = [] from hrest)
      rfl
  | @failure b more hrest hfirst =>
      cases (show rest = b :: more from hrest)
      simp only [next, hfirst]
      rfl

theorem take_eq (limit : Nat) :
    s.take (limit + 1) = ((Scan.ofEntries final).error.toList.map .error, s) := by
  rw [take_succ, h.next_eq]
  cases (Scan.ofEntries final).error <;> rfl

/-- At the end no request moves the scanner. -/
theorem serve_eq (request : Request) :
    s.serve request = (Reply.atEnd (Scan.ofEntries final).error s.rest request, s) := by
  cases request with
  | next => simp only [serve, h.next_eq, Reply.atEnd]
  | tokens limit =>
      cases limit with
      | zero => simp only [serve, drain, h.take_eq, Reply.atEnd]
      | succ limit => simp only [serve, h.take_eq, Reply.atEnd]
  | remaining => rfl

theorem serveAll_eq (requests : List Request) :
    s.serveAll requests = requests.map (Reply.atEnd (Scan.ofEntries final).error s.rest) := by
  induction requests with
  | nil => rfl
  | cons request requests ih =>
      simp only [serveAll, h.serve_eq, List.map_cons, ih]

end Ending

/-! ### A whole line -/

/-- What is handed out and what is left to hand out are all tokens, and both end at one place. -/
theorem handedOut_split (s : Scanner) (requests : List Request) :
    ∃ pieces more final, Reads s pieces (s.after requests) ∧ Reads (s.after requests) more s.drain.2 ∧
      Ending s.drain.2 final ∧ s.handedOut requests = pieces.map Piece.token ∧
      s.uninterrupted = (pieces ++ more).map Piece.token ∧
      (Scan.ofEntries s.drain.1).error = (Scan.ofEntries final).error := by
  obtain ⟨pieces, hreads, hhanded⟩ := after_reads s requests
  obtain ⟨hmore, final, hend, -⟩ := drain_reads (s.after requests)
  generalize Scanner.pieces _ _ = more at hmore
  have hwhole := drain_of_run (hreads.trans hmore) hend
  have hplace : s.drain.2 = (s.after requests).drain.2 := by rw [hwhole]
  rw [← hplace] at hmore hend
  refine ⟨pieces, more, final, hreads, hmore, hend, hhanded, ?_, ?_⟩
  · have hok : Except.toOption ∘ (fun p : Piece => (.ok p.token : Entry)) = some ∘ Piece.token := rfl
    rw [uninterrupted, hwhole, List.filterMap_append, hend.toOption, List.append_nil,
      List.filterMap_map, hok, List.filterMap_eq_map]
  · rw [Scan.view_of_run (hreads.trans hmore) hend]

theorem slices_of_reads {line : Bytes} {lineNumber : Int} {pieces : List Piece} {s : Scanner}
    (h : Reads (start line lineNumber) pieces s) :
    (pieces.map Piece.token).flatMap (·.range.slice line) = texts pieces := by
  rw [List.flatMap_map]
  exact List.flatMap_congr fun p hp => h.slice_of_mem hp

/-- Requests in any order hand out the tokens of a line from the first on, none left out and none twice;
    a request for the rest is answered with the line without the texts of the tokens handed out so far.
    Once all tokens are handed out, every later request is answered with the error of the line, if it
    has one, or with its end, and the rest stays as it is. -/
theorem requests_mix_freely (line : Bytes) (lineNumber : Int) (requests : List Request) :
    (start line lineNumber).handedOut requests <+: (start line lineNumber).uninterrupted ∧
    (∀ later, ∃ rest replies,
      (start line lineNumber).serveAll (requests ++ .remaining :: later) =
        (start line lineNumber).serveAll requests ++ .remaining rest :: replies ∧
      ((start line lineNumber).handedOut requests).flatMap (·.range.slice line) ++ rest = line) ∧
    ((start line lineNumber).handedOut requests = (start line lineNumber).uninterrupted →
      ∀ later, (start line lineNumber).serveAll (requests ++ later) =
        (start line lineNumber).serveAll requests ++
          later.map (Reply.atEnd (Scan.line line lineNumber).error
            (start line lineNumber).drain.2.rest)) := by
  obtain ⟨pieces, more, final, hreads, hmore, hend, hhanded, hall, herror⟩ :=
    handedOut_split (start line lineNumber) requests
  refine ⟨?_, ?_, ?_⟩
  · rw [hhanded, hall, List.map_append]
    exact List.prefix_append _ _
  · intro later
    refine ⟨_, _, serveAll_append _ _ _, ?_⟩
    rw [hhanded, slices_of_reads hreads]
    exact hreads.rest_eq.symm
  · intro hexhausted later
    -- Nothing is left to read, so the place that was reached is the place of the end.
    have hnone : more = [] := by
      rw [hhanded, hall, List.map_append, List.self_eq_append_right, List.map_eq_nil_iff] at hexhausted
      exact hexhausted
    rw [hnone] at hmore
    rw [serveAll_append, ← hmore.eq_of_nil, hend.serveAll_eq, ← herror]
    rfl

/-- Four tokens and a character that starts none. -/
def unreadable : Scanner := start (.ofString "ld r1 @") 4

/-- A token, the rest, another token, and a sequence that is stopped behind the last. -/
def stops : List Request := [.next, .remaining, .tokens 1, .tokens 2]

theorem requests_mix_before_unreadable :
    unreadable.handedOut stops = unreadable.uninterrupted ∧
      unreadable.serveAll (stops ++ [.next, .tokens 3, .remaining, .tokens 0]) =
        unreadable.serveAll stops ++
          [.step (.failure ⟨⟨4, 6⟩, '@'⟩), .entries [.error ⟨⟨4, 6⟩, '@'⟩],
            .remaining (.ofString "@"), .entries [.error ⟨⟨4, 6⟩, '@'⟩]] := by
  have hexhausted : unreadable.handedOut stops = unreadable.uninterrupted := rfl
  obtain ⟨-, -, hend⟩ := requests_mix_freely (.ofString "ld r1 @") 4 stops
  exact ⟨hexhausted, hend hexhausted _⟩

end AsmAssist.Scanner
