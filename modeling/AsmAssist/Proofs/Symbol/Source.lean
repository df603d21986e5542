import AsmAssist.Proofs.Lexeme.Numeral
import AsmAssist.Proofs.Symbol.Resolution

/- What stands in the source under a cursor that found a symbol. The name of the symbol is the value
   of a token, and most tokens are written as their values; but quotes are no part of the value of a
   quotation, nor is the notation of a base part of its digits. So a number may lead to a label. -/

namespace AsmAssist

namespace Lexeme

/-- The kinds of lexemes that are written with more than their values. -/
def dressedKinds : List Kind := [.quoted, .hexDigits, .binaryDigits]

/-- How a lexeme of a kind and a value stands in the source. -/
inductive Source : Kind → Bytes → Bytes → Prop
  | plain {kind : Kind} {value : Bytes} : kind ∉ dressedKinds → Source kind value value
  | quoted {quote : UInt8} {value : Bytes} : quote ∈ quotes → Body quote value →
      Source .quoted value (quote :: (value ++ [quote]))
  | hexadecimal {value source : Bytes} : Written 16 value source → Source .hexDigits value source
  | binary {value source : Bytes} : Written 2 value source → Source .binaryDigits value source

/-- The digits of a base other than ten are written with a mark or a closing letter. -/
theorem Written.length_lt {base : Nat} {digits text : Bytes} (h : Written base digits text)
    (hbase : base ≠ 10) : digits.length < text.length := by
  cases h with
  | hexMarked | binaryMarked => exact Nat.lt_succ_of_lt (Nat.lt_succ_self _)
  | hexClosed | binaryClosed =>
      rw [List.length_append]
      exact Nat.lt_succ_self _
  | decimal => exact absurd rfl hbase

/-- Only the kinds that are written with more than their values are written otherwise. -/
theorem Source.eq_value_iff {kind : Kind} {value source : Bytes} (h : Source kind value source) :
    source = value ↔ kind ∉ dressedKinds := by
  have hlonger : ∀ {other : Kind}, value.length < source.length → other ∈ dressedKinds →
      (source = value ↔ other ∉ dressedKinds) := by
    intro other hlt hdressed
    exact ⟨fun heq => absurd (congrArg List.length heq) hlt.ne', fun hplain => absurd hdressed hplain⟩
  cases h with
  | plain hplain => exact ⟨fun _ => hplain, fun _ => rfl⟩
  | quoted _ _ =>
      refine hlonger ?_ (by decide)
      simp only [List.length_cons, List.length_append, List.length_nil]
      omega
  | hexadecimal hwritten => exact hlonger (hwritten.length_lt (by decide)) (by decide)
  | binary hwritten => exact hlonger (hwritten.length_lt (by decide)) (by decide)

theorem value_of_spellings {texts : List String} {s : Bytes} {cut : Cut}
    (h : spellings texts s = some cut) : cut.value = s.take cut.length := by
  obtain ⟨t, hfind, -, rfl⟩ := spelling_eq_some.mp h
  exact List.prefix_iff_eq_take.mp (leads_of_find? hfind)

theorem value_of_whole {s : Bytes} {n : Nat} {cut : Cut} (h : whole s n = some cut) :
    cut.value = s.take cut.length := by
  obtain ⟨-, rfl⟩ := whole_eq_some.mp h
  rfl

theorem value_of_register {s : Bytes} {cut : Cut} (h : registerName s = some cut) :
    cut.value = s.take cut.length := by
  obtain ⟨first, second, rest, rfl, -⟩ := registerName_eq_some h
  rw [registerName_cons] at h
  exact value_of_whole h

/-- All other rules take the lexeme itself for its value. -/
theorem value_of_plain : ∀ rule ∈ rules, rule.kind ∉ dressedKinds → ∀ s cut,
    rule.cut? s = some cut → cut.value = s.take cut.length := by
  have hdressed : ∀ {kind : Kind} {P : Prop}, kind ∈ dressedKinds → kind ∉ dressedKinds → P :=
    fun h h' => absurd h h'
  simp only [rules, List.forall_mem_cons]
  refine ⟨fun _ _ _ => value_of_whole, ?_, ?_, ?_, ?_, ?_, ?_, ?_, ?_, ?_, hdressed (by decide),
    hdressed (by decide), hdressed (by decide), hdressed (by decide), hdressed (by decide),
    fun _ _ _ => value_of_whole, fun _ _ _ => value_of_register, fun _ _ _ => value_of_whole, by simp⟩
  all_goals exact fun _ _ _ => value_of_spellings

/-- Every lexeme stands in its text as its kind and its value are written. -/
theorem source_of_first? {kind : Kind} {cut : Cut} {text rest : Bytes}
    (h : first? (text ++ rest) = some (kind, cut)) (hlen : text.length = cut.length) :
    Source kind cut.value text := by
  by_cases hplain : kind ∉ dressedKinds
  · obtain ⟨rule, hr, rfl, hcut⟩ := first?_rule h
    have hvalue := value_of_plain rule hr hplain _ _ hcut
    rw [← hlen, List.take_left] at hvalue
    rw [hvalue]
    exact .plain hplain
  · have hkind : kind ∈ dressedKinds := not_not.mp hplain
    simp only [dressedKinds, List.mem_cons, List.not_mem_nil, or_false] at hkind
    rcases hkind with rfl | rfl | rfl
    · have hcut : quotation (text ++ rest) = some cut := first?_of_kind (by simp [rules]) h
      obtain ⟨quote, body, after, hq, hbody, hsplit, rfl⟩ := quotation_eq_some hcut
      have hpiece : text ++ rest = (quote :: (body ++ [quote])) ++ after := by simp [hsplit]
      obtain ⟨rfl, -⟩ := List.append_inj hpiece (by simpa using hlen)
      exact .quoted hq hbody
    · exact .hexadecimal (written_of_first? (by simp [literals]) h hlen)
    · exact .binary (written_of_first? (by simp [literals]) h hlen)

end Lexeme

namespace Symbol

open Lexeme (Source dressedKinds)

/-- Where a token stands, its line holds its value as its kind is written. -/
theorem scanned_source {text : Bytes} {lineNumber : Int} {t : Token}
    (ht : t ∈ (Scan.line text lineNumber).tokens) :
    Source t.kind t.text (t.range.slice text) := by
  obtain ⟨pieces, s, hreads, p, hp, rfl⟩ := Scan.piece_of_mem ht
  obtain ⟨kind, cut, position, rest, htoken, htakes⟩ := hreads.taken p hp
  rw [hreads.slice_of_mem hp, htoken]
  exact Lexeme.source_of_first? htakes.found htakes.length_eq

/-- A cursor finds a symbol through a token that it touches and whose value is the name of the symbol.
    The source of that token is the name itself, unless the token is a quotation or a number in a
    notation of base sixteen or two, where the source has the name between quotes or beside the
    notation. -/
theorem resolved_by_value {text : Bytes} {lineNumber column : Int} {table : List Symbol} {s : Symbol}
    (h : resolve? text lineNumber column table = some s) :
    ∃ t ∈ (Scan.line text lineNumber).tokens, t.range.covers column = true ∧ t.text = s.name ∧
      Source t.kind s.name (t.range.slice text) ∧
      (t.range.slice text = s.name ↔ t.kind ∉ dressedKinds) := by
  obtain ⟨t, ht, hfound⟩ := List.exists_of_findSome?_eq_some h
  obtain ⟨hmem, hcovers⟩ := List.mem_filter.mp ht
  have hname : t.text = s.name := by
    have hsame := List.find?_some hfound
    exact (eq_of_beq hsame).symm
  have hsource := scanned_source hmem
  rw [hname] at hsource
  exact ⟨t, hmem, hcovers, hname, hsource, hsource.eq_value_iff⟩

/-- A document whose only label is called like the digits of a number in it. -/
def misleading : Bytes := .ofString "add: ld r1, 0xadd"

theorem misleading_resolved : resolve? misleading 0 14 (index misleading) =
    some ⟨.ofString "add", ⟨⟨0, 0⟩, ⟨0, 4⟩⟩⟩ := by
  decide +kernel

theorem number_resolved_by_value :
    resolve? misleading 0 14 (index misleading) = some ⟨.ofString "add", ⟨⟨0, 0⟩, ⟨0, 4⟩⟩⟩ ∧
      ∃ t ∈ (Scan.line misleading 0).tokens, t.range.covers 14 = true ∧ t.text = .ofString "add" ∧
        Source t.kind (.ofString "add") (t.range.slice misleading) := by
  obtain ⟨t, ht, hcovers, hname, hsource, -⟩ := resolved_by_value misleading_resolved
  exact ⟨misleading_resolved, t, ht, hcovers, hname, hsource⟩

/-- The name of the symbol need not stand in the source under the cursor. -/
theorem resolved_not_by_source :
    ¬ ∀ (text : Bytes) (lineNumber column : Int) (table : List Symbol) (s : Symbol),
      resolve? text lineNumber column table = some s →
      ∃ t ∈ (Scan.line text lineNumber).tokens, t.range.covers column = true ∧
        t.range.slice text = s.name := by
  intro h
  have hnone : ¬ ∃ t ∈ (Scan.line misleading 0).tokens, t.range.covers 14 = true ∧
      t.range.slice misleading = .ofString "add" := by
    decide +kernel
  exact hnone (h _ _ _ _ _ misleading_resolved)

end Symbol

end AsmAssist
