import AsmAssist.Journal.Logger
import AsmAssist.Text.Lines
import AsmAssist.Proofs.Decimal
import AsmAssist.Proofs.Rune

/- What is logged stays on one line. A text with a line feed is written in quotes, and quoting escapes it;
   the other parts of a line are names, digits and marks. -/

namespace AsmAssist

open Lines (lineFeed)

/-! ### Line feeds among characters -/

namespace Rune

/-- An ASCII byte among the bytes of a character is the character. -/
theorem rune_of_ascii {b : UInt8} (hb : b.toNat < 128) (skip : Nat) (s : Bytes) :
    ∀ g ∈ glyphsAfter skip s, b ∈ g.bytes → g.rune = Char.ofNat b.toNat := by
  fun_induction glyphsAfter skip s with
  | case1 => simp
  | case2 skip first rest ih => exact ih
  | case3 first rest c more hlead ih =>
      refine List.forall_mem_cons.mpr ⟨?_, ih⟩
      intro hmem
      rcases List.mem_cons.mp hmem with rfl | htail
      · rw [lead_one hb] at hlead
        exact (congrArg Prod.fst hlead).symm
      · obtain ⟨tail, after, rfl, hlength, hall⟩ := lead_tail first rest
        rw [hlead] at hlength
        rw [show more = tail.length from hlength, List.take_left] at htail
        have := isTail_iff.mp (hall b htail)
        omega

theorem unbroken_encode {c : Char} (h : c ≠ '\n') : lineFeed ∉ encode c := by
  obtain ⟨b, tail, hencode, hlead⟩ := lead_encode c
  rw [hencode]
  intro hmem
  rcases List.mem_cons.mp hmem with rfl | htail
  · have hread := hlead []
    rw [lead_one (by decide)] at hread
    exact h (congrArg Prod.fst hread).symm
  · have := isTail_iff.mp (isTail_of_encode hencode _ htail)
    exact absurd this (by decide)

end Rune

theorem Bytes.unbroken_ofRunes {cs : List Char} (h : '\n' ∉ cs) : lineFeed ∉ ofRunes cs := by
  intro hmem
  obtain ⟨c, hc, hbyte⟩ := List.mem_flatMap.mp hmem
  exact Rune.unbroken_encode (fun heq => h (heq ▸ hc)) hbyte

/-! ### Quoted texts -/

namespace Quoted

theorem unbroken_hexDigit (n : Nat) : hexDigit (n % 16) ≠ '\n' := by
  have hall : ∀ d < 16, hexDigit d ≠ '\n' := by decide
  exact hall _ (Nat.mod_lt n (by decide))

theorem unbroken_hex (width n : Nat) : '\n' ∉ hex width n := by
  simp only [hex, List.mem_reverse, List.mem_map, not_exists, not_and]
  exact fun i _ => unbroken_hexDigit _

theorem unbroken_shortEscape? {c e : Char} (h : shortEscape? c = some e) : e ≠ '\n' := by
  unfold shortEscape? at h
  split at h <;> cases h <;> decide

theorem unbroken_escape {quote : Char} (hquote : quote ≠ '\n') (c : Char) : '\n' ∉ escape quote c := by
  unfold escape
  split
  · rename_i hmarked
    have hc : '\n' ≠ c := by
      rintro rfl
      simp [hquote.symm] at hmarked
    simp [hc]
  split
  · rename_i hprintable
    have hc : '\n' ≠ c := by
      rintro rfl
      exact absurd hprintable (by decide)
    simp [hc]
  split
  · rename_i e hshort
    simp [(unbroken_shortEscape? hshort).symm]
  split
  · simp [unbroken_hex]
  split <;> simp [unbroken_hex]

theorem unbroken_escapeGlyph (g : Glyph) : '\n' ∉ escapeGlyph g := by
  unfold escapeGlyph
  split
  · simp [unbroken_hex]
  · exact unbroken_escape (by decide) g.rune

theorem unbroken_text (s : Bytes) : lineFeed ∉ text s := by
  apply Bytes.unbroken_ofRunes
  simp [unbroken_escapeGlyph]

end Quoted

/-! ### Numbers -/

namespace Decimal

theorem unbroken_ofNat (n : Nat) : lineFeed ∉ ofNat n := by
  intro hmem
  exact absurd ((ofNat_digits n).2 _ hmem) (by decide)

theorem unbroken_ofInt (n : Int) : lineFeed ∉ ofInt n := by
  have hminus : lineFeed ≠ '-'.toUInt8 := by decide
  unfold ofInt
  split <;> simp [unbroken_ofNat, hminus]

theorem unbroken_signed (n : Int) : lineFeed ∉ signed n := by
  have hplus : lineFeed ≠ '+'.toUInt8 := by decide
  unfold signed
  split <;> simp [unbroken_ofInt, hplus]

end Decimal

/-! ### Lines -/

namespace Journal

/-- A text that is written without quotes has no line feed. -/
theorem unbroken_of_plain {s : Bytes} (h : needsQuotes s = false) : lineFeed ∉ s := by
  intro hmem
  rw [← Bytes.glyphs_bytes s] at hmem
  obtain ⟨g, hg, hbyte⟩ := List.mem_flatMap.mp hmem
  have hrune := Rune.rune_of_ascii (by decide) 0 s g hg hbyte
  have hquoted : glyphNeedsQuotes g = true := by
    rw [glyphNeedsQuotes, hrune]
    decide
  simp only [needsQuotes, Bool.or_eq_false_iff, List.any_eq_false] at h
  exact h.2 g hg hquoted

theorem unbroken_word (s : Bytes) : lineFeed ∉ word s := by
  unfold word
  split
  · exact Quoted.unbroken_text s
  · rename_i hplain
    exact unbroken_of_plain (Bool.eq_false_iff.mpr hplain)

theorem unbroken_qualifiedKey (groups : List Bytes) (key : Bytes) :
    lineFeed ∉ qualifiedKey groups key := by
  unfold qualifiedKey
  dsimp only
  split
  · exact unbroken_word key
  split
  · exact Quoted.unbroken_text _
  · rename_i hplain
    obtain ⟨hlead, hkey⟩ := Bool.or_eq_false_iff.mp (Bool.eq_false_iff.mpr hplain)
    exact fun hmem => (List.mem_append.mp hmem).elim (unbroken_of_plain hlead) (unbroken_of_plain hkey)

theorem Value.unbroken_render (value : Value) : lineFeed ∉ value.render := by
  cases value with
  | text s => exact unbroken_word s
  | integer n => exact Decimal.unbroken_ofInt n
  | boolean b => cases b <;> decide
  | nothing => exact unbroken_word _
  | texts items => exact unbroken_word _

theorem unbroken_renderAttributes (groups : List Bytes) (attributes : List Attribute) :
    lineFeed ∉ renderAttributes groups attributes := by
  have hblank : lineFeed ∉ Bytes.ofString " " := by decide
  have hequals : lineFeed ∉ Bytes.ofString "=" := by decide
  intro hmem
  obtain ⟨a, -, hbyte⟩ := List.mem_flatMap.mp hmem
  simp [hblank, hequals, unbroken_qualifiedKey, Value.unbroken_render] at hbyte

theorem Level.unbroken_name (level : Level) : lineFeed ∉ level.name := by
  have hmark : ∀ mark ∈ ["DEBUG", "INFO", "WARN", "ERROR"], lineFeed ∉ Bytes.ofString mark := by decide
  have hwritten : ∀ mark ∈ ["DEBUG", "INFO", "WARN", "ERROR"], ∀ distance : Int,
      lineFeed ∉ Bytes.ofString mark ++ (if distance = 0 then [] else Decimal.signed distance) := by
    intro mark hmem distance
    split <;> simp [hmark mark hmem, Decimal.unbroken_signed]
  unfold name
  dsimp only
  split
  · exact hwritten "DEBUG" (by decide) _
  split
  · exact hwritten "INFO" (by decide) _
  split
  · exact hwritten "WARN" (by decide) _
  · exact hwritten "ERROR" (by decide) _

theorem unbroken_renderHead (level : Level) (message : Bytes) :
    lineFeed ∉ renderHead level message := by
  have hlevel : lineFeed ∉ Bytes.ofString "level=" := by decide
  have hmessage : lineFeed ∉ Bytes.ofString " msg=" := by decide
  simp [renderHead, hlevel, hmessage, level.unbroken_name, unbroken_word]

theorem Sink.unbroken_render {s : Sink} (h : lineFeed ∉ s.written) (r : Record) :
    lineFeed ∉ s.render r := by
  simp [Sink.render, h, unbroken_renderHead, unbroken_renderAttributes]

end Journal

end AsmAssist
