import AsmAssist.Proofs.Catalog
import AsmAssist.Proofs.Line.LastOperand
import AsmAssist.Proofs.Session.Completion

/- Registers that are offered and registers that are read. Completion takes its registers from the
   configuration, the rule of registers has its own: `r` with at most two digits, `pc` and `lr`. The
   shipped names fit that rule but for `sp`, and general registers fit it below 100. -/

namespace AsmAssist

namespace Register

/-- The name is one register to a line: alone it is a single token, and as the last operand it is what
    a register form asks for. -/
structure ReadAsRegister (name : Bytes) : Prop where
  alone : ∀ lineNumber, ∃ t, Scan.line name lineNumber = ⟨[t], none⟩ ∧ t.content = (.register, name)
  last : ∀ lineNumber text, Line.EndsIn name lineNumber text → ∀ arity registerArity,
    Operand.isRegisterLike
      (Operand.analyze (Line.operands text lineNumber) arity registerArity).last = true

/-- The name is cut behind its second digit: the rest is a number, and that is what a line ends in. -/
structure ReadAsTwo (name : Bytes) : Prop where
  alone : ∀ lineNumber, (Scan.line name lineNumber).error = none ∧
    (Scan.line name lineNumber).tokens.map Token.content =
      [(.register, name.take 3), (.decimalDigits, name.drop 3)]
  last : ∀ lineNumber text, Line.EndsIn name lineNumber text → ∀ arity registerArity,
    Operand.isRegisterLike
      (Operand.analyze (Line.operands text lineNumber) arity registerArity).last = false

theorem ReadAsTwo.not_register {name : Bytes} (h : ReadAsTwo name) : ¬ ReadAsRegister name := by
  intro hregister
  obtain ⟨t, hline, -⟩ := hregister.alone 0
  have htwo := (h.alone 0).2
  rw [hline] at htwo
  exact absurd (congrArg List.length htwo) (by simp)

theorem readAsRegister_of_names {name : Bytes} (h : Lexeme.NamesRegister name) :
    ReadAsRegister name where
  alone := Scan.line_of_register h
  last := by
    intro lineNumber text hends arity registerArity
    obtain ⟨t, hline, hcontent⟩ := Scan.line_of_register h lineNumber
    have hkind : t.kind = .register := congrArg Prod.fst hcontent
    have hlast := hends.lastKind_register (by rw [hline]) (by simp [hline, hkind])
    exact Operand.isRegisterLike_iff.mpr (.inl hlast)

theorem readAsTwo_of_long {r : UInt8} {digits : Bytes} (hr : Ascii.isLetterOf 'r' r = true)
    (hlen : 2 < digits.length) (hdigits : ∀ b ∈ digits, Ascii.isDigit b = true) :
    ReadAsTwo (r :: digits) where
  alone := Scan.line_of_long hr hlen hdigits
  last := by
    intro lineNumber text hends arity registerArity
    obtain ⟨hcomplete, hcontents⟩ := Scan.line_of_long hr hlen hdigits lineNumber
    have hkinds := congrArg (List.map Prod.fst) hcontents
    rw [List.map_map] at hkinds
    have hlast := hends.lastKind_digits hcomplete hkinds
    have hnumbers : ∀ kind ∈ [Kind.number, .decimalDigits], Operand.isRegisterLike kind = false := by
      decide
    exact hnumbers _ hlast

/-- A general register is read as one if its number has at most two digits, and only then. -/
theorem general_read (i : Nat) : (i < 100 → ReadAsRegister (general i).name) ∧
    (100 ≤ i → ReadAsTwo (general i).name) := by
  have hname : (general i).name = 'r'.toUInt8 :: Decimal.ofNat i := rfl
  have hletter : Ascii.isLetterOf 'r' 'r'.toUInt8 = true := by decide
  obtain ⟨hne, hdigits⟩ := Decimal.ofNat_digits i
  have hlen : (Decimal.ofNat i).length ≤ 2 ↔ i < 100 := Decimal.length_ofNat_le i (by decide)
  rw [hname]
  constructor
  · intro hi
    exact readAsRegister_of_names (.general hletter hne (hlen.mpr hi) hdigits)
  · intro hi
    exact readAsTwo_of_long hletter (Nat.lt_of_not_le (mt hlen.mp (Nat.not_lt.mpr hi))) hdigits

end Register

namespace Catalog

/-- The configuration has the registers that are shipped by name, and so many general ones. -/
structure KeepsRegisters (l : Config.Loader) (count : Int64) : Prop where
  named : l.first (.list Register.ofValue) [] (.ofString "registers") = .ok Defaults.registers
  general : l.first .int 0 (.ofString "generalRegisters") = .ok count

theorem mem_withGeneral {named : List Register} {count : Int64} {r : Register} :
    r ∈ withGeneral named count ↔ r ∈ named ∨ ∃ i < count.toInt.toNat, Register.general i = r := by
  simp [withGeneral]

end Catalog

namespace Session

open Register (ReadAsRegister ReadAsTwo)
open Catalog (KeepsRegisters)

/-- Completion offers the registers of the catalog and no others. -/
theorem register_of_complete {s : Session} {c : Catalog} (hcatalog : s.askCatalog.answer = .ok c)
    {document : Bytes} {line column : Int} {items : List Completion}
    (hanswer : (s.complete document line column).answer = .ok items) {item : Completion}
    (hitem : item ∈ items) (hkind : item.kind = .register) :
    ∃ r ∈ c.registers, r.name = item.label := by
  simp only [complete, hcatalog] at hanswer
  split at hanswer
  · cases hanswer
    obtain ⟨i, -, rfl⟩ := List.mem_map.mp hitem
    cases hkind
  · cases hanswer
    rcases List.mem_append.mp hitem with hitem | hitem
    · obtain ⟨r, hr, rfl⟩ := List.mem_map.mp hitem
      exact ⟨r, hr, rfl⟩
    · obtain ⟨symbol, -, rfl⟩ := List.mem_map.mp hitem
      cases hkind

/-- What is offered of the shipped and the general registers. -/
theorem offered_cases {s : Session} {l : Config.Loader} {count : Int64}
    (hcatalog : s.askCatalog.answer = Catalog.build l) (hkeeps : KeepsRegisters l count)
    {document : Bytes} {line column : Int} {items : List Completion}
    (hanswer : (s.complete document line column).answer = .ok items) {item : Completion}
    (hitem : item ∈ items) (hkind : item.kind = .register) :
    item.label ∈ Defaults.registers.map Register.name ∨
      ∃ i < count.toInt.toNat, item.label = (Register.general i).name := by
  cases hbuild : Catalog.build l with
  | error e =>
      rw [hbuild] at hcatalog
      simp only [complete, hcatalog] at hanswer
      cases hanswer
  | ok c =>
      rw [hbuild] at hcatalog
      obtain ⟨r, hr, hname⟩ := register_of_complete hcatalog hanswer hitem hkind
      rw [Catalog.registers_of_build hbuild hkeeps.named hkeeps.general,
        Catalog.mem_withGeneral] at hr
      rw [← hname]
      rcases hr with hr | ⟨i, hi, rfl⟩
      · exact .inl (List.mem_map_of_mem hr)
      · exact .inr ⟨i, hi, rfl⟩

/-- With the shipped names and any number of general registers, every register that completion offers,
    `sp` apart, is read as a register, unless its number has more than two digits: then it is read as a
    register and a number. -/
theorem offered_registers_are_read {s : Session} {l : Config.Loader} {count : Int64}
    (hcatalog : s.askCatalog.answer = Catalog.build l) (hkeeps : KeepsRegisters l count)
    {document : Bytes} {line column : Int} {items : List Completion}
    (hanswer : (s.complete document line column).answer = .ok items) {item : Completion}
    (hitem : item ∈ items) (hkind : item.kind = .register) (hsp : item.label ≠ .ofString "sp") :
    (ReadAsRegister item.label ↔ ∀ i, 100 ≤ i → item.label ≠ (Register.general i).name) ∧
      (¬ ReadAsRegister item.label → ReadAsTwo item.label) := by
  have hlong : ∀ i, 100 ≤ i → item.label = (Register.general i).name → ReadAsTwo item.label := by
    intro i hi hname
    rw [hname]
    exact (Register.general_read i).2 hi
  have hcases : ReadAsRegister item.label ∨ ∃ i, 100 ≤ i ∧ item.label = (Register.general i).name := by
    rcases offered_cases hcatalog hkeeps hanswer hitem hkind with hnamed | ⟨i, -, hname⟩
    · have hothers : item.label = .ofString "lr" ∨ item.label = .ofString "pc" := by
        simpa [Defaults.registers, Defaults.register, hsp] using hnamed
      refine .inl (Register.readAsRegister_of_names ?_)
      rcases hothers with hname | hname
      · rw [hname]
        exact .link (by decide) (by decide)
      · rw [hname]
        exact .counter (by decide) (by decide)
    · rw [hname]
      rcases Nat.lt_or_ge i 100 with hi | hi
      · exact .inl ((Register.general_read i).1 hi)
      · exact .inr ⟨i, hi, rfl⟩
  constructor
  · constructor
    · intro hread i hi hname
      exact (hlong i hi hname).not_register hread
    · intro hshort
      rcases hcases with hread | ⟨i, hi, hname⟩
      · exact hread
      · exact absurd hname (hshort i hi)
  · intro hnot
    rcases hcases with hread | ⟨i, hi, hname⟩
    · exact absurd hread hnot
    · exact hlong i hi hname

/-- The shipped names and more general registers than have two digits. -/
def manyRegisters : Config.Loader :=
  .load ⟨[], [], []⟩ [] [] [⟨[], Config.Writer.document
    [("registers", Config.Writer.list (Defaults.registers.map Defaults.writeRegister)),
      ("generalRegisters", Decimal.ofNat 102)]⟩]

def manyCatalog : Catalog := ⟨[], [], [], Catalog.withGeneral Defaults.registers 102⟩

theorem build_manyRegisters : Catalog.build manyRegisters = .ok manyCatalog := by
  decide +kernel

theorem keeps_manyRegisters : KeepsRegisters manyRegisters 102 :=
  ⟨by decide +kernel, by decide +kernel⟩

/-- What is offered behind a mnemonic. -/
def manyOffered : List Completion :=
  manyCatalog.registers.map .ofRegister ++ (Symbol.index (.ofString "ADD ")).map .ofSymbol

theorem complete_many :
    ((ofCatalog manyCatalog).complete (.ofString "ADD ") 0 4).answer = .ok manyOffered := by
  have hfirst : ¬ Completion.isFirstWord (Completion.typed (.ofString "ADD ") 0 4) 0 = true := by
    decide
  have hcache : (ofCatalog manyCatalog).cache.Holds none := rfl
  rw [complete_answer rfl hcache, if_neg hfirst]
  rfl

theorem mem_manyOffered {r : Register}
    (h : r ∈ Defaults.registers ∨ ∃ i < 102, Register.general i = r) : .ofRegister r ∈ manyOffered :=
  List.mem_append_left _ (List.mem_map_of_mem (Catalog.mem_withGeneral.mpr h))

/-- The last register of two digits and the last of all. -/
theorem many_registers_are_read :
    (ofCatalog manyCatalog).askCatalog.answer = Catalog.build manyRegisters ∧
      KeepsRegisters manyRegisters 102 ∧
      ((ofCatalog manyCatalog).complete (.ofString "ADD ") 0 4).answer = .ok manyOffered ∧
      .ofRegister (Register.general 99) ∈ manyOffered ∧
      .ofRegister (Register.general 101) ∈ manyOffered ∧
      ReadAsRegister (.ofString "r99") ∧ ReadAsTwo (.ofString "r101") := by
  have hcatalog : (ofCatalog manyCatalog).askCatalog.answer = Catalog.build manyRegisters :=
    build_manyRegisters.symm
  have hshort := mem_manyOffered (.inr ⟨99, by decide, rfl⟩)
  have hlong := mem_manyOffered (.inr ⟨101, by decide, rfl⟩)
  obtain ⟨hread, -⟩ := offered_registers_are_read hcatalog keeps_manyRegisters complete_many hshort
    rfl (by decide)
  obtain ⟨hsplit, htwo⟩ := offered_registers_are_read hcatalog keeps_manyRegisters complete_many hlong
    rfl (by decide)
  refine ⟨hcatalog, keeps_manyRegisters, complete_many, hshort, hlong, hread.mpr ?_, htwo ?_⟩
  · rintro i hi hname
    have hdigits : (Decimal.ofNat i).length = 2 := (congrArg List.length (List.cons.inj hname).2).symm
    have hsmall := (Decimal.length_ofNat_le i (by decide)).mp hdigits.le
    omega
  · exact fun hregister => hsplit.mp hregister 101 (by decide) rfl

/-- `sp` is offered and read as a word, and a register of three digits is offered and cut. -/
theorem offered_but_not_read :
    (ofCatalog manyCatalog).askCatalog.answer = Catalog.build manyRegisters ∧
      KeepsRegisters manyRegisters 102 ∧
      ((ofCatalog manyCatalog).complete (.ofString "ADD ") 0 4).answer = .ok manyOffered ∧
      (∃ item ∈ manyOffered, item.kind = .register ∧ item.label = .ofString "sp" ∧
        ¬ ReadAsRegister item.label) ∧
      ∃ item ∈ manyOffered, item.kind = .register ∧ item.label = .ofString "r100" ∧
        ¬ ReadAsRegister item.label := by
  have hkinds : ∀ {name : Bytes}, ReadAsRegister name →
      (Scan.line name 0).tokens.map Token.kind = [.register] := by
    intro name hname
    obtain ⟨t, hline, hcontent⟩ := hname.alone 0
    rw [hline]
    exact congrArg ([·.1]) hcontent
  have hstack : Completion.ofRegister (Defaults.register "sp" "Stack pointer") ∈ manyOffered :=
    mem_manyOffered (.inl List.mem_cons_self)
  have hlong := mem_manyOffered (.inr ⟨100, by decide, rfl⟩)
  refine ⟨build_manyRegisters.symm, keeps_manyRegisters, complete_many,
    ⟨_, hstack, rfl, rfl, ?_⟩, _, hlong, rfl, rfl, ?_⟩
  · exact fun h => absurd (hkinds h) (by decide)
  · exact fun h => absurd (hkinds h) (by decide)

end Session

end AsmAssist
