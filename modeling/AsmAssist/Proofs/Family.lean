import AsmAssist.Catalog
import AsmAssist.Proofs.Pattern.Spans

/- What help depends on. A catalog sees three things of an instruction: its mnemonic, the number of its
   separators and whether it ends in a register. No catalog sees more, and one family whose pattern
   every mnemonic matches sees all three, the mnemonic up to its case. -/

namespace AsmAssist

namespace Pattern

/-- The whole of a text, whatever it is. -/
def anyText : Pattern := .seq (.assertion .textStart) (.seq (.star .anyChar) (.assertion .textEnd))

/-- Any character of a text is spanned. -/
theorem spans_anyChar {input : Input} (hinput : ∀ n ∈ input, n ≤ 0x10FFFF) {i : Nat}
    (hlt : i < input.size) : Spans input anyChar i (i + 1) := by
  have haccepts : ∀ n, n ≤ 0x10FFFF → (CharClass.accepts ⟨[.single 0 0x10FFFF], false, false⟩ n) := by
    intro n hn
    simp [CharClass.accepts, ClassItem.accepts, ClassItem.single, Run.holds, hn, Nat.mod_one]
  exact ⟨input[i], Array.getElem?_eq_getElem hlt, haccepts _ (hinput _ (Array.getElem_mem hlt)), rfl⟩

theorem spans_star_anyChar {input : Input} (hinput : ∀ n ∈ input, n ≤ 0x10FFFF) {i : Nat}
    (hle : i ≤ input.size) : Spans input (.star anyChar) 0 i := by
  induction i with
  | zero => exact .refl
  | succ i ih => exact .tail (ih (Nat.le_of_succ_le hle)) (spans_anyChar hinput hle)

theorem isIn_anyText (text : Bytes) : anyText.isIn text = true := by
  have hinput : ∀ n ∈ characters text, n ≤ 0x10FFFF := by
    intro n hn
    obtain ⟨c, -, rfl⟩ := List.mem_map.mp (List.mem_toArray.mp hn)
    have hvalid : c.toNat < 0xD800 ∨ 0xDFFF < c.toNat ∧ c.toNat < 0x110000 := c.valid
    omega
  have hall := spans_star_anyChar hinput (Nat.le_refl _)
  rw [isIn_iff]
  exact ⟨0, Nat.zero_le _, _, 0, ⟨rfl, rfl⟩, _, hall, rfl, beq_self_eq_true _⟩

end Pattern

/-- The mnemonic of an instruction, the number of its separators and whether it ends in a register. -/
structure Profile where
  mnemonic : Bytes
  separators : Nat
  endsInRegister : Bool
deriving DecidableEq

namespace Profile

def of? : List Token → Option Profile
  | [] => none
  | first :: operands =>
      some ⟨first.text, Operand.separators operands,
        Operand.isRegisterLike (Operand.lastKind operands)⟩

def toUpper (p : Profile) : Profile := { p with mnemonic := p.mnemonic.toUpper }

/-- A number below the largest arity. -/
def FitsWord (n : Nat) : Prop := (n : Int) < Int64.maxValue.toInt

theorem FitsWord.mono {m n : Nat} (h : FitsWord n) (hle : m ≤ n) : FitsWord m :=
  Int.lt_of_le_of_lt (Int.ofNat_le.mpr hle) h

theorem FitsWord.toInt_ofNat {n : Nat} (h : FitsWord n) : (Int64.ofNat n).toInt = n := by
  have hlargest : Int64.maxValue.toInt = 0x7FFFFFFFFFFFFFFF := by decide
  rw [FitsWord, hlargest] at h
  exact Int64.toInt_ofNat_of_lt (by omega)

theorem separators_le {p : Profile} {tokens : List Token} (h : p ∈ of? tokens) :
    p.separators ≤ Operand.separators tokens := by
  cases tokens with
  | nil => cases h
  | cons first operands =>
      cases h
      exact ((List.sublist_cons_self first operands).filter _).length_le

end Profile

/-- What an editor is told: the forms, which of them is meant and which parameter is written. -/
def Help.shown (h : Help) : List Signature × Nat × Nat :=
  (h.signatures, h.activeSignature, h.activeParameter)

namespace Family

/-- What a family shows for an instruction, by its profile. -/
def shows (f : Family) (p : Profile) : List Signature × Nat × Nat :=
  ([f.register.render (f.slots p.mnemonic), f.immediate.render (f.slots p.mnemonic)],
    (if (p.separators : Int) = f.registerArity.toInt && p.endsInRegister then Form.register
      else .immediate).index,
    (min (p.separators : Int) (f.arity - 1).toInt).toNat)

/-- A family for every mnemonic. The label of its register form is the mnemonic. -/
def catchAll (arity registerArity : Int64) : Family :=
  ⟨[], .ofString "(?s).*", arity, registerArity, [], ⟨.ofString "{mnemonic}", [], []⟩, .blank⟩

theorem accepts_catchAll (arity registerArity : Int64) (mnemonic : Bytes) :
    (catchAll arity registerArity).acceptsIn .standard mnemonic = true := by
  have hpattern : (catchAll arity registerArity).patternIn .standard = .ok .anyText := rfl
  simp only [acceptsIn, hpattern, Pattern.isIn_anyText]

theorem label_catchAll (arity registerArity : Int64) (mnemonic : Bytes) :
    ((catchAll arity registerArity).register.render
      ((catchAll arity registerArity).slots mnemonic)).label = mnemonic.toUpper :=
  List.append_nil mnemonic.toUpper

/-- The largest arity shows all separators, and their number as the register arity shows the ending. -/
theorem profile_of_shows {p q : Profile} (hp : Profile.FitsWord p.separators)
    (hq : Profile.FitsWord q.separators)
    (h : (catchAll .maxValue (.ofNat p.separators)).shows p =
      (catchAll .maxValue (.ofNat p.separators)).shows q) : p.toUpper = q.toUpper := by
  obtain ⟨hsignatures, hform, hparameter⟩ : _ ∧ _ ∧ _ := by simpa only [shows, Prod.mk.injEq] using h
  have hmnemonic : p.mnemonic.toUpper = q.mnemonic.toUpper := by
    have hlabel := congrArg Signature.label (List.cons.inj hsignatures).1
    rwa [label_catchAll, label_catchAll] at hlabel
  have hlargest : (Int64.maxValue - 1).toInt = Int64.maxValue.toInt - 1 := by decide
  have hseparators : p.separators = q.separators := by
    simp only [catchAll, hlargest] at hparameter
    rw [Profile.FitsWord] at hp hq
    omega
  have hregister : p.endsInRegister = q.endsInRegister := by
    simp only [catchAll, hp.toInt_ofNat, ← hseparators, decide_true, Bool.true_and] at hform
    revert hform
    cases p.endsInRegister <;> cases q.endsInRegister <;> decide
  simp only [Profile.toUpper, hmnemonic, hseparators, hregister]

end Family

namespace Catalog

/-- What help shows for the tokens of an instruction. -/
def shown (c : Catalog) : List Token → Option (List Signature × Nat × Nat)
  | [] => none
  | first :: operands =>
      (Family.find? c.families first.text).map fun f => (f.help first.text operands).shown

theorem shown_eq (c : Catalog) (tokens : List Token) :
    c.shown tokens =
      (Profile.of? tokens).bind fun p => (Family.find? c.families p.mnemonic).map (·.shows p) := by
  cases tokens with
  | nil => rfl
  | cons first operands => rfl

/-- No catalog tells instructions of one profile apart. -/
theorem shown_of_profile (c : Catalog) {tokens others : List Token}
    (h : Profile.of? tokens = Profile.of? others) : c.shown tokens = c.shown others := by
  rw [shown_eq, shown_eq, h]

/-- The catalog of one family for every mnemonic. -/
def probe (arity registerArity : Int64) : Catalog := ⟨[.catchAll arity registerArity], [], [], []⟩

theorem shown_probe (arity registerArity : Int64) (tokens : List Token) :
    (probe arity registerArity).shown tokens =
      (Profile.of? tokens).map (Family.catchAll arity registerArity).shows := by
  have hfind : ∀ mnemonic, Family.find? (probe arity registerArity).families mnemonic =
      some (.catchAll arity registerArity) := by
    intro mnemonic
    simp [Family.find?, Family.findIn?, probe, Family.accepts_catchAll]
  rw [shown_eq, Option.map_eq_bind]
  simp only [hfind, Option.map_some, Function.comp_def]

/-- Instructions that all catalogs show alike have one profile, but for the case of their mnemonics. -/
theorem profile_of_shown {tokens others : List Token}
    (h : ∀ c : Catalog, c.shown tokens = c.shown others)
    (htokens : ∀ p ∈ Profile.of? tokens, Profile.FitsWord p.separators)
    (hothers : ∀ p ∈ Profile.of? others, Profile.FitsWord p.separators) :
    (Profile.of? tokens).map Profile.toUpper = (Profile.of? others).map Profile.toUpper := by
  have hshown : ∀ arity registerArity,
      (Profile.of? tokens).map (Family.catchAll arity registerArity).shows =
        (Profile.of? others).map (Family.catchAll arity registerArity).shows := by
    intro arity registerArity
    rw [← shown_probe, ← shown_probe, h]
  cases hp : Profile.of? tokens with
  | none =>
      have hprobe := hshown 0 0
      rw [hp, Option.map_none] at hprobe
      rw [Option.map_eq_none_iff.mp hprobe.symm]
  | some p =>
      have hprobe := hshown .maxValue (.ofNat p.separators)
      rw [hp, Option.map_some] at hprobe
      obtain ⟨q, hq, hshows⟩ := Option.map_eq_some_iff.mp hprobe.symm
      rw [hq, Option.map_some, Option.map_some,
        Family.profile_of_shows (htokens p hp) (hothers q hq) hshows.symm]

end Catalog

end AsmAssist
