import AsmAssist.Proofs.Line.Labels
import AsmAssist.Proofs.Operand
import AsmAssist.Proofs.Scanner.Spacing
import AsmAssist.Session

/- Help on a line with labels in front. Help asks for the text of the mnemonic and for the kinds of the
   operands, not for places, so moving an instruction to the right does not show in it. -/

namespace AsmAssist.Session

open Line (LeadingLabel)
open Line.LeadingLabel (textOf)

/-- Lines whose instructions say the same are helped with alike, log and session included. -/
theorem signature_of_content (s : Session) {line other : Bytes}
    (h : (Line.instruction line 0).map Token.content = (Line.instruction other 0).map Token.content) :
    s.signature line = s.signature other := by
  cases hline : Line.instruction line 0 with
  | nil =>
      rw [hline, List.map_nil] at h
      have hother : Line.instruction other 0 = [] := List.map_eq_nil_iff.mp h.symm
      simp only [signature, hline, hother]
  | cons first operands =>
      rw [hline, List.map_cons] at h
      obtain ⟨first', operands', hother, hfirst, hoperands⟩ := List.map_eq_cons_iff.mp h.symm
      have htext : first'.text = first.text := congrArg Prod.snd hfirst
      have hkinds : operands'.map Token.kind = operands.map Token.kind := by
        have hfst := congrArg (List.map Prod.fst) hoperands
        rwa [List.map_map, List.map_map] at hfst
      have hhelp : ∀ family : Family,
          family.help first.text operands' = family.help first.text operands := by
        intro family
        simp only [Family.help, Operand.analyze_of_kinds hkinds]
      simp only [signature, hline, hother, htext, hhelp]

/-- Labels in front of a line that is understood to its end only move its instruction to the right,
    all parts of its tokens included; so help on the line is the same with and without them. -/
theorem labels_are_transparent (labels : List LeadingLabel) {text : Bytes} {lineNumber : Int}
    (h : (Scan.line text lineNumber).error = none) :
    Line.instruction (textOf labels ++ text) lineNumber =
        (Line.instruction text lineNumber).map (Token.moveRight (textOf labels).runeCount) ∧
      ∀ s : Session, s.signature (textOf labels ++ text) = s.signature text := by
  refine ⟨Line.instruction_behind_labels labels h, ?_⟩
  intro s
  have hzero : (Scan.line text 0).error = none :=
    Scan.complete_of_lexable (Scan.lexable_of_complete h) 0
  apply signature_of_content
  rw [Line.instruction_behind_labels labels hzero, List.map_map]
  exact List.map_congr_left fun t _ => Token.content_relocate _ t

/-- Two labels, with blanks around the second. -/
def twoLabels : List LeadingLabel :=
  [⟨[], .ofString "a", [], [], .nil, .nil, .nil, by decide, by decide⟩,
    ⟨Scan.blank, .ofString "b1", Scan.blank, Scan.blank, .cons (c := ' ') (by decide) .nil,
      .cons (c := ' ') (by decide) .nil, .cons (c := ' ') (by decide) .nil, by decide, by decide⟩]

theorem two_labels_are_transparent :
    textOf twoLabels = .ofString "a: b1 : " ∧
      (Scan.line (.ofString "l: r1 shl 4") 3).error = none ∧
      Line.instruction (textOf twoLabels ++ .ofString "l: r1 shl 4") 3 =
        (Line.instruction (.ofString "l: r1 shl 4") 3).map (Token.moveRight 8) := by
  have hcomplete : (Scan.line (.ofString "l: r1 shl 4") 3).error = none := by decide
  exact ⟨by decide, hcomplete, (labels_are_transparent twoLabels hcomplete).1⟩

end AsmAssist.Session
