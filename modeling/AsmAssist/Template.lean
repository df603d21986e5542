import AsmAssist.Text.Bytes

/- Templates: texts with slots that are filled in one reading from left to right. -/

namespace AsmAssist.Template

/-- A slot's spelling and the text that takes its place. -/
abbrev Slot := Bytes × Bytes

/-- Fills slots after the first `skip` bytes, which belong to a slot already filled. What is
    filled in is never read again. -/
def fillAfter (slots : List Slot) : Nat → Bytes → Bytes
  | _, [] => []
  | skip + 1, _ :: rest => fillAfter slots skip rest
  | 0, b :: rest =>
      match slots.find? fun slot => slot.1.isPrefixOf (b :: rest) with
      | some (spelling, value) => value ++ fillAfter slots (spelling.length - 1) rest
      | none => b :: fillAfter slots 0 rest

def fill (slots : List Slot) (template : Bytes) : Bytes := fillAfter slots 0 template

end AsmAssist.Template
