import AsmAssist.Token.Basic

/- Tokens at other places. A relocated token takes the tokens it was folded from along; its kind, its
   text and its readings stay. -/

namespace AsmAssist

def Range.relocate (f : Position → Position) (r : Range) : Range := ⟨f r.start, f r.stop⟩

namespace Token

mutual

/-- The token with every place of it and of its parts changed. -/
def relocate (f : Position → Position) : Token → Token
  | ⟨kind, payload, range⟩ => ⟨kind, relocatePayload f payload, range.relocate f⟩

def relocatePayload (f : Position → Position) : Payload Token → Payload Token
  | .absent => .absent
  | .raw text => .raw text
  | .number numeral => .number (relocateNumeral f numeral)
  | .label parts name => .label (relocateAll f parts) name
  | .shifted parts register shift amount =>
      .shifted (relocateAll f parts) register shift (relocateNumeral f amount)

def relocateNumeral (f : Position → Position) : Numeral Token → Numeral Token
  | ⟨parts, base, value, valid⟩ => ⟨relocateAll f parts, base, value, valid⟩

def relocateAll (f : Position → Position) : List Token → List Token
  | [] => []
  | token :: tokens => relocate f token :: relocateAll f tokens

end

/-- The token, all its parts included, some columns further right. -/
abbrev moveRight (columns : Int) : Token → Token := relocate (·.moveRight columns)

variable (f : Position → Position)

theorem relocateAll_eq_map (tokens : List Token) : relocateAll f tokens = tokens.map (relocate f) := by
  induction tokens with
  | nil => rfl
  | cons t tokens ih => rw [relocateAll, ih, List.map_cons]

@[simp] theorem relocate_kind (t : Token) : (t.relocate f).kind = t.kind := by
  cases t
  rfl

@[simp] theorem relocate_range (t : Token) : (t.relocate f).range = t.range.relocate f := by
  cases t
  rfl

@[simp] theorem relocate_payload (t : Token) :
    (t.relocate f).payload = relocatePayload f t.payload := by
  cases t
  rfl

theorem map_kind_relocate (tokens : List Token) :
    (tokens.map (relocate f)).map Token.kind = tokens.map Token.kind := by
  simp only [List.map_map, Function.comp_def, relocate_kind]

theorem numeral_relocatePayload (payload : Payload Token) :
    (relocatePayload f payload).numeral = relocateNumeral f payload.numeral := by
  cases payload <;> rfl

mutual

theorem text_relocate : ∀ t : Token, (t.relocate f).text = t.text
  | ⟨_, payload, _⟩ => payloadText_relocate payload

theorem payloadText_relocate : ∀ payload : Payload Token,
    payloadText (relocatePayload f payload) = payloadText payload
  | .absent => rfl
  | .raw _ => rfl
  | .number numeral => numeralText_relocate numeral
  | .label _ _ => rfl
  | .shifted parts _ _ _ => by
      simp only [relocatePayload, payloadText, texts_relocate parts]

theorem numeralText_relocate : ∀ numeral : Numeral Token,
    numeralText (relocateNumeral f numeral) = numeralText numeral
  | ⟨parts, _, _, _⟩ => by simp only [relocateNumeral, numeralText, texts_relocate parts]

theorem texts_relocate : ∀ tokens : List Token, texts (relocateAll f tokens) = texts tokens
  | [] => rfl
  | token :: tokens => by
      simp only [relocateAll, texts, text_relocate token, texts_relocate tokens]

end

end Token

end AsmAssist
