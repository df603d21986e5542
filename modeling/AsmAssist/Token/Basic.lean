import AsmAssist.Token.Kind
import AsmAssist.Token.Range

/- Tokens and what they carry. A scanned token carries its text; a folded one carries a reading
   and the tokens it was folded from, so the scanned line can always be read off a folded one. -/

namespace AsmAssist

/-- A numeral with the tokens it was read from. A text that denotes no 64-bit word has value 0
    and is not valid. -/
structure Numeral (τ : Type) where
  parts : List τ
  base : Int
  value : UInt64
  valid : Bool
deriving Repr

def Numeral.zero {τ : Type} : Numeral τ := ⟨[], 0, 0, false⟩

inductive Payload (τ : Type) where
  | absent
  | raw (text : Bytes)
  | number (numeral : Numeral τ)
  | label (parts : List τ) (name : Bytes)
  | shifted (parts : List τ) (register shift : Bytes) (amount : Numeral τ)
deriving Repr

structure Token where
  kind : Kind
  payload : Payload Token
  range : Range
deriving Repr

namespace Payload

def parts {τ : Type} : Payload τ → List τ
  | absent => []
  | raw _ => []
  | number n => n.parts
  | label parts _ => parts
  | shifted parts _ _ _ => parts

/-- The numeral of a number, and the zero numeral of anything else. -/
def numeral {τ : Type} : Payload τ → Numeral τ
  | number n => n
  | _ => .zero

end Payload

namespace Token

mutual

/-- The text of a token: a number is its parts in a row, a shifted register its parts with
    blanks between them, a label its name. -/
def text : Token → Bytes
  | ⟨_, payload, _⟩ => payloadText payload

def payloadText : Payload Token → Bytes
  | .absent => []
  | .raw text => text
  | .number numeral => numeralText numeral
  | .label _ name => name
  | .shifted parts _ _ _ => Bytes.join [0x20] (texts parts)

def numeralText : Numeral Token → Bytes
  | ⟨parts, _, _, _⟩ => (texts parts).flatten

def texts : List Token → List Bytes
  | [] => []
  | token :: tokens => text token :: texts tokens

end

/-- `KIND("text")@line:column-line:column`. -/
def render (t : Token) : Bytes :=
  .ofString t.kind.name ++ .ofString "(" ++ Quoted.text t.text ++ .ofString ")@"
    ++ t.range.render

end Token

end AsmAssist
