import AsmAssist.Config.Scalar

/- Writing of configuration text. -/

namespace AsmAssist.Config.Writer

/-- Quotes, backslashes, tabs and line ends are escaped. -/
def escape (b : UInt8) : Bytes :=
  if b == '"'.toUInt8 then .ofString "\\\""
  else if b == '\\'.toUInt8 then .ofString "\\\\"
  else if b == '\n'.toUInt8 then .ofString "\\n"
  else if b == '\r'.toUInt8 then .ofString "\\r"
  else if b == '\t'.toUInt8 then .ofString "\\t"
  else [b]

def text (s : Bytes) : Bytes := .ofString "\"" ++ s.flatMap escape ++ .ofString "\""

/-- A label as a text, which any name can be. -/
def field (label : Bytes) (value : Bytes) : Bytes := text label ++ .ofString ": " ++ value

def record (fields : List (String × Bytes)) : Bytes :=
  .ofString "\x7b"
    ++ Bytes.join (.ofString ", ") (fields.map fun (label, value) => field (.ofString label) value)
    ++ .ofString "\x7d"

def table (entries : List (Bytes × Bytes)) : Bytes :=
  .ofString "\x7b"
    ++ Bytes.join (.ofString ", ") (entries.map fun (label, value) => field label (text value))
    ++ .ofString "\x7d"

def list (items : List Bytes) : Bytes :=
  .ofString "[" ++ Bytes.join (.ofString ", ") items ++ .ofString "]"

/-- A document has one field a line. -/
def document (fields : List (String × Bytes)) : Bytes :=
  fields.flatMap fun (label, value) =>
    field (Bytes.ofString label) value ++ Bytes.ofString "\n"

end AsmAssist.Config.Writer
