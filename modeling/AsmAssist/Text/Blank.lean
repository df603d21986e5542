/- Two classes of white space: the one that separates tokens on a line, and the standard's. -/

namespace AsmAssist.Blank

/-- Space separators, the line and the paragraph separator. -/
def isSeparator (c : Char) : Bool :=
  c == ' ' || c == '\u00A0' || c == '\u1680' || ('\u2000' ≤ c && c ≤ '\u200A')
    || c == '\u2028' || c == '\u2029' || c == '\u202F' || c == '\u205F' || c == '\u3000'

/-- Tab, line feed, vertical tab, form feed and carriage return. -/
def isControl (c : Char) : Bool := '\t' ≤ c && c ≤ '\r'

/-- What stands between tokens; the byte order mark counts. -/
def isGap (c : Char) : Bool := isControl c || isSeparator c || c == '\uFEFF'

/-- White space of the standard; the next-line control counts, the byte order mark does not. -/
def isSpace (c : Char) : Bool := isControl c || isSeparator c || c == '\u0085'

end AsmAssist.Blank
