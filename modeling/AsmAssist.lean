import AsmAssist.Main
import AsmAssist.Proofs.Folding.Rewriting
import AsmAssist.Proofs.Lexeme.Atom
import AsmAssist.Proofs.Lexeme.Cut
import AsmAssist.Proofs.Scanner.Reading
import AsmAssist.Proofs.Scanner.Coverage
import AsmAssist.Proofs.Scanner.Language
import AsmAssist.Proofs.Folding.Leaves
import AsmAssist.Proofs.Folding.Pass
import AsmAssist.Proofs.Scanner.Locality
import AsmAssist.Proofs.Folding.Locality
import AsmAssist.Proofs.Symbol.Index
import AsmAssist.Proofs.Lines
import AsmAssist.Proofs.Symbol.Composition
import AsmAssist.Proofs.Session.Definition
import AsmAssist.Proofs.Config.Loading
import AsmAssist.Proofs.Lexeme.Retention
import AsmAssist.Proofs.Scanner.Spacing
import AsmAssist.Proofs.Decimal
import AsmAssist.Proofs.Folding.Trees
import AsmAssist.Proofs.Folding.Numbers
import AsmAssist.Proofs.Config.Lookup
import AsmAssist.Proofs.Lexeme.Word
import AsmAssist.Proofs.Symbol.Naming
import AsmAssist.Proofs.Line.Labels
import AsmAssist.Proofs.Symbol.Source
import AsmAssist.Proofs.Session.Labels
import AsmAssist.Proofs.Operand
import AsmAssist.Proofs.Family
import AsmAssist.Proofs.Session.Tail
import AsmAssist.Proofs.Session.Completion
import AsmAssist.Proofs.Line.Plain
import AsmAssist.Proofs.Line.Typing
import AsmAssist.Proofs.Catalog
import AsmAssist.Proofs.Pattern.Spans
import AsmAssist.Proofs.Pattern.Element
import AsmAssist.Proofs.Pattern.Run
import AsmAssist.Proofs.Pattern.Counts
import AsmAssist.Proofs.Pattern.Group
import AsmAssist.Proofs.Family.Mnemonics
import AsmAssist.Proofs.Scanner.Mixing
import AsmAssist.Proofs.Lines.Joining
import AsmAssist.Proofs.Family.Labels
import AsmAssist.Proofs.Lexeme.Register
import AsmAssist.Proofs.Line.LastOperand
import AsmAssist.Proofs.Session.Registers
import AsmAssist.Proofs.Rune.Cutting
import AsmAssist.Proofs.Lexeme.Quotation
import AsmAssist.Proofs.Journal.Line
import AsmAssist.Proofs.Operand.Clamp
import AsmAssist.Proofs.Journal.Derivation
