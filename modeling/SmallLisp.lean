import SmallLisp.Builtin
import SmallLisp.Builtin.Arithmetic
import SmallLisp.Builtin.Collection
import SmallLisp.Builtin.Plain
import SmallLisp.Evaluator
import SmallLisp.Expansion
import SmallLisp.Fault
import SmallLisp.Fault.Report
import SmallLisp.Form.Atom
import SmallLisp.Form.Reader
import SmallLisp.Machine
import SmallLisp.Number
import SmallLisp.Number.Binary64
import SmallLisp.Number.Decimal
import SmallLisp.Number.Numeral
import SmallLisp.Pattern
import SmallLisp.Printer
import SmallLisp.ReadError
import SmallLisp.Session
import SmallLisp.Settings
import SmallLisp.Shape
import SmallLisp.SpecialForm
import SmallLisp.Store
import SmallLisp.Text.Blank
import SmallLisp.Text.Capital
import SmallLisp.Text.Digit
import SmallLisp.Text.Escape
import SmallLisp.Text.Literal
import SmallLisp.Text.Printable
import SmallLisp.Text.Run
import SmallLisp.Token
import SmallLisp.Token.Lexer
import SmallLisp.Token.Stream
import SmallLisp.Validation
import SmallLisp.Value
import SmallLisp.Value.Entries
import SmallLisp.Value.Equality
import SmallLisp.Value.Hash
import SmallLisp.Value.Sequence
import SmallLisp.Value.Slice
import SmallLisp.Proofs.Inversion
import SmallLisp.Proofs.Lexeme
import SmallLisp.Proofs.Grammar
import SmallLisp.Proofs.Reading
import SmallLisp.Proofs.Conservation
import SmallLisp.Proofs.Capability
import SmallLisp.Proofs.Shapes
import SmallLisp.Proofs.Discipline
import SmallLisp.Proofs.LibraryForms
import SmallLisp.Proofs.Evaluation
import SmallLisp.Proofs.Frames
import SmallLisp.Proofs.FrameCondition
import SmallLisp.Proofs.InShape
import SmallLisp.Proofs.Refilling
import SmallLisp.Proofs.ShapeSafety
import SmallLisp.Proofs.Equality
import SmallLisp.Proofs.Rounding
import SmallLisp.Proofs.Numerals
import SmallLisp.Proofs.NumberText
import SmallLisp.Proofs.Spelling
import SmallLisp.Proofs.Readable
import SmallLisp.Proofs.PrintRead
import SmallLisp.Proofs.Equivalence
import SmallLisp.Proofs.Hashing
import SmallLisp.Proofs.FiniteMap
import SmallLisp.Proofs.Correspondence
import SmallLisp.Proofs.Discretion
import SmallLisp.Proofs.Isolation
import SmallLisp.Proofs.Unmentioned
import SmallLisp.Proofs.Depth
import SmallLisp.Proofs.EntryPaths
import SmallLisp.Proofs.Joining
import SmallLisp.Proofs.Layout
import SmallLisp.Proofs.Heredity
import SmallLisp.Proofs.DocumentedFaults
import SmallLisp.Proofs.TransformerProtocol
import SmallLisp.Proofs.Juxtaposition
import SmallLisp.Proofs.Destructuring
import SmallLisp.Proofs.Application
import SmallLisp.Proofs.WriteHistory
import SmallLisp.Proofs.PatternPaths
import SmallLisp.Proofs.Remarks
import SmallLisp.Proofs.RemarkedStores
import SmallLisp.Proofs.RemarkedEvaluation
import SmallLisp.Proofs.RemarkTransparency
import SmallLisp.Proofs.PlainOperations
import SmallLisp.Proofs.SequenceView
import SmallLisp.Proofs.Folding
import SmallLisp.Proofs.Comparison
import SmallLisp.Proofs.PrintedScopes
import SmallLisp.Proofs.Quotation
import SmallLisp.Proofs.Legibility
