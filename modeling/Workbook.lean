import Workbook.Engine
import Workbook.Formula.Tree
import Workbook.Proofs.Outline.Source
import Workbook.Proofs.Session.Blame
import Workbook.Proofs.Session.Cache
import Workbook.Proofs.Session.Captured
import Workbook.Proofs.Session.Folder
import Workbook.Proofs.Session.Modules
import Workbook.Proofs.Session.Noninterference
import Workbook.Proofs.Session.Renewal
import Workbook.Proofs.Session.Result
import Workbook.Proofs.Session.Runaway
import Workbook.Proofs.Snapshot
import Workbook.Script.Tree
import Workbook.Session.Report
import Workbook.Proofs.Session.Capacity
import Workbook.Proofs.Session.Retention
import Workbook.Proofs.Custody.Extension
import Workbook.Proofs.Session.Origin
import Workbook.Proofs.Session.Conversion
import Workbook.Proofs.Path
import Workbook.Proofs.Session.Binding
import Workbook.Proofs.Session.Sharing
import Workbook.Proofs.Session.Scoping
import Workbook.Proofs.Parser.Phrase
import Workbook.Proofs.Formula.Grammar
import Workbook.Proofs.Formula.Parsing
import Workbook.Proofs.Token.Bracketing
import Workbook.Proofs.Extent
import Workbook.Proofs.Script.Growth
import Workbook.Proofs.Script.Grammar
import Workbook.Proofs.Script.Operand
import Workbook.Proofs.Script.Derivation
import Workbook.Proofs.Parser.Account
import Workbook.Proofs.Parser.Nesting
import Workbook.Proofs.Parser.Height
import Workbook.Proofs.Script.Arrow
import Workbook.Proofs.Script.Acceptance
import Workbook.Proofs.Script.Completeness
import Workbook.Proofs.Parser.Tower
import Workbook.Proofs.Script.RoundTrip
import Workbook.Proofs.Heap
import Workbook.Proofs.Mapping.History
import Workbook.Proofs.Number
import Workbook.Proofs.Walk.Return
import Workbook.Proofs.Session.Listing
import Workbook.Proofs.Session.Specifier
import Workbook.Proofs.Formula.Arithmetic
import Workbook.Proofs.Formula.Literal
import Workbook.Proofs.Formula.Equality
import Workbook.Proofs.Number.Order
import Workbook.Proofs.Number.Text
import Workbook.Proofs.Token.Literal
import Workbook.Proofs.Formula.Index
import Workbook.Proofs.NumericKey
import Workbook.Proofs.Sorting
import Workbook.Proofs.Property
import Workbook.Proofs.Script.Jump
import Workbook.Proofs.Iteration
import Workbook.Proofs.Script.Hoisting
import Workbook.Proofs.Script.Trail
import Workbook.Proofs.Source.Excerpt
import Workbook.Proofs.Script.Separation
import Workbook.Proofs.Parser.Termination
import Workbook.Proofs.Formula.Report
import Workbook.Proofs.Json
import Workbook.Proofs.Script.Character
import Workbook.Proofs.Formula.Motion
import Workbook.Proofs.Walk.Copy
