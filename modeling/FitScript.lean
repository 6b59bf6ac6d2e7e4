import FitScript.Main
import FitScript.Model.Draft
import FitScript.Model.Json
import FitScript.Script.Json
import FitScript.Template.Json
import FitScript.Text.Utf8.Lemmas
import FitScript.Proofs.Outcome
import FitScript.Proofs.Validation.Valid
import FitScript.Proofs.Name.Joined
import FitScript.Proofs.Model.WellNamed
import FitScript.Proofs.Formula.Reading
import FitScript.Proofs.Literal.Reading
import FitScript.Proofs.Script.Sections
import FitScript.Proofs.DataSource.Path
import FitScript.Proofs.Script.Builtin
import FitScript.Proofs.Script.Determinacy
import FitScript.Proofs.Json.Lexemes
import FitScript.Proofs.Json.Reading
import FitScript.Proofs.Json.Decoding
import FitScript.Proofs.Json.Records
import FitScript.Proofs.Description.Reading
import FitScript.Proofs.Description.RoundTrip
import FitScript.Proofs.Json.Places
import FitScript.Proofs.Description.Fields
import FitScript.Proofs.DataSource.Columns
import FitScript.Proofs.FileTree.Writing
import FitScript.Proofs.Cli.Steps
import FitScript.Proofs.Cli.Delivery
import FitScript.Proofs.Cli.Generation
import FitScript.Proofs.Model.Collisions
import FitScript.Proofs.Validation.Checks
import FitScript.Proofs.Validation.Precedence
import FitScript.Proofs.Validation.Presence
import FitScript.Proofs.Validation.Rearrangement
import FitScript.Proofs.Formula.Words
import FitScript.Proofs.Model.Terms
import FitScript.Proofs.FilePath.Names
import FitScript.Proofs.FileTree.Children
import FitScript.Proofs.Cli.Writing
import FitScript.Proofs.Cli.Checking
import FitScript.Proofs.Cli.Stages
import FitScript.Proofs.Cli.Atomicity
import FitScript.Proofs.Script.Metadata
import FitScript.Proofs.Script.Needs
import FitScript.Proofs.Script.Placeholder
import FitScript.Proofs.Json.Numbers
import FitScript.Proofs.Json.Spelling
import FitScript.Proofs.Json.Grammar
import FitScript.Proofs.Json.Reordering
import FitScript.Proofs.Json.OrderFree
import FitScript.Proofs.Description.Reordering
import FitScript.Proofs.Name.Reserved
import FitScript.Proofs.Text.Lines
import FitScript.Proofs.Script.Call
import FitScript.Proofs.Script.Packages
import FitScript.Proofs.Script.DataPath
import FitScript.Proofs.Template.OpenBraces
import FitScript.Proofs.Template.Substitution
import FitScript.Proofs.DataSource.Missing
import FitScript.Proofs.Literal.Bytes
import FitScript.Proofs.Interpreter.Arguments
import FitScript.Proofs.Model.Drafts
import FitScript.Proofs.Literal.Scanning
import FitScript.Proofs.FilePath.LastName
import FitScript.Proofs.Text.Case
import FitScript.Proofs.Family.Spelling
import FitScript.Proofs.Json.Overriding
import FitScript.Proofs.Settings.Reading
import FitScript.Proofs.Cli.Reports
import FitScript.Proofs.Settings.Overriding
