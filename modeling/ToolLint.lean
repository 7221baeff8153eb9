import ToolLint.Activity
import ToolLint.Check.Basic
import ToolLint.Check.Documentation
import ToolLint.Check.Modules
import ToolLint.Check.Options
import ToolLint.Check.Standard
import ToolLint.CommandLine
import ToolLint.Error
import ToolLint.Files
import ToolLint.Help
import ToolLint.Inspection
import ToolLint.Log
import ToolLint.Main
import ToolLint.Main.Machine
import ToolLint.Main.Shell
import ToolLint.Module
import ToolLint.Order
import ToolLint.Package
import ToolLint.Path
import ToolLint.Pattern.Basic
import ToolLint.Pattern.Reader
import ToolLint.Pod.Command
import ToolLint.Pod.Section
import ToolLint.Program.Basic
import ToolLint.Program.Grep
import ToolLint.Program.Script
import ToolLint.Proofs.Activity
import ToolLint.Proofs.Announcement
import ToolLint.Proofs.Check.Confinement
import ToolLint.Proofs.Check.Exemptions
import ToolLint.Proofs.Check.Failure
import ToolLint.Proofs.Check.HeaderOrder
import ToolLint.Proofs.Check.LineEndings
import ToolLint.Proofs.Check.ModuleLineEndings
import ToolLint.Proofs.Check.Modules
import ToolLint.Proofs.Check.OptionOrder
import ToolLint.Proofs.Check.OptionTypes
import ToolLint.Proofs.Check.OptionUsage
import ToolLint.Proofs.Check.SearchTrouble
import ToolLint.Proofs.Check.TrailingBlanks
import ToolLint.Proofs.Comparison
import ToolLint.Proofs.Construction
import ToolLint.Proofs.Dispatch
import ToolLint.Proofs.Divergence
import ToolLint.Proofs.Format
import ToolLint.Proofs.Help.Canonical
import ToolLint.Proofs.Help.Line
import ToolLint.Proofs.Help.Listing
import ToolLint.Proofs.Help.Names
import ToolLint.Proofs.Help.Rendering
import ToolLint.Proofs.Inspection
import ToolLint.Proofs.Order
import ToolLint.Proofs.Package
import ToolLint.Proofs.Pattern.Matching
import ToolLint.Proofs.Pattern.Reading
import ToolLint.Proofs.Pod.Command
import ToolLint.Proofs.Pod.Documented
import ToolLint.Proofs.Pod.Forest
import ToolLint.Proofs.Pod.Grammar
import ToolLint.Proofs.Pod.Level
import ToolLint.Proofs.Pod.Locality
import ToolLint.Proofs.Pod.Nesting
import ToolLint.Proofs.Pod.Options
import ToolLint.Proofs.Reads
import ToolLint.Proofs.References
import ToolLint.Proofs.Region
import ToolLint.Proofs.Report
import ToolLint.Proofs.Reporter
import ToolLint.Proofs.Rules.Encoding
import ToolLint.Proofs.Rules.Layers
import ToolLint.Proofs.Search
import ToolLint.Proofs.Session
import ToolLint.Proofs.Text.Blank
import ToolLint.Proofs.Text.Decimal
import ToolLint.Proofs.Text.Lines
import ToolLint.Proofs.Text.Pieces
import ToolLint.Proofs.Tool
import ToolLint.Proofs.Yaml.Encoding
import ToolLint.Report
import ToolLint.Reporter
import ToolLint.Rules.Basic
import ToolLint.Rules.Document
import ToolLint.Rules.Standard
import ToolLint.Search
import ToolLint.Settings
import ToolLint.Text.Base64
import ToolLint.Text.Basic
import ToolLint.Text.Blank
import ToolLint.Text.Chars
import ToolLint.Text.Cluster
import ToolLint.Text.Decimal
import ToolLint.Text.Lines
import ToolLint.Text.Printable
import ToolLint.Text.Quoted
import ToolLint.Text.Ranges
import ToolLint.Text.Width
import ToolLint.Tool
import ToolLint.Yaml.Characters
import ToolLint.Yaml.Cursor
import ToolLint.Yaml.Node
import ToolLint.Yaml.Scalar
import ToolLint.Yaml.Tag
import ToolLint.Yaml.Token
