import ThemeProps.Main
import ThemeProps.Settings.Session
import ThemeProps.Proofs.Block.Refinement
import ThemeProps.Proofs.Failure.Scan
import ThemeProps.Proofs.Scan.SettingOutput
import ThemeProps.Proofs.Scan.Selectors
import ThemeProps.Proofs.Template.Branch
import ThemeProps.Proofs.Template.NumericConditional
import ThemeProps.Proofs.Stylesheet.Sheet
import ThemeProps.Proofs.NoBrace.Value
import ThemeProps.Proofs.Template.Tidy
import ThemeProps.Proofs.NoBrace.Expr
import ThemeProps.Proofs.NoBrace.Block
import ThemeProps.Proofs.Template.SchemeLoop
import ThemeProps.Proofs.Template.Leftover
import ThemeProps.Proofs.Registry.History
import ThemeProps.Proofs.Project.History
import ThemeProps.Proofs.Template.FlatDocument
import ThemeProps.Proofs.Template.FirstScheme
import ThemeProps.Proofs.Settings.Memory
import ThemeProps.Proofs.Stylesheet.Extent
import ThemeProps.Proofs.Settings.Comment
import ThemeProps.Proofs.File.Place
import ThemeProps.Proofs.File.Discovery
import ThemeProps.Proofs.File.Alternatives
import ThemeProps.Proofs.File.Match
import ThemeProps.Proofs.File.FoundSet
import ThemeProps.Proofs.File.Wildcard
import ThemeProps.Proofs.File.OwnPattern
import ThemeProps.Proofs.Expr.Parse
import ThemeProps.Proofs.Template.SettingEcho
import ThemeProps.Proofs.Project.Unreadable
import ThemeProps.Proofs.Scan.Plain
import ThemeProps.Proofs.Scan.WellFormed
import ThemeProps.Proofs.Block.Count
import ThemeProps.Proofs.Block.Comment
import ThemeProps.Proofs.Block.Trace
import ThemeProps.Proofs.Block.Forloop
import ThemeProps.Proofs.Block.Nesting
import ThemeProps.Proofs.Block.Cut
import ThemeProps.Proofs.Block.Frame
import ThemeProps.Proofs.Settings.SchemePath
import ThemeProps.Proofs.Stylesheet.StyleBlock
import ThemeProps.Proofs.Stylesheet.StyleDocument
import ThemeProps.Proofs.Color
import ThemeProps.Proofs.Condition.Written
import ThemeProps.Proofs.Expr.AppendChain
import ThemeProps.Proofs.Condition.Setting
import ThemeProps.Proofs.Value.NaturalOrder
import ThemeProps.Proofs.Expr.Replace
import ThemeProps.Proofs.Settings.Schema
import ThemeProps.Proofs.Settings.Dialogue
import ThemeProps.Proofs.Config.Precedence
import ThemeProps.Proofs.Value.Representatives
import ThemeProps.Proofs.Value.Comparison
import ThemeProps.Proofs.Units
import ThemeProps.Proofs.Stylesheet.Laminar
import ThemeProps.Proofs.Expr.Pipes
import ThemeProps.Proofs.Template.Boundary
