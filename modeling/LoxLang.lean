import LoxLang.Cache
import LoxLang.Command
import LoxLang.Command.Flags
import LoxLang.Command.Help
import LoxLang.Config
import LoxLang.Config.FromToml
import LoxLang.Config.FromYaml
import LoxLang.Config.Locate
import LoxLang.Console
import LoxLang.Diagnostic
import LoxLang.Evaluate
import LoxLang.Execute
import LoxLang.Failure
import LoxLang.File.Ascent
import LoxLang.File.Path
import LoxLang.File.System
import LoxLang.Literal
import LoxLang.Log
import LoxLang.Main
import LoxLang.Number
import LoxLang.Number.Layout
import LoxLang.Number.Shortest
import LoxLang.Number.Whole
import LoxLang.Parse
import LoxLang.Parse.Grammar
import LoxLang.Repl
import LoxLang.Scan
import LoxLang.Scope
import LoxLang.Scope.Bindings
import LoxLang.Scope.Forest
import LoxLang.Session
import LoxLang.Table
import LoxLang.Text
import LoxLang.Text.Lowercase
import LoxLang.Text.Printable
import LoxLang.Text.Quoted
import LoxLang.Text.Splitting
import LoxLang.Text.Utf8
import LoxLang.Text.Width
import LoxLang.Token
import LoxLang.Toml.Document
import LoxLang.Toml.Reader
import LoxLang.Toml.Tables
import LoxLang.Tree
import LoxLang.Tree.Outline
import LoxLang.Tree.Printed
import LoxLang.Value
import LoxLang.Yaml.Cursor
import LoxLang.Yaml.Meaning
import LoxLang.Yaml.Node
import LoxLang.Yaml.Scalar
import LoxLang.Yaml.Token
import LoxLang.Proofs.Command.Dispatch
import LoxLang.Proofs.Command.Prompt
import LoxLang.Proofs.Command.Scripts
import LoxLang.Proofs.Config.Reloading
import LoxLang.Proofs.Config.Search
import LoxLang.Proofs.Execute.Agreement
import LoxLang.Proofs.Execute.Footprint
import LoxLang.Proofs.Execute.Globals
import LoxLang.Proofs.Execute.Places
import LoxLang.Proofs.Execute.Renaming
import LoxLang.Proofs.Execute.Safety
import LoxLang.Proofs.Execute.Simulation
import LoxLang.Proofs.Execute.Trace
import LoxLang.Proofs.Execute.Truncation
import LoxLang.Proofs.File.Paths
import LoxLang.Proofs.Grammar
import LoxLang.Proofs.Number.Display
import LoxLang.Proofs.Number.Fewest
import LoxLang.Proofs.Number.Nearest
import LoxLang.Proofs.Number.Numerals
import LoxLang.Proofs.Number.Plain
import LoxLang.Proofs.Number.Rounding
import LoxLang.Proofs.Number.Shortest
import LoxLang.Proofs.Number.Sign
import LoxLang.Proofs.Parse.Acceptance
import LoxLang.Proofs.Parse.Agreement
import LoxLang.Proofs.Parse.Bounds
import LoxLang.Proofs.Parse.Completeness
import LoxLang.Proofs.Parse.Conduct
import LoxLang.Proofs.Parse.Counter
import LoxLang.Proofs.Parse.Limit
import LoxLang.Proofs.Parse.Positions
import LoxLang.Proofs.Parse.Primitives
import LoxLang.Proofs.Parse.Recovery
import LoxLang.Proofs.Parse.Soundness
import LoxLang.Proofs.RoundTrip
import LoxLang.Proofs.Scan.Characters
import LoxLang.Proofs.Scan.ExactLines
import LoxLang.Proofs.Scan.Lexemes
import LoxLang.Proofs.Scan.Lines
import LoxLang.Proofs.Scan.LongestMatch
import LoxLang.Proofs.Scan.Loop
import LoxLang.Proofs.Scan.Pieces
import LoxLang.Proofs.Scan.Rescanning
import LoxLang.Proofs.Scope.Chain
import LoxLang.Proofs.Scope.Names
import LoxLang.Proofs.Scope.Owner
import LoxLang.Proofs.Scope.View
import LoxLang.Proofs.Session.BrokenOutput
import LoxLang.Proofs.Session.Interactive
import LoxLang.Proofs.Session.Recency
import LoxLang.Proofs.Session.Run
import LoxLang.Proofs.Session.Safety
import LoxLang.Proofs.Session.Splitting
import LoxLang.Proofs.Session.Transparency
import LoxLang.Proofs.Session.Verdict
import LoxLang.Proofs.Text.Digits
import LoxLang.Proofs.Text.Forms
import LoxLang.Proofs.Text.Quoted
import LoxLang.Proofs.Toml.Documents
import LoxLang.Proofs.Toml.Numbers
import LoxLang.Proofs.Toml.Reading
import LoxLang.Proofs.Toml.Spelling
import LoxLang.Proofs.Toml.Strings
import LoxLang.Proofs.Tree.Readability
import LoxLang.Proofs.Tree.Relocation
import LoxLang.Proofs.Tree.Shape
