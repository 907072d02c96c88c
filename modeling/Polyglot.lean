import Polyglot.Table
import Polyglot.Path
import Polyglot.Text.Quoted
import Polyglot.Text.DecimalDigit
import Polyglot.Language.Builtin
import Polyglot.Grammar.Package
import Polyglot.Registry.Fault
import Polyglot.Tree.Walk
import Polyglot.Number.Numeral
import Polyglot.Data.Value
import Polyglot.Yaml.Token.Plain
import Polyglot.Yaml.Token.Block
import Polyglot.Yaml.Token.Property
import Polyglot.Yaml.Token.Scan
import Polyglot.Yaml.Node
import Polyglot.Yaml.Node.Parse
import Polyglot.Yaml.Document
import Polyglot.Yaml.Writer
import Polyglot.Registry.Use
import Polyglot.Registry.Build
import Polyglot.Workspace
import Polyglot.Proofs.Tree.Loop
import Polyglot.Proofs.Registry.Call
import Polyglot.Proofs.Registry.Coherence
import Polyglot.Proofs.Registry.History
import Polyglot.Proofs.Data.Merge
import Polyglot.Proofs.Settings.Layers
import Polyglot.Proofs.Settings.Priority
import Polyglot.Proofs.Registry.Cache
import Polyglot.Proofs.Settings.Change
import Polyglot.Proofs.Yaml.Quoted
import Polyglot.Proofs.Yaml.Plain
import Polyglot.Proofs.Yaml.Scan
import Polyglot.Proofs.Yaml.Tokens
import Polyglot.Proofs.Yaml.Layout
import Polyglot.Proofs.Yaml.Nodes
import Polyglot.Proofs.Settings.Saved
import Polyglot.Proofs.Settings.Durable
import Polyglot.Proofs.Registry.Aliases
import Polyglot.Proofs.Settings.Valid
import Polyglot.Proofs.Workspace
import Polyglot.Proofs.Registry.Mismatch
import Polyglot.Proofs.Yaml.Inside
import Polyglot.Proofs.Yaml.Faults
import Polyglot.Proofs.Settings.Skipped
import Polyglot.Proofs.Highlight
import Polyglot.Proofs.Registry.Build
import Polyglot.Proofs.Registry.Stages
import Polyglot.Proofs.Settings.Spread
import Polyglot.Proofs.Registry.Once
import Polyglot.Proofs.Registry.Restore
import Polyglot.Proofs.Settings.Ignored
import Polyglot.Proofs.Registry.Sequence
import Polyglot.Proofs.Path
import Polyglot.Proofs.Registry.Identify
import Polyglot.Proofs.Settings.RoundTrip
import Polyglot.Proofs.Settings.Effect
import Polyglot.Proofs.Highlight.Names
import Polyglot.Proofs.Tree.Monotone
import Polyglot.Proofs.Data.Paths
import Polyglot.Proofs.Config.Listed
import Polyglot.Proofs.Language
