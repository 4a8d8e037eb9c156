import TypeRefs.Cli.Args
import TypeRefs.Cli.Help
import TypeRefs.Cli.Run
import TypeRefs.Decimal.Shortest
import TypeRefs.Declaration.Basic
import TypeRefs.Fs.Atomic
import TypeRefs.Fs.Error
import TypeRefs.Fs.Lookup
import TypeRefs.Fs.Tree
import TypeRefs.Fs.World
import TypeRefs.Json.Read
import TypeRefs.Json.Scalar
import TypeRefs.Json.Syntax
import TypeRefs.Json.Value
import TypeRefs.Main
import TypeRefs.Path.Basic
import TypeRefs.Path.Relative
import TypeRefs.Prepare.Error
import TypeRefs.Prepare.Hook
import TypeRefs.Prepare.Run
import TypeRefs.Project.Config
import TypeRefs.Project.Load
import TypeRefs.Reference.Entry
import TypeRefs.Resolve.Cache
import TypeRefs.Resolve.Collect
import TypeRefs.Resolve.Identifier
import TypeRefs.Resolve.Locate
import TypeRefs.Resolve.SearchPaths
import TypeRefs.Text.Blank
import TypeRefs.Text.CodeRanges
import TypeRefs.Text.Extending
import TypeRefs.Text.Quoted
import TypeRefs.Text.Unprintable
import TypeRefs.Text.Utf8
import TypeRefs.Proofs.Path.Absolute
import TypeRefs.Proofs.Path.Normal
import TypeRefs.Proofs.Resolve.SearchDirs
import TypeRefs.Proofs.Fs.Walk
import TypeRefs.Proofs.Fs.MakeDirs
import TypeRefs.Proofs.Fs.Emit
import TypeRefs.Proofs.Reference.Dedupe
import TypeRefs.Proofs.Declaration.Lines
import TypeRefs.Proofs.Prepare.Effects
import TypeRefs.Proofs.Prepare.Output
import TypeRefs.Proofs.Resolve.Store
import TypeRefs.Proofs.Fs.Frame
import TypeRefs.Proofs.Resolve.Agree
import TypeRefs.Proofs.Prepare.Rerun
import TypeRefs.Proofs.Resolve.Search
import TypeRefs.Proofs.Resolve.Collect
import TypeRefs.Proofs.Resolve.StoreKeys
import TypeRefs.Proofs.Resolve.Reads
import TypeRefs.Proofs.Resolve.PathSearch
import TypeRefs.Proofs.Path.Relative
import TypeRefs.Proofs.Cli.Prepare
import TypeRefs.Proofs.Resolve.Candidates
