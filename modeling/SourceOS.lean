import SourceOS.Caps.Package
import SourceOS.Cosa.Accepted
import SourceOS.Cosa.Build
import SourceOS.Cosa.BuildTarget
import SourceOS.Cosa.Bundle
import SourceOS.Cosa.Lint
import SourceOS.Cosa.Schema
import SourceOS.Foundation.Canonical
import SourceOS.Foundation.CanonicalText
import SourceOS.Foundation.Decides
import SourceOS.Foundation.Disk
import SourceOS.Foundation.Document
import SourceOS.Foundation.DocumentJson
import SourceOS.Foundation.DocumentText
import SourceOS.Foundation.Effect
import SourceOS.Foundation.Filepath
import SourceOS.Foundation.Go
import SourceOS.Foundation.HashChain
import SourceOS.Foundation.Json
import SourceOS.Foundation.JsonFile
import SourceOS.Foundation.JsonSchema
import SourceOS.Foundation.JsonSet
import SourceOS.Foundation.JsonString
import SourceOS.Foundation.Ledger
import SourceOS.Foundation.LineReader
import SourceOS.Foundation.Lines
import SourceOS.Foundation.Lists
import SourceOS.Foundation.Net
import SourceOS.Foundation.PacketFilter
import SourceOS.Foundation.PyChar
import SourceOS.Foundation.PyString
import SourceOS.Foundation.Python
import SourceOS.Foundation.Run
import SourceOS.Foundation.Sha256
import SourceOS.Foundation.Simulation
import SourceOS.Foundation.SortedKeys
import SourceOS.Foundation.StableSort
import SourceOS.Foundation.Strftime
import SourceOS.Foundation.Text
import SourceOS.Foundation.TornLog
import SourceOS.Foundation.Utf8
import SourceOS.Gate.Audit
import SourceOS.Gate.AuditFile
import SourceOS.Gate.Client
import SourceOS.Gate.Concurrent
import SourceOS.Gate.Connections
import SourceOS.Gate.Daemon
import SourceOS.Gate.Egress
import SourceOS.Gate.Errors
import SourceOS.Gate.Expiry
import SourceOS.Gate.Firewall
import SourceOS.Gate.FrontEnds
import SourceOS.Gate.GrantLog
import SourceOS.Gate.Listing
import SourceOS.Gate.Nft
import SourceOS.Gate.NftGrammar
import SourceOS.Gate.OutputChain
import SourceOS.Gate.Processes
import SourceOS.Gate.RequestShapes
import SourceOS.Gate.Script
import SourceOS.Gate.ScriptSets
import SourceOS.Gate.Serial
import SourceOS.Gate.Statements
import SourceOS.Gate.Store
import SourceOS.Gate.StoreRun
import SourceOS.Gate.TextListing
import SourceOS.Gate.Verify
import SourceOS.Mount.Committed
import SourceOS.Mount.DevRetention
import SourceOS.Mount.DevSnapshot
import SourceOS.Mount.FrozenHash
import SourceOS.Mount.Governance
import SourceOS.Mount.HandleRun
import SourceOS.Mount.Handles
import SourceOS.Mount.InceptionFS
import SourceOS.Mount.Keeping
import SourceOS.Mount.Memory
import SourceOS.Mount.MountRun
import SourceOS.Mount.PathLog
import SourceOS.Mount.PruneReport
import SourceOS.Mount.Replicate
import SourceOS.Mount.Retention
import SourceOS.Mount.Tamper
import SourceOS.Mount.TarStream
import SourceOS.Mount.TreeHash
import SourceOS.Truth.Attestation
import SourceOS.Truth.Delta
import SourceOS.Truth.DeltaStored
import SourceOS.Truth.DropNulls
import SourceOS.Truth.OsRelease
import SourceOS.Truth.Records
import SourceOS.Truth.Smoke
import SourceOS.Truth.Stored
import SourceOS.Truth.Surface
import SourceOS.Truth.Tick
