import MusicCollections.Text.Blank
import MusicCollections.Text.Lines
import MusicCollections.Text.Lowercase
import MusicCollections.Text.Quoted
import MusicCollections.Text.Utf8
import MusicCollections.Json.Shape
import MusicCollections.Json.Document
import MusicCollections.Catalog
import MusicCollections.Expression.Printer
import MusicCollections.Store.Definitions
import MusicCollections.Store.Snapshot
import MusicCollections.Cache.Rows
import MusicCollections.Effect
import MusicCollections.Daemon.InMemory
import MusicCollections.Daemon.Client
import MusicCollections.Session.Refresh
import MusicCollections.Command.Run
import MusicCollections.CommandLine.Reading
import MusicCollections.Configuration.Load
import MusicCollections.Completion.Names
import MusicCollections.Completion.Script
import MusicCollections.Main
import MusicCollections.Proofs.Sharing
import MusicCollections.Proofs.Subsets
import MusicCollections.Proofs.TableCache
import MusicCollections.Proofs.Completion
import MusicCollections.Proofs.Queue
import MusicCollections.Proofs.Expression.Faults
import MusicCollections.Proofs.Expression.Tiling
import MusicCollections.Proofs.Definitions.Dependencies
import MusicCollections.Proofs.Definitions.Checking
import MusicCollections.Proofs.Definitions.Freshness
import MusicCollections.Proofs.Operations.Snapshots
import MusicCollections.Proofs.Operations.Pool
import MusicCollections.Proofs.Operations.Failing
import MusicCollections.Proofs.Operations.Refreshing
import MusicCollections.Proofs.Session.Failing
import MusicCollections.Proofs.Session.Saving
import MusicCollections.Proofs.Session.Tracks
import MusicCollections.Proofs.Matching
import MusicCollections.Proofs.Messages
import MusicCollections.Proofs.TagReport
import MusicCollections.Proofs.Listing
import MusicCollections.Proofs.Indexing
import MusicCollections.Proofs.Expression.Ending
import MusicCollections.Proofs.Numbering
