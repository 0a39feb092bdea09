import ClusterKeeper.Text
import ClusterKeeper.Json.Pointer
import ClusterKeeper.Json.Printer
import ClusterKeeper.Cipher.ChaCha
import ClusterKeeper.Encoding.Bytes
import ClusterKeeper.Encoding.Base64
import ClusterKeeper.Json.Parser
import ClusterKeeper.Cipher.Ed25519
import ClusterKeeper.Identity.Basic
import ClusterKeeper.Identity.Source
import ClusterKeeper.Schema.Basic
import ClusterKeeper.Schema.Kinds
import ClusterKeeper.Cluster.Names
import ClusterKeeper.Cluster.Spec
import ClusterKeeper.Cluster.Storage
import ClusterKeeper.Manifest.Basic
import ClusterKeeper.Manifest.Children
import ClusterKeeper.Store.Call
import ClusterKeeper.Metrics.Record
import ClusterKeeper.Reconcile.Object
import ClusterKeeper.Reconcile.Pass
import ClusterKeeper.Reconcile.Engine
import ClusterKeeper.Metrics.Text
import ClusterKeeper.Definition
import ClusterKeeper.Net.SocketAddress
import ClusterKeeper.Settings.Arguments
import ClusterKeeper.Scenario.Report
import ClusterKeeper.Api.Exchange
import ClusterKeeper.Api.Wire
import ClusterKeeper.Controller.Run
import ClusterKeeper.Main
import ClusterKeeper.Proofs.Keyed
import ClusterKeeper.Proofs.Json.Canonical
import ClusterKeeper.Proofs.Json.Merge
import ClusterKeeper.Proofs.Json.Extension
import ClusterKeeper.Proofs.Schema.Reading
import ClusterKeeper.Proofs.Schema.Regular
import ClusterKeeper.Proofs.Schema.Rereading
import ClusterKeeper.Proofs.Schema.Typed
import ClusterKeeper.Proofs.Schema.Merging
import ClusterKeeper.Proofs.Encoding.Base64
import ClusterKeeper.Proofs.Encoding.Base58
import ClusterKeeper.Proofs.Encoding.Varint
import ClusterKeeper.Proofs.Encoding.Seed
import ClusterKeeper.Proofs.Schema.Metadata
import ClusterKeeper.Proofs.Manifest.Written
import ClusterKeeper.Proofs.Manifest.Desired
import ClusterKeeper.Proofs.Manifest.References
import ClusterKeeper.Proofs.Manifest.Injective
import ClusterKeeper.Proofs.Cluster.Storage
import ClusterKeeper.Proofs.Text
import ClusterKeeper.Proofs.Manifest.Script
import ClusterKeeper.Proofs.Api.Application
import ClusterKeeper.Proofs.Identity.Persistence
import ClusterKeeper.Proofs.Identity.Decoding
import ClusterKeeper.Proofs.Identity.PeerId
import ClusterKeeper.Proofs.Store.Calls
import ClusterKeeper.Proofs.Store.Versions
import ClusterKeeper.Proofs.Store.Fields
import ClusterKeeper.Proofs.Store.Collection
import ClusterKeeper.Proofs.Store.Objects
import ClusterKeeper.Proofs.Store.Uids
import ClusterKeeper.Proofs.Store.History
import ClusterKeeper.Proofs.Store.Contract
import ClusterKeeper.Proofs.Program.Contract
import ClusterKeeper.Proofs.Program.Replay
import ClusterKeeper.Proofs.Program.Moves
import ClusterKeeper.Proofs.Metrics.Totals
import ClusterKeeper.Proofs.Metrics.Pass
import ClusterKeeper.Proofs.Metrics.Conservation
import ClusterKeeper.Proofs.Reconcile.Declaration
import ClusterKeeper.Proofs.Store.RoundTrip
import ClusterKeeper.Proofs.Reconcile.Documents
import ClusterKeeper.Proofs.Reconcile.Replacement
import ClusterKeeper.Proofs.Reconcile.Calls
import ClusterKeeper.Proofs.Reconcile.World
import ClusterKeeper.Proofs.Reconcile.Writes
import ClusterKeeper.Proofs.Reconcile.Independence
import ClusterKeeper.Proofs.Reconcile.Kept
import ClusterKeeper.Proofs.Reconcile.Overwrite
import ClusterKeeper.Proofs.Reconcile.Finalizers
import ClusterKeeper.Proofs.Reconcile.Gate
import ClusterKeeper.Proofs.Reconcile.Ownership
import ClusterKeeper.Proofs.Reconcile.Users
import ClusterKeeper.Proofs.Reconcile.Fleet
import ClusterKeeper.Proofs.Reconcile.Agreement
import ClusterKeeper.Proofs.Reconcile.Drift
import ClusterKeeper.Proofs.Reconcile.Convergence
import ClusterKeeper.Proofs.Reconcile.Foreign
import ClusterKeeper.Proofs.Reconcile.Idempotence
import ClusterKeeper.Proofs.Reconcile.Contention
import ClusterKeeper.Proofs.Reconcile.Unmentioned
import ClusterKeeper.Proofs.Reconcile.Isolation
import ClusterKeeper.Proofs.Reconcile.Turns
import ClusterKeeper.Proofs.Reconcile.Release
import ClusterKeeper.Proofs.Reconcile.ServerState
import ClusterKeeper.Proofs.Reconcile.Skipping
