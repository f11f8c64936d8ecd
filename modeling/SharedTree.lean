import SharedTree.Auth.Credentials
import SharedTree.Auth.Problem
import SharedTree.Auth.Report
import SharedTree.Change
import SharedTree.Client.Basic
import SharedTree.Client.Call
import SharedTree.Client.Commit
import SharedTree.Client.Effect
import SharedTree.Client.NetworkWatch
import SharedTree.Client.Services
import SharedTree.Contents
import SharedTree.Delivery
import SharedTree.Directory
import SharedTree.Entry
import SharedTree.Failure
import SharedTree.Identity
import SharedTree.NetworkWatch
import SharedTree.Node.Edit
import SharedTree.Node.View
import SharedTree.Observations
import SharedTree.Ordinal.Basic
import SharedTree.Ordinal.Between
import SharedTree.Ordinal.Digits
import SharedTree.Ordinal.Legacy
import SharedTree.Proofs.CallingBack
import SharedTree.Proofs.ChildOrder
import SharedTree.Proofs.ContentsWrites
import SharedTree.Proofs.OrdinalOrder
import SharedTree.Session
import SharedTree.Settings.Basic
import SharedTree.Settings.File
import SharedTree.Settings.Path
import SharedTree.Status
import SharedTree.SyncerReport
import SharedTree.Text.Hex
import SharedTree.Text.Printable
import SharedTree.Text.Quoted
import SharedTree.Toml.Document
import SharedTree.Toml.Scalar
import SharedTree.Toml.Space
import SharedTree.Toml.Text
import SharedTree.Toml.Value
import SharedTree.Transaction
import SharedTree.TransportName
import SharedTree.TreeShape
import SharedTree.Wire.Record
import SharedTree.Wire.Report
import SharedTree.Wire.Settings
import SharedTree.Wire.Status
import SharedTree.Wire.Value
import SharedTree.Proofs.NodeEdits
import SharedTree.Proofs.ParentChains
import SharedTree.Proofs.Placement
import SharedTree.Proofs.DeliveredLists
import SharedTree.Proofs.Midpoint
import SharedTree.Proofs.RootPaths
import SharedTree.Proofs.TouchedEntries
import SharedTree.Proofs.TreeOrder
import SharedTree.Proofs.DeliveredWalk
import SharedTree.Proofs.Replay
import SharedTree.Proofs.Readiness
import SharedTree.Proofs.TagLookups
import SharedTree.Proofs.Replica
import SharedTree.Proofs.SiblingsApart
import SharedTree.Proofs.PermanentNames
import SharedTree.Proofs.OwedNotifications
import SharedTree.Proofs.RefusedEdits
import SharedTree.Proofs.DamagedChains
import SharedTree.Proofs.Shutdown
import SharedTree.Proofs.SharedDirectory
import SharedTree.Proofs.OneUser
import SharedTree.Proofs.RepeatedMoves
import SharedTree.Proofs.LocalNudges
import SharedTree.Proofs.ObservationFolding
import SharedTree.Proofs.StoredNames
import SharedTree.Proofs.AuthHistory
import SharedTree.Proofs.LegacyPositions
import SharedTree.Proofs.NodeSettings
import SharedTree.Proofs.RepeatedDeletions
import SharedTree.Proofs.ClientCalls
import SharedTree.Proofs.PeerNotifications
import SharedTree.Proofs.SignInRequests
import SharedTree.Proofs.BeforeStart
import SharedTree.Proofs.ExactDigits
import SharedTree.Proofs.NetworkDifferences
import SharedTree.Proofs.OrdinalFractions
