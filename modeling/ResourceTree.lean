import ResourceTree.Blueprint.Trace
import ResourceTree.Client.Table
import ResourceTree.Proofs.AncestorResolution
import ResourceTree.Proofs.IdentityRuns
import ResourceTree.Proofs.RequestFrame
import ResourceTree.Server.Serve
import ResourceTree.Proofs.LayerSteps
import ResourceTree.Proofs.MiddlewareOrder
import ResourceTree.Proofs.GuardVerdicts
import ResourceTree.Proofs.ErrorEnvelopes
import ResourceTree.Proofs.PercentCodes
import ResourceTree.Proofs.RenderedPaths
import ResourceTree.Proofs.ServerUrls
import ResourceTree.Proofs.CommandErrands
import ResourceTree.Proofs.DefaultAnswers
import ResourceTree.Proofs.ClientServerAgreement
import ResourceTree.Proofs.RenderedIds
import ResourceTree.Proofs.BuildChecks
import ResourceTree.Proofs.RouteOverlaps
import ResourceTree.Proofs.ArrivingPaths
import ResourceTree.Proofs.TreeWalks
import ResourceTree.Proofs.LastWrites
import ResourceTree.Proofs.SeenEntries
import ResourceTree.Proofs.CommutingRequests
import ResourceTree.Proofs.Redaction
import ResourceTree.Proofs.TableRuns
import ResourceTree.Proofs.MergedFields
import ResourceTree.Proofs.Replacements
import ResourceTree.Proofs.RepeatedReplacements
import ResourceTree.Proofs.GuardedLoads
import ResourceTree.Proofs.Listings
import ResourceTree.Proofs.CommandRequests
import ResourceTree.Proofs.CommandLines
import ResourceTree.Proofs.ReportedTexts
import ResourceTree.Proofs.ComposedPatterns
import ResourceTree.Proofs.RecordCodec
import ResourceTree.Storage
import ResourceTree.Proofs.SharedStorages
