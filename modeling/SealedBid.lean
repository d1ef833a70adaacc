import SealedBid.Foundation.FailSafeRun
import SealedBid.Foundation.MapEnumeration
import SealedBid.Foundation.LeadingEntry
import SealedBid.Foundation.KeyedLog
import SealedBid.Foundation.BinaryRounding
import SealedBid.Foundation.DecimalNotation
import SealedBid.Foundation.NumberValues
import SealedBid.Foundation.RunningMaximum
import SealedBid.Foundation.JsonValues
import SealedBid.Foundation.TextLines
import SealedBid.Foundation.PlainObject
import SealedBid.Foundation.LayeredMap
import SealedBid.Foundation.RecordedPrograms
import SealedBid.Foundation.MapTransport
import SealedBid.Foundation.PaddedCode
import SealedBid.Foundation.DelayedCalls
import SealedBid.Contract.Circuits
import SealedBid.Contract.Calls
import SealedBid.Contract.Identities
import SealedBid.Auction.AuctionRecord
import SealedBid.Auction.LedgerRefinement
import SealedBid.Auction.OutcomeOverRuns
import SealedBid.Auction.LedgerConsistency
import SealedBid.Auction.Lifecycle
import SealedBid.Auction.Authority
import SealedBid.Client.CompiledContract
import SealedBid.Client.Commitments
import SealedBid.Auction.RevealLaw
import SealedBid.Auction.RevealLiveness
import SealedBid.Auction.Disclosure
import SealedBid.Auction.OrderIndependence
import SealedBid.Auction.Noninterference
import SealedBid.Auction.Registration
import SealedBid.Auction.Settlement
import SealedBid.Client.Config
import SealedBid.Client.Deploy
import SealedBid.Client.Verify
import SealedBid.Client.EnvFile
import SealedBid.Client.EnvLoading
import SealedBid.Client.NetworkSelection
import SealedBid.Client.DeploymentParameters
import SealedBid.Compiled.LedgerVm
import SealedBid.Compiled.Circuits
import SealedBid.Compiled.StateEncoding
import SealedBid.Compiled.Refinement
import SealedBid.Compiled.Replay
import SealedBid.Compiled.FieldRepresentation
import SealedBid.Compiled.ZkIr
import SealedBid.Compiled.ZkIrSoundness
import SealedBid.Compiled.ZkIrCompleteness
import SealedBid.Compiled.Interleavings
import SealedBid.Compiled.Node
import SealedBid.Compiled.AcceptedOnce
import SealedBid.Compiled.PublishedTranscripts
import SealedBid.Compiled.LedgerView
import SealedBid.Compiled.Simulator
import SealedBid.Compiled.ChainVerification
import SealedBid.Funding.UnshieldedHistory
import SealedBid.Funding.WireFormat
import SealedBid.Funding.ReplayPositions
import SealedBid.Funding.Watcher
import SealedBid.Funding.WatcherRuns
import SealedBid.Funding.CaughtUp
import SealedBid.Funding.CheckFunding
import SealedBid.Funding.EnsureFunded
import SealedBid.Client.WalletSecret
