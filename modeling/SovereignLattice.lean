import SovereignLattice.Foundations.AmortisedCost
import SovereignLattice.Foundations.AssocMap
import SovereignLattice.Foundations.Ballots
import SovereignLattice.Foundations.BigEndian
import SovereignLattice.Foundations.CheckedArithmetic
import SovereignLattice.Foundations.FileSystem
import SovereignLattice.Foundations.Interpolation
import SovereignLattice.Foundations.LengthPrefix
import SovereignLattice.Foundations.Locks
import SovereignLattice.Foundations.Loops
import SovereignLattice.Foundations.Quorums
import SovereignLattice.Foundations.Runs
import SovereignLattice.Foundations.Simulation
import SovereignLattice.Crypto.Curve
import SovereignLattice.Crypto.Encodings
import SovereignLattice.Crypto.Sha256
import SovereignLattice.Crypto.SmallCurve
import SovereignLattice.Crypto.ThresholdBls
import SovereignLattice.Wal.Compaction
import SovereignLattice.Wal.ShortReads
import SovereignLattice.Wal.WriteAheadLog
import SovereignLattice.Pbft.Atomicity
import SovereignLattice.Pbft.Certificates
import SovereignLattice.Pbft.ChainInvariant
import SovereignLattice.Pbft.Construction
import SovereignLattice.Pbft.DealtKeys
import SovereignLattice.Pbft.HandleMessage
import SovereignLattice.Pbft.LedgerCompleteness
import SovereignLattice.Pbft.Messages
import SovereignLattice.Pbft.Progress
import SovereignLattice.Pbft.QuorumTracker
import SovereignLattice.Pbft.Recovery
import SovereignLattice.Pbft.ReplaySteps
import SovereignLattice.Pbft.Selection
import SovereignLattice.Pbft.SignerEvidence
import SovereignLattice.Pbft.State
import SovereignLattice.Pbft.Transitions
import SovereignLattice.Pbft.VoteLedger
import SovereignLattice.Replica.Agreement
import SovereignLattice.Replica.CertificateFailures
import SovereignLattice.Replica.Equivocation
import SovereignLattice.Replica.FailingLog
import SovereignLattice.Replica.Follows
import SovereignLattice.Replica.GenuineNewViews
import SovereignLattice.Replica.Growth
import SovereignLattice.Replica.HighestSeq
import SovereignLattice.Replica.HonestStates
import SovereignLattice.Replica.Justified
import SovereignLattice.Replica.LogView
import SovereignLattice.Replica.Machine
import SovereignLattice.Replica.Provenance
import SovereignLattice.Replica.QuorumBinding
import SovereignLattice.Replica.RecordLog
import SovereignLattice.Replica.Replay
import SovereignLattice.Replica.ReplayAccepts
import SovereignLattice.Replica.SelectedCertificate
import SovereignLattice.Replica.SmallCluster
import SovereignLattice.Replica.Tracking
import SovereignLattice.Replica.ViewDurability
import SovereignLattice.Replica.VoteBacking
import SovereignLattice.Replica.VoteOrder
import SovereignLattice.Replica.Watermark
import SovereignLattice.Network.Codecs
import SovereignLattice.Network.Connection
import SovereignLattice.Network.Emissions
import SovereignLattice.Network.Framing
import SovereignLattice.Network.SignedStatements
import SovereignLattice.Cluster.Accounting
import SovereignLattice.Cluster.Actions
import SovereignLattice.Cluster.Agreement
import SovereignLattice.Cluster.Cascade
import SovereignLattice.Cluster.Locks
import SovereignLattice.Cluster.Reports
import SovereignLattice.Cluster.Requests
import SovereignLattice.Cluster.SilentFaults
import SovereignLattice.Dkg.Bootstrap
import SovereignLattice.Dkg.Complaints
import SovereignLattice.Dkg.DealerAgreement
import SovereignLattice.Dkg.FeldmanRun
import SovereignLattice.Dkg.FeldmanShares
import SovereignLattice.Dkg.Finalize
import SovereignLattice.Dkg.ForeignMessages
import SovereignLattice.Dkg.Frost
import SovereignLattice.Dkg.JointKey
import SovereignLattice.Dkg.KeyGeneration
import SovereignLattice.Dkg.MultiDealer
import SovereignLattice.Dkg.Registry
import SovereignLattice.Dkg.Session
import SovereignLattice.Dkg.ShareMessage
import SovereignLattice.Dkg.Transcript
import SovereignLattice.Process.Capacity
import SovereignLattice.Process.Certified
import SovereignLattice.Process.FourProcess
import SovereignLattice.Process.Linearizability
import SovereignLattice.Process.Locks
import SovereignLattice.Process.Machine
import SovereignLattice.Process.Progress
import SovereignLattice.Process.Refinement
import SovereignLattice.Process.Serial
import SovereignLattice.Process.SoloProcess
import SovereignLattice.Process.Steps
import SovereignLattice.Evidence.AssuranceAttestation
import SovereignLattice.Evidence.Binding
import SovereignLattice.Evidence.PackageRoot
import SovereignLattice.Evidence.RepairAttestation
import SovereignLattice.Evidence.SignedAttestation
import SovereignLattice.Evidence.Text
import SovereignLattice.Epoch.Intersection
import SovereignLattice.Epoch.Manager
import SovereignLattice.Epoch.Replay
