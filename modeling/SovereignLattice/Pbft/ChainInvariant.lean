import SovereignLattice.Pbft.Atomicity
import SovereignLattice.Pbft.ReplaySteps

/-!
# The certificate chain in every state

Every state that the constructor returns, from whatever bytes the log holds,
has a certificate chain, and no call of the handler breaks it.  The two code
paths share the operations of the ledger, so each is a case analysis.
-/

namespace SovereignLattice

variable [Curve]

/-- A prepared certificate among the values sits at its own slot. -/
theorem CertificateChain.get?_of_mem_values {topology : Topology}
    {ledger : VoteLedger} (chain : CertificateChain topology ledger)
    {cert : PreparedCertificate} (held : cert ∈ ledger.prepared.values) :
    ledger.prepared.get? (cert.view, cert.seq) = some cert := by
  rcases AssocMap.mem_values_iff.mp held with ⟨⟨view, seq⟩, stored⟩
  rcases chain.prepared_chain view seq cert stored with ⟨sameView, sameSeq, _⟩
  rw [sameView, sameSeq]
  exact stored

namespace PbftState

/-- The certificate-chain invariant of a state. -/
def Chained (state : PbftState) : Prop :=
  CertificateChain state.toTopology state.ledger

/-- Every accepted transition of the handler keeps the chain. -/
theorem Stages.chained {state staged : PbftState} {msg : PbftMessage}
    {response : Response} (stages : Stages state msg response staged)
    (authenticated : state.Authenticated msg) (chain : state.Chained) :
    staged.Chained := by
  rw [Authenticated] at authenticated
  cases stages with
  | prePrepare phase view leader unique fresh => exact chain.propose unique
  | prepare _ phase view proposed certified answer =>
      rw [phase] at authenticated
      exact chain.recordPrepare proposed authenticated certified
  | commit _ cert phase view proposed held certView certSeq certDigest verified
      certified answer =>
      rw [phase] at authenticated
      have backed := chain.get?_of_mem_values held
      rw [certView, certSeq] at backed
      exact chain.recordCommit backed certDigest authenticated certified
  | viewChangeVote phase later backed few => exact chain
  | viewChangeQuorum maxSeq digest selected phase later backed quorum slot
      selection found verified => exact chain
  | checkpointVote phase view few =>
      rw [phase] at authenticated
      exact chain.recordCheckpoint authenticated
  | checkpointQuorum phase view quorum =>
      rw [phase] at authenticated
      have kept :=
        (chain.recordCheckpoint authenticated).restrict fun seq =>
          decide (seq > msg.seq)
      exact kept

/-- One call of the handler keeps the chain, whatever it answers. -/
theorem handleMessage_chained {state : PbftState} (chain : state.Chained)
    (msg : PbftMessage) (io : WalIo) :
    (state.handleMessage msg io).2.Chained := by
  apply handleMessage_invariant Chained ?_ ?_ chain
  · intro state wal failed chain
    exact chain
  · intro response staged stages authenticated _
    exact stages.chained authenticated chain

theorem handleAll_chained {state : PbftState} (chain : state.Chained)
    (calls : List (PbftMessage × WalIo)) : (state.handleAll calls).Chained :=
  handleAll_invariant Chained
    (fun _ msg io before => handleMessage_chained before msg io) chain calls

end PbftState

namespace Topology

variable {topology : Topology}

/-- Every accepted transition of replay keeps the chain. -/
theorem Replays.chain {recovered next : Recovered} {record : Record}
    (replays : Replays topology recovered record next)
    (chain : CertificateChain topology recovered.ledger) :
    CertificateChain topology next.ledger := by
  cases replays with
  | prePrepare phase verifies leader unique => exact chain.propose unique
  | prepare phase verifies proposed certified =>
      exact chain.recordPrepare proposed verifies certified
  | commit cert phase verifies proposed held certView certSeq certDigest
      verified certified =>
      have backed := chain.get?_of_mem_values held
      rw [certView, certSeq] at backed
      exact chain.recordCommit backed certDigest verifies certified
  | viewChangeVote phase verifies backed few =>
      rw [← observe_ledger recovered record] at chain
      exact chain
  | viewChangeQuorum maxSeq digest selected phase verifies backed quorum slot
      selection found verified =>
      rw [← observe_ledger recovered record] at chain
      exact chain
  | checkpointVote phase verifies few => exact chain.recordCheckpoint verifies
  | checkpointQuorum phase verifies quorum =>
      exact chain.recordCheckpoint verifies

/-- Replay of any bytes, as long as no check has failed. -/
theorem replayBytes_invariant {invariant : Recovered → Prop}
    (preserved : ∀ recovered record next, invariant recovered →
      Replays topology recovered record next → invariant next)
    (file : Bytes) {recovered : Recovered}
    (initially : recovered.recoveryError = false → invariant recovered) :
    (replayBytes topology.replayRecord recovered file).2.recoveryError =
        false →
      invariant (replayBytes topology.replayRecord recovered file).2 := by
  fun_induction replayBytes topology.replayRecord recovered file with
  | case1 => exact initially
  | case2 => exact initially
  | case3 => exact initially
  | case4 recovered file nonempty long record decoded inductionHypothesis =>
      apply inductionHypothesis
      intro clean
      rcases replayRecord_ok clean with ⟨before, replays⟩
      exact preserved recovered record _ (initially before) replays

theorem ledger_recoveredState (recovered : Recovered) (wal : WriteAheadLog) :
    (topology.recoveredState recovered wal).ledger =
      recovered.ledger.restrict
        (survives recovered.recoveredStableCheckpoint) :=
  rfl

theorem recover_eq_ok {wal : WriteAheadLog} {state : PbftState} :
    topology.recover wal = .ok state ↔
      ∃ recovered,
        wal.replayLog topology.replayRecord Recovered.initial =
            (.ok (), recovered) ∧
          recovered.recoveryError = false ∧
          topology.recoveredState recovered wal = state := by
  rw [recover]
  rcases wal.replayLog topology.replayRecord Recovered.initial with
    ⟨outcome, recovered⟩
  cases outcome with
  | error error => simp
  | ok done =>
      cases failed : recovered.recoveryError with
      | true => simp [failed]
      | false => simp [failed]

/-- What holds at the start of a replay and survives every record holds of what
a state is recovered from. -/
theorem recover_invariant {invariant : Recovered → Prop}
    (initially : invariant Recovered.initial)
    (preserved : ∀ recovered record next, invariant recovered →
      Replays topology recovered record next → invariant next)
    {wal : WriteAheadLog} {state : PbftState}
    (ok : topology.recover wal = .ok state) :
    ∃ recovered, invariant recovered ∧
      topology.recoveredState recovered wal = state := by
  rcases recover_eq_ok.mp ok with ⟨recovered, replayed, clean, built⟩
  have result :=
    replayBytes_invariant preserved wal.file fun _ => initially
  rw [WriteAheadLog.replayLog] at replayed
  rw [replayed] at result
  exact ⟨recovered, result clean, built⟩

/-- What replay has found has a certificate chain. -/
def ReplayChained (topology : Topology) (recovered : Recovered) : Prop :=
  CertificateChain topology recovered.ledger

/-- Recovery from any bytes gives a chained state. -/
theorem recover_chained {wal : WriteAheadLog} {state : PbftState}
    (ok : topology.recover wal = .ok state) : state.Chained := by
  have preserved : ∀ current record next, ReplayChained topology current →
      Replays topology current record next → ReplayChained topology next :=
    fun _ _ _ chain replays => Replays.chain replays chain
  have initially : ReplayChained topology Recovered.initial :=
    CertificateChain.initially topology
  rcases recover_invariant initially preserved ok with ⟨recovered, chain, rfl⟩
  rw [PbftState.Chained]
  rw [ledger_recoveredState]
  exact chain.restrict _

end Topology

theorem newWithWalPath_eq_ok {totalNodes : Nat}
    {initialPublicKeys : AssocMap UInt32 G2Projective}
    {masterPublicKey : G2Projective} {wal : WriteAheadLog} {state : PbftState} :
    newWithWalPath totalNodes initialPublicKeys masterPublicKey wal =
        .ok state ↔
      ∃ topology,
        Topology.new totalNodes initialPublicKeys masterPublicKey =
            .ok topology ∧
          topology.recover wal = .ok state := by
  rw [newWithWalPath]
  cases Topology.new totalNodes initialPublicKeys masterPublicKey with
  | error error => simp
  | ok topology => simp

theorem chained_of_started {totalNodes : Nat}
    {initialPublicKeys : AssocMap UInt32 G2Projective}
    {masterPublicKey : G2Projective} {wal : WriteAheadLog} {state : PbftState}
    (started : newWithWalPath totalNodes initialPublicKeys masterPublicKey wal =
      .ok state) : state.Chained := by
  rcases newWithWalPath_eq_ok.mp started with ⟨topology, _, recovers⟩
  exact Topology.recover_chained recovers

/-- Whatever bytes the log holds, a recovered state has a certificate chain;
every call keeps it; so every state that calls reach from a recovered one has
one. -/
theorem certificateChain_always :
    (∀ (totalNodes : Nat) (initialPublicKeys : AssocMap UInt32 G2Projective)
      (masterPublicKey : G2Projective) (wal : WriteAheadLog)
      (state : PbftState),
      newWithWalPath totalNodes initialPublicKeys masterPublicKey wal =
          .ok state →
        CertificateChain state.toTopology state.ledger) ∧
    (∀ (state : PbftState) (msg : PbftMessage) (io : WalIo),
      CertificateChain state.toTopology state.ledger →
        CertificateChain (state.handleMessage msg io).2.toTopology
          (state.handleMessage msg io).2.ledger) ∧
    (∀ (totalNodes : Nat) (initialPublicKeys : AssocMap UInt32 G2Projective)
      (masterPublicKey : G2Projective) (wal : WriteAheadLog)
      (state : PbftState) (calls : List (PbftMessage × WalIo)),
      newWithWalPath totalNodes initialPublicKeys masterPublicKey wal =
          .ok state →
        CertificateChain (state.handleAll calls).toTopology
          (state.handleAll calls).ledger) := by
  refine ⟨?_, ?_, ?_⟩
  · intro totalNodes initialPublicKeys masterPublicKey wal state ok
    exact chained_of_started ok
  · intro state msg io chain
    exact PbftState.handleMessage_chained chain msg io
  · intro totalNodes initialPublicKeys masterPublicKey wal state calls ok
    exact PbftState.handleAll_chained (chained_of_started ok) calls

end SovereignLattice
