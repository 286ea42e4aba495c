import SovereignLattice.Foundations.Ballots
import SovereignLattice.Replica.CertificateFailures
import SovereignLattice.Replica.Growth
import SovereignLattice.Replica.Tracking

/-!
# Votes of one phase commute

The maps of a replica are compared by what they hold.  Prepares only enter ballots
in one table and commits in another, accepted or not by a part of the state that
they leave alone, and the certificates follow from the tables.
-/

namespace SovereignLattice

section VoteOrder

variable [Curve]

/-! ## What the maps hold -/

/-- A certificate with its signatures by signer. -/
structure CertificateContents where
  view : UInt64
  seq : UInt64
  digest : Digest
  signatures : UInt32 → Option G1Projective

def PreparedCertificate.contents (cert : PreparedCertificate) :
    CertificateContents where
  view := cert.view
  seq := cert.seq
  digest := cert.digest
  signatures := cert.signatures.get?

def CommitCertificate.contents (cert : CommitCertificate) :
    CertificateContents where
  view := cert.view
  seq := cert.seq
  digest := cert.digest
  signatures := cert.signatures.get?

/-- A new-view certificate with its votes by sender. -/
structure NewViewContents where
  targetView : UInt64
  viewChangeVotes : UInt32 → Option (UInt64 × Digest × G1Projective)
  selectedPreparedCertificate : Option CertificateContents

def NewViewCertificate.contents (cert : NewViewCertificate) :
    NewViewContents where
  targetView := cert.targetView
  viewChangeVotes := cert.viewChangeVotes.get?
  selectedPreparedCertificate :=
    cert.selectedPreparedCertificate.map PreparedCertificate.contents

/-- The signatures by proposal and by signer. -/
def VoteMap.contents (votes : VoteMap) :
    Table ProposalKey UInt32 G1Projective :=
  fun key => (votes.get? key).map fun sigs => sigs.get?

/-- The fields of `PbftState` without the log, every map as what it holds. -/
structure ProtocolState where
  topology : Topology
  currentView : UInt64
  highestSeq : UInt64
  lastStableCheckpoint : UInt64
  preparedCertificates : UInt64 × UInt64 → Option CertificateContents
  commitCertificates : UInt64 × UInt64 → Option CertificateContents
  newViewCertificates : UInt64 → Option NewViewContents
  committedDigest : UInt64 × UInt64 → Option Digest
  prePreparedProposals : Finset ProposalKey
  prepareVotes : Table ProposalKey UInt32 G1Projective
  commitVotes : Table ProposalKey UInt32 G1Projective
  checkpointVotes : Table ProposalKey UInt32 G1Projective
  viewChangeVotes : Table UInt64 UInt32 (UInt64 × Digest × G1Projective)
  walFailed : Bool

def PbftState.protocol (state : PbftState) : ProtocolState where
  topology := state.toTopology
  currentView := state.currentView
  highestSeq := state.highestSeq
  lastStableCheckpoint := state.lastStableCheckpoint
  preparedCertificates slot :=
    (state.preparedCertificates.get? slot).map PreparedCertificate.contents
  commitCertificates slot :=
    (state.commitCertificates.get? slot).map CommitCertificate.contents
  newViewCertificates view :=
    (state.newViewCertificates.get? view).map NewViewCertificate.contents
  committedDigest := state.committedDigest.get?
  prePreparedProposals := state.prePreparedProposals
  prepareVotes := state.prepareVotes.contents
  commitVotes := state.commitVotes.contents
  checkpointVotes := state.checkpointVotes.contents
  viewChangeVotes view :=
    (state.viewChangeVotes.get? view).map fun supporters => supporters.get?
  walFailed := state.walFailed

/-- Handle one message, with every file operation succeeding. -/
def PbftState.receive (state : PbftState) (msg : PbftMessage) : PbftState :=
  (state.handleMessage msg .durable).2

/-- The ballot that a vote casts. -/
def PbftMessage.ballot (msg : PbftMessage) :
    Ballot ProposalKey UInt32 G1Projective where
  subject := msg.proposalKey
  voter := msg.senderId
  opinion := msg.signature

theorem VoteMap.contents_insert_withVote (votes : VoteMap) (msg : PbftMessage) :
    VoteMap.contents (votes.insert msg.proposalKey
        (votes.withVote msg.proposalKey msg.senderId msg.signature)) =
      votes.contents.enter msg.ballot := by
  funext key
  rw [VoteMap.contents, AssocMap.get?_insert]
  by_cases here : key = msg.proposalKey
  · subst here
    have said : votes.contents.about msg.proposalKey =
        (votes.getD msg.proposalKey ∅).get? := by
      rw [Table.about, VoteMap.contents, AssocMap.getD]
      cases votes.get? msg.proposalKey with
      | none =>
          funext sender
          simp
      | some sigs => rfl
    rw [if_pos rfl, Option.map_some, Table.enter]
    dsimp only [PbftMessage.ballot]
    rw [Function.update_self, said]
    congr 1
    funext sender
    rw [VoteMap.withVote_get?, Function.update_apply]
  · rw [if_neg here, Table.enter]
    dsimp only [PbftMessage.ballot]
    rw [Function.update_of_ne here, VoteMap.contents]

/-- The same signatures by proposal are as many for each proposal. -/
theorem VoteMap.get?_of_contents {votes other : VoteMap}
    (same : votes.contents = other.contents) {key : ProposalKey}
    {sigs : SignatureMap} (stored : votes.get? key = some sigs) :
    ∃ otherSigs, other.get? key = some otherSigs ∧
      otherSigs.get? = sigs.get? ∧ otherSigs.len = sigs.len := by
  have atKey := congrFun same key
  rw [VoteMap.contents, VoteMap.contents, stored, Option.map_some] at atKey
  rcases Option.map_eq_some_iff.mp atKey.symm with ⟨otherSigs, found, lookups⟩
  refine ⟨otherSigs, found, lookups, ?_⟩
  have keys : otherSigs.keySet = sigs.keySet := by
    ext sender
    rw [AssocMap.mem_keySet, AssocMap.mem_keySet, AssocMap.mem_keys_iff,
      AssocMap.mem_keys_iff, lookups]
  rw [← AssocMap.card_keySet, ← AssocMap.card_keySet, keys]

/-! ## Certificates follow from votes -/

section Determined

variable {topology : Topology} {first second : VoteLedger}

omit [Curve] in
private theorem map_eq_of_transfer {V W : Type} {left right : Option V}
    {contents : V → W}
    (forward : ∀ value, left = some value →
      right.map contents = some (contents value))
    (backward : ∀ value, right = some value →
      left.map contents = some (contents value)) :
    left.map contents = right.map contents := by
  cases found : left with
  | some value => rw [Option.map_some, forward value found]
  | none =>
      cases foundToo : right with
      | none => rfl
      | some value =>
          have transferred := backward value foundToo
          rw [found] at transferred
          cases transferred

theorem preparedContents_of_votes (chain : CertificateChain topology first)
    (complete : second.Complete topology.quorumSize)
    (same : first.prepareVotes.contents = second.prepareVotes.contents)
    {slot : UInt64 × UInt64} {cert : PreparedCertificate}
    (stored : first.prepared.get? slot = some cert) :
    (second.prepared.get? slot).map PreparedCertificate.contents =
      some cert.contents := by
  rcases chain.prepared_chain slot.1 slot.2 cert stored with
    ⟨sameView, sameSeq, _, votes, quorum, _⟩
  rcases VoteMap.get?_of_contents same votes with ⟨sigs, found, lookups, size⟩
  have certified := complete.prepared_of_quorum _ _ found (by rwa [size])
  have here : second.prepared.get? slot = some (preparedCertificateOf
      (slot.1, slot.2, cert.digest) sigs) := certified
  rw [here, Option.map_some, PreparedCertificate.contents,
    PreparedCertificate.contents, preparedCertificateOf]
  dsimp only
  rw [lookups, sameView, sameSeq]

theorem commitContents_of_votes (chain : CertificateChain topology first)
    (complete : second.Complete topology.quorumSize)
    (same : first.commitVotes.contents = second.commitVotes.contents)
    {slot : UInt64 × UInt64} {cert : CommitCertificate}
    (stored : first.commits.get? slot = some cert) :
    (second.commits.get? slot).map CommitCertificate.contents =
        some cert.contents ∧
      second.committed.get? slot = some cert.digest := by
  rcases chain.commit_chain slot.1 slot.2 cert stored with
    ⟨sameView, sameSeq, _, votes, quorum, _⟩
  rcases VoteMap.get?_of_contents same votes with ⟨sigs, found, lookups, size⟩
  rcases complete.commits_of_quorum _ _ found (by rwa [size]) with
    ⟨certified, committed⟩
  have here : second.commits.get? slot = some (commitCertificateOf
      (slot.1, slot.2, cert.digest) sigs) := certified
  refine ⟨?_, committed⟩
  rw [here, Option.map_some, CommitCertificate.contents,
    CommitCertificate.contents, commitCertificateOf]
  dsimp only
  rw [lookups, sameView, sameSeq]

theorem committed_of_votes (chain : CertificateChain topology first)
    (complete : second.Complete topology.quorumSize)
    (same : first.commitVotes.contents = second.commitVotes.contents)
    {slot : UInt64 × UInt64} {digest : Digest}
    (stored : first.committed.get? slot = some digest) :
    second.committed.get? slot = some digest := by
  have present : (first.commits.get? slot).isSome :=
    (chain.committed_keys _).mpr (Option.isSome_of_mem stored)
  rcases Option.isSome_iff_exists.mp present with ⟨cert, certified⟩
  rcases chain.commit_chain slot.1 slot.2 cert certified with
    ⟨_, _, sameDigest, _⟩
  have digests : digest = cert.digest :=
    Option.some.inj (stored.symm.trans sameDigest)
  rw [digests]
  exact (commitContents_of_votes chain complete same certified).2

end Determined

/-! ## States in which votes are counted -/

/-- A state with dealt keys whose votes are verified and whose quorums have formed
their certificates. -/
structure Ready (coefficients : List Scalar) (state : PbftState) : Prop where
  dealt : DealtKeys state.toTopology coefficients
  verified : VotesVerified state
  complete : state.ledger.Complete state.quorumSize

namespace Ready

variable {coefficients : List Scalar} {state : PbftState} {msg : PbftMessage}

theorem completeFor (ready : Ready coefficients state) {topology : Topology}
    (same : state.toTopology = topology) :
    state.ledger.Complete topology.quorumSize := by
  subst same
  exact ready.complete

theorem handleMessage (ready : Ready coefficients state) (msg : PbftMessage)
    (io : WalIo) : Ready coefficients (state.handleMessage msg io).2 := by
  have sameTopology := state.handleMessage_sameTopology msg io
  have complete :
      (state.handleMessage msg io).2.ledger.Complete state.quorumSize := by
    apply PbftState.handleMessage_invariant
      (fun current => current.ledger.Complete state.quorumSize)
      (fun _ _ _ holds => holds) ?_ ready.complete
    exact fun _ _ stages _ _ =>
      stages.complete ready.verified.chain rfl ready.complete
  have sameSize : (state.handleMessage msg io).2.quorumSize = state.quorumSize :=
    congrArg Topology.quorumSize sameTopology
  exact
    { dealt := sameTopology ▸ ready.dealt
      verified := ready.verified.handleMessage msg io
      complete := sameSize ▸ complete }

theorem handleAll (ready : Ready coefficients state)
    (calls : List (PbftMessage × WalIo)) :
    Ready coefficients (state.handleAll calls) :=
  PbftState.handleAll_invariant (Ready coefficients)
    (fun _ msg io before => before.handleMessage msg io) ready calls

end Ready

/-- Recovery from any bytes gives a ready state, when the keys are dealt. -/
theorem ready_of_recover {topology : Topology} {wal : WriteAheadLog}
    {state : PbftState} {coefficients : List Scalar}
    (ok : topology.recover wal = .ok state)
    (dealt : DealtKeys state.toTopology coefficients) :
    Ready coefficients state := by
  have verified := votesVerified_of_recover ok
  rcases Topology.exists_records_of_recover ok with ⟨log, rfl⟩
  rcases Topology.recover_encodeLog.mp ok with ⟨clean, rfl⟩
  have reflects := Topology.reflects_of_clean clean
  exact
    { dealt := dealt
      verified := verified
      complete := reflects.complete.restrict _ }

/-! ## One vote -/

section OneVote

variable {coefficients : List Scalar} {state : PbftState} {msg : PbftMessage}

/-- What the handler asks of every vote for a proposal. -/
def TakesVote (phase : Phase) (state : PbftState) (msg : PbftMessage) : Prop :=
  state.walFailed = false ∧
    state.toTopology.Verifies phase msg.proposalKey msg.senderId msg.signature ∧
    msg.view = state.currentView ∧
    msg.proposalKey ∈ state.prePreparedProposals

/-- With dealt keys the votes that are taken never contradict each other. -/
theorem TakesVote.agrees (dealt : DealtKeys state.toTopology coefficients)
    {phase : Phase} {other : PbftMessage} (takes : TakesVote phase state msg)
    (takesOther : TakesVote phase state other) :
    msg.ballot.Agrees other.ballot := by
  intro subject voter
  have verifies := takesOther.2.1
  change msg.proposalKey = other.proposalKey at subject
  change msg.senderId = other.senderId at voter
  rw [← subject, ← voter] at verifies
  exact dealt.signature_unique takes.2.1 verifies

/-- A commit also asks for a prepared certificate at its slot. -/
def TakesCommit (state : PbftState) (msg : PbftMessage) : Prop :=
  TakesVote .commit state msg ∧
    (state.preparedCertificates.get? (msg.view, msg.seq)).isSome

/-- Whatever the handler does not stage changes nothing. -/
theorem PbftState.receive_cases (state : PbftState) {msg : PbftMessage}
    (phase : msg.phase ≠ .checkpoint) :
    state.receive msg = state ∨
      state.walFailed = false ∧ state.Authenticated msg ∧
        ∃ response staged, Stages state msg response staged := by
  rcases state.exists_outcome msg .durable with
    ⟨answer, after, handled, outcome⟩
  rw [receive]
  simp only [handled]
  cases outcome with
  | unavailable => exact Or.inl rfl
  | rejected => exact Or.inl rfl
  | obsolete checkpoint => exact absurd checkpoint phase
  | appendFailed written failed => cases failed
  | accepted response staged running authenticated newer stages =>
      exact Or.inr ⟨running, authenticated, response, staged, stages⟩
  | stabilized staged image running authenticated newer stages =>
      exact absurd stages.checkpoint_of_stabilized phase
  | pruneFailed staged wal authenticated newer stages =>
      exact absurd stages.checkpoint_of_stabilized phase

theorem PbftState.receive_of_stage {response : Response} {staged : PbftState}
    (running : state.walFailed = false) (authenticated : state.Authenticated msg)
    (phase : msg.phase ≠ .checkpoint)
    (accepted : state.stage msg = (.ok response, staged)) :
    ∃ wal, state.receive msg = { staged with wal := wal } := by
  rcases handleMessage_of_stage running authenticated phase accepted with
    ⟨wal, handled⟩
  exact ⟨wal, congrArg Prod.snd handled⟩

/-- A prepare that is taken is recorded. -/
theorem receive_prepare (ready : Ready coefficients state)
    (phase : msg.phase = .prepare) (takes : TakesVote .prepare state msg) :
    ∃ wal, state.receive msg =
      { state.withLedger (state.ledger.recordPrepare state.quorumSize
          msg.proposalKey msg.senderId msg.signature) with wal := wal } := by
  rcases takes with ⟨running, verifies, view, proposed⟩
  have authenticated : state.Authenticated msg := by
    rw [PbftState.Authenticated, phase]
    exact verifies
  rcases onPrepare_records ready.dealt ready.verified verifies view proposed with
    ⟨response, recorded⟩
  have accepted : state.stage msg = state.onPrepare msg := by
    rw [PbftState.stage, phase]
  exact PbftState.receive_of_stage running authenticated (by simp [phase])
    (accepted.trans recorded)

theorem receive_otherPrepare (phase : msg.phase = .prepare)
    (refused : ¬ TakesVote .prepare state msg) : state.receive msg = state := by
  have notCheckpoint : msg.phase ≠ .checkpoint := by simp [phase]
  rcases state.receive_cases notCheckpoint with
    same | ⟨running, authenticated, response, staged, stages⟩
  · exact same
  · exfalso
    apply refused
    rw [PbftState.Authenticated, phase] at authenticated
    cases stages with
    | prepare _ _ view proposed => exact ⟨running, authenticated, view, proposed⟩
    | _ => simp_all

/-- A commit that is taken is recorded. -/
theorem receive_commit (ready : Ready coefficients state)
    (phase : msg.phase = .commit) (takes : TakesCommit state msg) :
    ∃ wal, state.receive msg =
      { state.withLedger (state.ledger.recordCommit state.quorumSize
          msg.proposalKey msg.senderId msg.signature) with wal := wal } := by
  rcases takes with ⟨⟨running, verifies, view, proposed⟩, held⟩
  have authenticated : state.Authenticated msg := by
    rw [PbftState.Authenticated, phase]
    exact verifies
  rcases Option.isSome_iff_exists.mp held with ⟨cert, prepared⟩
  have chain := ready.verified.chain
  have backed : state.ledger.prepared.get? (slotOf msg.proposalKey) = some cert :=
    prepared
  have sameDigest := chain.digest_of_prepared proposed backed
  -- A digest that is already committed at the slot is the prepared one.
  have agrees : ∀ existing,
      state.committedDigest.get? (msg.view, msg.seq) = some existing →
        existing = msg.digest := by
    intro existing stored
    have present : (state.commitCertificates.get? (msg.view, msg.seq)).isSome :=
      (chain.committed_keys _).mpr (Option.isSome_of_mem stored)
    rcases Option.isSome_iff_exists.mp present with ⟨commitCert, found⟩
    have committed :=
      (VoteLedger.digest_of_committed chain backed sameDigest found).2.1
    exact Option.some.inj (stored.symm.trans committed)
  rcases onCommit_records ready.dealt ready.verified verifies view proposed
      prepared agrees with ⟨response, recorded⟩
  have accepted : state.stage msg = state.onCommit msg := by
    rw [PbftState.stage, phase]
  exact PbftState.receive_of_stage running authenticated (by simp [phase])
    (accepted.trans recorded)

theorem receive_otherCommit (ready : Ready coefficients state)
    (phase : msg.phase = .commit) (refused : ¬ TakesCommit state msg) :
    state.receive msg = state := by
  have notCheckpoint : msg.phase ≠ .checkpoint := by simp [phase]
  rcases state.receive_cases notCheckpoint with
    same | ⟨running, authenticated, response, staged, stages⟩
  · exact same
  · exfalso
    apply refused
    rw [PbftState.Authenticated, phase] at authenticated
    cases stages with
    | commit _ cert _ view proposed held certView certSeq =>
        have stored := ready.verified.chain.get?_of_mem_values held
        rw [certView, certSeq] at stored
        exact ⟨⟨running, authenticated, view, proposed⟩,
          Option.isSome_of_mem stored⟩
    | _ => simp_all

end OneVote

/-! ## Both phases collect ballots -/

namespace PbftState

/-- The part of the state that prepares leave alone. -/
def withoutPrepares (state : PbftState) : PbftState :=
  { state with
    prepareVotes := ∅
    preparedCertificates := ∅
    wal := ⟨[]⟩ }

/-- The part of the state that commits leave alone. -/
def withoutCommits (state : PbftState) : PbftState :=
  { state with
    commitVotes := ∅
    commitCertificates := ∅
    committedDigest := ∅
    wal := ⟨[]⟩ }

end PbftState

def prepareCollector (coefficients : List Scalar) :
    Collector PbftState PbftMessage PbftState ProposalKey UInt32
      G1Projective where
  step := PbftState.receive
  ready := Ready coefficients
  ours msg := msg.phase = .prepare
  rest := PbftState.withoutPrepares
  table state := state.prepareVotes.contents
  accepts := TakesVote .prepare
  ballot := PbftMessage.ballot
  ready_step ready _ := ready.handleMessage _ .durable
  rest_step := by
    intro state msg ready phase
    by_cases takes : TakesVote .prepare state msg
    · rcases receive_prepare ready phase takes with ⟨wal, received⟩
      rw [received]
      rfl
    · rw [receive_otherPrepare phase takes]
  table_accepted := by
    intro state msg ready phase takes
    rcases receive_prepare ready phase takes with ⟨wal, received⟩
    rw [received]
    exact VoteMap.contents_insert_withVote state.prepareVotes msg
  table_refused := by
    intro state msg ready phase refused
    have same : state.receive msg = state := receive_otherPrepare phase refused
    rw [same]
  agrees ready _ _ takes takesOther :=
    TakesVote.agrees ready.dealt takes takesOther

def commitCollector (coefficients : List Scalar) :
    Collector PbftState PbftMessage PbftState ProposalKey UInt32
      G1Projective where
  step := PbftState.receive
  ready := Ready coefficients
  ours msg := msg.phase = .commit
  rest := PbftState.withoutCommits
  table state := state.commitVotes.contents
  accepts := TakesCommit
  ballot := PbftMessage.ballot
  ready_step ready _ := ready.handleMessage _ .durable
  rest_step := by
    intro state msg ready phase
    by_cases takes : TakesCommit state msg
    · rcases receive_commit ready phase takes with ⟨wal, received⟩
      rw [received]
      rfl
    · rw [receive_otherCommit ready phase takes]
  table_accepted := by
    intro state msg ready phase takes
    rcases receive_commit ready phase takes with ⟨wal, received⟩
    rw [received]
    exact VoteMap.contents_insert_withVote state.commitVotes msg
  table_refused := by
    intro state msg ready phase refused
    rw [receive_otherCommit ready phase refused]
  agrees ready _ _ takes takesOther :=
    TakesVote.agrees ready.dealt takes.1 takesOther.1

section SameProtocol

variable {coefficients : List Scalar} {first second : PbftState}

theorem protocol_eq_of_prepares (ready : Ready coefficients first)
    (readySecond : Ready coefficients second)
    (rest : first.withoutPrepares = second.withoutPrepares)
    (votes : first.prepareVotes.contents = second.prepareVotes.contents) :
    first.protocol = second.protocol := by
  have split : ∀ state : PbftState, state.protocol =
      { state.withoutPrepares.protocol with
        prepareVotes := state.prepareVotes.contents
        preparedCertificates := fun slot =>
          (state.preparedCertificates.get? slot).map
            PreparedCertificate.contents } :=
    fun _ => rfl
  have same : first.toTopology = second.toTopology :=
    congrArg (fun state => state.toTopology) rest
  have complete := ready.completeFor same
  have completeSecond := readySecond.completeFor same.symm
  have certificates : (fun slot => (first.preparedCertificates.get? slot).map
        PreparedCertificate.contents) =
      fun slot => (second.preparedCertificates.get? slot).map
        PreparedCertificate.contents := by
    funext slot
    exact map_eq_of_transfer
      (fun _ => preparedContents_of_votes ready.verified.chain completeSecond
        votes)
      (fun _ => preparedContents_of_votes readySecond.verified.chain complete
        votes.symm)
  rw [split first, split second, rest, votes, certificates]

theorem protocol_eq_of_commits (ready : Ready coefficients first)
    (readySecond : Ready coefficients second)
    (rest : first.withoutCommits = second.withoutCommits)
    (votes : first.commitVotes.contents = second.commitVotes.contents) :
    first.protocol = second.protocol := by
  have split : ∀ state : PbftState, state.protocol =
      { state.withoutCommits.protocol with
        commitVotes := state.commitVotes.contents
        commitCertificates := fun slot =>
          (state.commitCertificates.get? slot).map CommitCertificate.contents
        committedDigest := state.committedDigest.get? } :=
    fun _ => rfl
  have same : first.toTopology = second.toTopology :=
    congrArg (fun state => state.toTopology) rest
  have complete := ready.completeFor same
  have completeSecond := readySecond.completeFor same.symm
  have chain := ready.verified.chain
  have chainSecond := readySecond.verified.chain
  have certificates : (fun slot => (first.commitCertificates.get? slot).map
        CommitCertificate.contents) =
      fun slot => (second.commitCertificates.get? slot).map
        CommitCertificate.contents := by
    funext slot
    exact map_eq_of_transfer
      (fun _ stored =>
        (commitContents_of_votes chain completeSecond votes stored).1)
      (fun _ stored =>
        (commitContents_of_votes chainSecond complete votes.symm stored).1)
  have digests : first.committedDigest.get? = second.committedDigest.get? := by
    funext slot
    apply Option.ext
    intro digest
    exact ⟨committed_of_votes chain completeSecond votes,
      committed_of_votes chainSecond complete votes.symm⟩
  rw [split first, split second, rest, votes, certificates, digests]

end SameProtocol

/-- Handle a list of messages, with every file operation succeeding. -/
def PbftState.receiveAll (state : PbftState) (msgs : List PbftMessage) :
    PbftState :=
  msgs.foldl PbftState.receive state

/-- In every state that calls reach from a recovered one, with keys from one
polynomial, votes of one phase can be handled in any order, and a second copy of one
of them changes nothing. -/
theorem votes_anyOrder {totalNodes : Nat}
    {initialPublicKeys : AssocMap UInt32 G2Projective}
    {masterPublicKey : G2Projective} {wal : WriteAheadLog} {initial : PbftState}
    (started : newWithWalPath totalNodes initialPublicKeys masterPublicKey wal =
      .ok initial)
    {coefficients : List Scalar}
    (dealt : DealtKeys initial.toTopology coefficients)
    (calls : List (PbftMessage × WalIo)) {phase : Phase}
    (vote : phase = .prepare ∨ phase = .commit) :
    (∀ msgs permuted : List PbftMessage, (∀ msg ∈ msgs, msg.phase = phase) →
      msgs.Perm permuted →
        ((initial.handleAll calls).receiveAll permuted).protocol =
          ((initial.handleAll calls).receiveAll msgs).protocol) ∧
    (∀ (first second third : List PbftMessage) (msg : PbftMessage),
      (∀ voted ∈ first ++ msg :: (second ++ third), voted.phase = phase) →
        ((initial.handleAll calls).receiveAll
            (first ++ msg :: (second ++ msg :: third))).protocol =
          ((initial.handleAll calls).receiveAll
            (first ++ msg :: (second ++ third))).protocol) := by
  rcases newWithWalPath_eq_ok.mp started with ⟨topology, _, recovers⟩
  have ready := (ready_of_recover recovers dealt).handleAll calls
  rcases vote with rfl | rfl
  · let collector := prepareCollector coefficients
    refine ⟨?_, ?_⟩
    · intro msgs permuted prepares perm
      exact collector.observe_perm protocol_eq_of_prepares ready prepares perm
    · intro first second third msg prepares
      exact collector.observe_copy protocol_eq_of_prepares ready prepares
  · let collector := commitCollector coefficients
    refine ⟨?_, ?_⟩
    · intro msgs permuted commits perm
      exact collector.observe_perm protocol_eq_of_commits ready commits perm
    · intro first second third msg commits
      exact collector.observe_copy protocol_eq_of_commits ready commits

end VoteOrder

section SmallRun

open SmallCluster

attribute [local instance] smallCurve

/-- The leader's proposal of a first slot. -/
def oneProposal : List (PbftMessage × WalIo) :=
  [(signed .prePrepare 0 1 (digestOf 7) 0, .durable)]

/-- Prepares of all four nodes for one proposal, and one for another digest. -/
def mixedPrepares : List PbftMessage :=
  signed .prepare 0 1 (digestOf 8) 1 ::
    [0, 1, 2, 3].map (signed .prepare 0 1 (digestOf 7))

/-- The theorem at prepares that complete a quorum and one that has no proposal. -/
theorem votes_anyOrder_mixedPrepares :
    ((topology.fresh.handleAll oneProposal).receiveAll
        mixedPrepares).preparedCertificates.len = 1 ∧
      ((topology.fresh.handleAll oneProposal).receiveAll
          mixedPrepares.reverse).protocol =
        ((topology.fresh.handleAll oneProposal).receiveAll
          mixedPrepares).protocol := by
  have prepares : ∀ msg ∈ mixedPrepares, msg.phase = .prepare := by
    decide +kernel
  have anyOrder := votes_anyOrder topology.fresh_started dealtKeys_topology
    oneProposal (Or.inl rfl)
  refine ⟨by decide +kernel, ?_⟩
  exact anyOrder.1 mixedPrepares mixedPrepares.reverse prepares
    (List.reverse_perm mixedPrepares).symm

end SmallRun

end SovereignLattice
