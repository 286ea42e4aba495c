import SovereignLattice.Foundations.Quorums
import SovereignLattice.Foundations.Runs
import SovereignLattice.Replica.SmallCluster

/-!
# Node states and honest states

`pbft_state.rs` keeps what a node has prepared and committed, with a lock for each
sequence.  `GodelLobBFT.lean` argues about honest states: the same three tables
under three rules.  The calls of the first keep the rules of the second exactly
where they are used with discipline, and then commits agree across views.  A live
replica has no such locks: it is honest as long as its certificates agree.
-/

namespace SovereignLattice

/-! ## Honest states -/

section Honest

variable {View Seq Value : Type}

/-- The honest states of the specification, over any types. -/
structure HonestState (View Seq Value : Type) where
  prepared : View → Seq → Option Value
  committed : View → Seq → Option Value
  lockedDigests : Seq → Option Value
  commit_implies_prepare : ∀ view seq digest,
    committed view seq = some digest → prepared view seq = some digest
  lock_enforcement : ∀ view seq digest,
    prepared view seq = some digest → lockedDigests seq = some digest
  lock_consistency : ∀ view seq locked digest,
    lockedDigests seq = some locked → prepared view seq = some digest →
      locked = digest

/-- All that an honest state has committed at one sequence is locked there. -/
theorem HonestState.locked_of_committed (state : HonestState View Seq Value)
    {view : View} {seq : Seq} {digest : Value}
    (committed : state.committed view seq = some digest) :
    state.lockedDigests seq = some digest :=
  state.lock_enforcement view seq digest
    (state.commit_implies_prepare view seq digest committed)

end Honest

/-! ## Node states -/

structure NodeState where
  prepared : AssocMap (UInt64 × UInt64) Digest
  committed : AssocMap (UInt64 × UInt64) Digest
  lockedDigests : AssocMap UInt64 Digest

inductive NodeStateError where
  | safetyViolation
  deriving DecidableEq, Repr

def NodeStateError.text : NodeStateError → String
  | .safetyViolation => "SAFETY_VIOLATION"

inductive NodeCall where
  | markPrepared (view seq : UInt64) (digest : Digest)
  | markCommitted (view seq : UInt64) (digest : Digest)
  | inheritLock (seq : UInt64) (digest : Digest)

namespace NodeState

def new : NodeState where
  prepared := ∅
  committed := ∅
  lockedDigests := ∅

def markPrepared (state : NodeState) (view seq : UInt64) (digest : Digest) :
    Except NodeStateError Unit × NodeState :=
  if ∃ locked, state.lockedDigests.get? seq = some locked ∧ locked ≠ digest then
    (.error .safetyViolation, state)
  else
    (.ok (),
      { state with
        prepared := state.prepared.insert (view, seq) digest
        lockedDigests := state.lockedDigests.insert seq digest })

def markCommitted (state : NodeState) (view seq : UInt64) (digest : Digest) :
    NodeState :=
  { state with committed := state.committed.insert (view, seq) digest }

def inheritLock (state : NodeState) (seq : UInt64) (digest : Digest) : NodeState :=
  { state with lockedDigests := state.lockedDigests.insert seq digest }

/-- The state after a call. -/
def apply (state : NodeState) : NodeCall → NodeState
  | .markPrepared view seq digest => (state.markPrepared view seq digest).2
  | .markCommitted view seq digest => state.markCommitted view seq digest
  | .inheritLock seq digest => state.inheritLock seq digest

/-- No call is refused; a refused preparation leaves the state as it is. -/
def step (state : NodeState) (call : NodeCall) : Option NodeState :=
  some (state.apply call)

/-- The rules of an honest state that say something of their own. -/
structure Rules (state : NodeState) : Prop where
  commit_implies_prepare : ∀ view seq digest,
    state.committed.get? (view, seq) = some digest →
      state.prepared.get? (view, seq) = some digest
  lock_enforcement : ∀ view seq digest,
    state.prepared.get? (view, seq) = some digest →
      state.lockedDigests.get? seq = some digest

/-- The honest state that a node state represents. -/
def Rules.honest {state : NodeState} (rules : state.Rules) :
    HonestState UInt64 UInt64 Digest where
  prepared view seq := state.prepared.get? (view, seq)
  committed view seq := state.committed.get? (view, seq)
  lockedDigests seq := state.lockedDigests.get? seq
  commit_implies_prepare := rules.commit_implies_prepare
  lock_enforcement := rules.lock_enforcement
  lock_consistency view seq _ digest locked prepared :=
    Option.some.inj (locked.symm.trans
      (rules.lock_enforcement view seq digest prepared))

theorem rules_new : new.Rules where
  commit_implies_prepare view seq digest stored := by cases stored
  lock_enforcement view seq digest stored := by cases stored

/-! ## One call -/

/-- What the caller owes: to commit what is prepared, and to inherit no lock
against a preparation. -/
def Disciplined (state : NodeState) : NodeCall → Prop
  | .markPrepared _ _ _ => True
  | .markCommitted view seq digest =>
      state.prepared.get? (view, seq) = some digest
  | .inheritLock seq digest =>
      ∀ view prepared, state.prepared.get? (view, seq) = some prepared →
        prepared = digest

variable {state : NodeState}

/-- A preparation is refused for another lock and changes nothing, or it is stored
and locked. -/
theorem markPrepared_cases (state : NodeState) (view seq : UInt64)
    (digest : Digest) :
    (∃ locked, state.lockedDigests.get? seq = some locked ∧ locked ≠ digest ∧
      state.markPrepared view seq digest = (.error .safetyViolation, state)) ∨
    ((∀ locked, state.lockedDigests.get? seq = some locked → locked = digest) ∧
      state.markPrepared view seq digest = (.ok (),
        { state with
          prepared := state.prepared.insert (view, seq) digest
          lockedDigests := state.lockedDigests.insert seq digest })) := by
  by_cases refused : ∃ locked, state.lockedDigests.get? seq = some locked ∧
      locked ≠ digest
  · left
    obtain ⟨locked, held, different⟩ := refused
    refine ⟨locked, held, different, ?_⟩
    rw [markPrepared, if_pos ⟨locked, held, different⟩]
  · right
    refine ⟨?_, by rw [markPrepared, if_neg refused]⟩
    intro locked held
    by_contra different
    exact refused ⟨locked, held, different⟩

/-- The lock check makes every preparation safe. -/
theorem Rules.markPrepared (rules : state.Rules) (view seq : UInt64)
    (digest : Digest) : (state.markPrepared view seq digest).2.Rules := by
  rcases state.markPrepared_cases view seq digest with
    ⟨_, _, _, refused⟩ | ⟨locked, stored⟩
  · rw [refused]
    exact rules
  rw [stored]
  constructor
  · intro otherView otherSeq other committed
    have before := rules.commit_implies_prepare otherView otherSeq other committed
    rw [AssocMap.get?_insert]
    split
    · rename_i here
      rcases Prod.mk.inj here with ⟨rfl, rfl⟩
      rw [locked other (rules.lock_enforcement _ _ other before)]
    · exact before
  · intro otherView otherSeq other prepared
    rw [AssocMap.get?_insert] at prepared ⊢
    by_cases sameSeq : otherSeq = seq
    · subst sameSeq
      rw [if_pos rfl]
      split at prepared
      · exact prepared
      · rw [locked other (rules.lock_enforcement _ _ other prepared)]
    · rw [if_neg sameSeq]
      rw [if_neg fun here => sameSeq (Prod.mk.inj here).2] at prepared
      exact rules.lock_enforcement otherView otherSeq other prepared

theorem Rules.markCommitted_iff (rules : state.Rules) (view seq : UInt64)
    (digest : Digest) :
    (state.markCommitted view seq digest).Rules ↔
      state.prepared.get? (view, seq) = some digest := by
  constructor
  · intro kept
    exact kept.commit_implies_prepare view seq digest
      (AssocMap.get?_insert_self _ _ _)
  · intro prepared
    refine { rules with commit_implies_prepare := ?_ }
    intro otherView otherSeq other committed
    have stored : (state.committed.insert (view, seq) digest).get?
        (otherView, otherSeq) = some other := committed
    rw [AssocMap.get?_insert] at stored
    split at stored
    · rename_i here
      rcases Prod.mk.inj here with ⟨rfl, rfl⟩
      rw [← stored]
      exact prepared
    · exact rules.commit_implies_prepare otherView otherSeq other stored

theorem Rules.inheritLock_iff (rules : state.Rules) (seq : UInt64)
    (digest : Digest) :
    (state.inheritLock seq digest).Rules ↔
      ∀ view prepared, state.prepared.get? (view, seq) = some prepared →
        prepared = digest := by
  constructor
  · intro kept view prepared held
    have locked : (state.lockedDigests.insert seq digest).get? seq = some prepared :=
      kept.lock_enforcement view seq prepared held
    rw [AssocMap.get?_insert_self, Option.some.injEq] at locked
    exact locked.symm
  · intro agrees
    refine { rules with lock_enforcement := ?_ }
    intro view otherSeq other prepared
    have inherited : (state.lockedDigests.insert seq digest).get? otherSeq =
        if otherSeq = seq then some digest else state.lockedDigests.get? otherSeq :=
      AssocMap.get?_insert _ _ _ _
    refine inherited.trans ?_
    split
    · rename_i here
      subst here
      rw [agrees view other prepared]
    · exact rules.lock_enforcement view otherSeq other prepared

/-- A call keeps the rules exactly when it is disciplined. -/
theorem Rules.apply_iff (rules : state.Rules) (call : NodeCall) :
    (state.apply call).Rules ↔ state.Disciplined call := by
  cases call with
  | markPrepared view seq digest =>
      exact ⟨fun _ => trivial, fun _ => rules.markPrepared view seq digest⟩
  | markCommitted view seq digest => exact rules.markCommitted_iff view seq digest
  | inheritLock seq digest => exact rules.inheritLock_iff seq digest

theorem Rules.step_iff (rules : state.Rules) {call : NodeCall} {next : NodeState}
    (stepped : step state call = some next) :
    next.Rules ↔ state.Disciplined call := by
  rw [step, Option.some.injEq] at stepped
  rw [← stepped]
  exact rules.apply_iff call

/-! ## Runs of calls -/

/-- A node state stays honest through a run exactly when every call of it is
disciplined. -/
theorem rules_iff_disciplined (calls : List NodeCall) :
    Visits step Rules new calls ↔ Along step Disciplined new calls := by
  have keeps : ∀ state call next, Rules state → step state call = some next →
      (next.Rules ↔ state.Disciplined call) :=
    fun _ _ _ rules stepped => rules.step_iff stepped
  have total : ∀ state call, ∃ next, step state call = some next :=
    fun state call => ⟨state.apply call, rfl⟩
  exact visits_iff_along keeps total rules_new calls

theorem rules_of_disciplined {calls : List NodeCall} {final : NodeState}
    (disciplined : Along step Disciplined new calls)
    (reached : run step new calls = some final) : final.Rules := by
  have preserved : ∀ state call next, Rules state → Disciplined state call →
      step state call = some next → Rules next :=
    fun _ _ _ rules allowed stepped => (rules.step_iff stepped).mpr allowed
  exact invariant_of_along preserved rules_new disciplined reached

/-- Among `3 * f + 1` nodes of which at most `f` are faulty, the others disciplined,
two quorums of commits at one sequence commit the same digest, whatever their
views. -/
theorem nodeStates_agree {Node : Type} [DecidableEq Node]
    {members faulty first second : Finset Node} {f : Nat}
    {calls : Node → List NodeCall} {final : Node → NodeState}
    (reached : ∀ node ∈ members, node ∉ faulty →
      run step new (calls node) = some (final node))
    (disciplined : ∀ node ∈ members, node ∉ faulty →
      Along step Disciplined new (calls node))
    (size : members.card ≤ 3 * f + 1) (few : faulty.card ≤ f)
    (firstMembers : first ⊆ members) (secondMembers : second ⊆ members)
    (firstQuorum : 2 * f + 1 ≤ first.card)
    (secondQuorum : 2 * f + 1 ≤ second.card)
    {view view' seq : UInt64} {digest digest' : Digest}
    (committed : ∀ node ∈ first, node ∉ faulty →
      (final node).committed.get? (view, seq) = some digest)
    (committed' : ∀ node ∈ second, node ∉ faulty →
      (final node).committed.get? (view', seq) = some digest') :
    digest = digest' := by
  have consistent : ∀ node ∈ members, node ∉ faulty → ∀ value other,
      (final node).lockedDigests.get? seq = some value →
      (final node).lockedDigests.get? seq = some other → value = other :=
    fun node _ _ value other held again => Option.some.inj (held.symm.trans again)
  have locks : ∀ node ∈ members, node ∉ faulty → ∀ decidedView value,
      (final node).committed.get? (decidedView, seq) = some value →
        (final node).lockedDigests.get? seq = some value := by
    intro node member correct decidedView value decided
    have rules := rules_of_disciplined (disciplined node member correct)
      (reached node member correct)
    exact rules.honest.locked_of_committed decided
  exact related_of_quorums
    (fun node value => (final node).lockedDigests.get? seq = some value)
    size few consistent firstMembers secondMembers
    firstQuorum secondQuorum
    (fun node member correct =>
      locks node (firstMembers member) correct view digest
        (committed node member correct))
    (fun node member correct =>
      locks node (secondMembers member) correct view' digest'
        (committed' node member correct))

/-- A test of the discipline for a node that inherits no lock. -/
def checkDisciplined (state : NodeState) : NodeCall → Bool
  | .markPrepared _ _ _ => true
  | .markCommitted view seq digest =>
      decide (state.prepared.get? (view, seq) = some digest)
  | .inheritLock _ _ => false

theorem disciplined_of_check {call : NodeCall}
    (checked : state.checkDisciplined call = true) : state.Disciplined call := by
  cases call with
  | markPrepared view seq digest => trivial
  | markCommitted view seq digest =>
      have prepared : state.prepared.get? (view, seq) = some digest :=
        of_decide_eq_true checked
      exact prepared
  | inheritLock seq digest => cases checked

/-- The calls of a node that decides one digest in two views. -/
def decidesTwice (digest : Digest) : List NodeCall :=
  [.markPrepared 0 1 digest, .markCommitted 0 1 digest, .markPrepared 1 1 digest,
    .markCommitted 1 1 digest]

/-- The theorem at four nodes that decide in two views. -/
theorem nodeStates_agree_twoViews :
    ∃ (final : NodeState) (digest digest' : Digest),
      run step new (decidesTwice (Vector.replicate 32 7)) = some final ∧
        final.committed.get? (0, 1) = some digest ∧
        final.committed.get? (1, 1) = some digest' ∧ digest = digest' := by
  have disciplined : Along step Disciplined new
      (decidesTwice (Vector.replicate 32 7)) :=
    along_of_checkAlong (fun _ _ => disciplined_of_check) (by decide +kernel)
  have computed : (run step new (decidesTwice (Vector.replicate 32 7))).any
      (fun final => (final.committed.get? (0, 1)).isSome &&
        (final.committed.get? (1, 1)).isSome) = true := by
    decide +kernel
  rcases (Option.any_eq_true _ _).mp computed with ⟨final, reached, decided⟩
  rcases (Bool.and_eq_true _ _).mp decided with ⟨first, second⟩
  rcases Option.isSome_iff_exists.mp first with ⟨digest, committed⟩
  rcases Option.isSome_iff_exists.mp second with ⟨digest', committed'⟩
  refine ⟨final, digest, digest', reached, committed, committed', ?_⟩
  exact nodeStates_agree (fun (_ : Nat) _ _ => reached) (fun _ _ _ => disciplined)
    (by decide : ({0, 1, 2, 3} : Finset Nat).card ≤ 3 * 1 + 1)
    (by decide : ({3} : Finset Nat).card ≤ 1)
    (by decide : ({0, 1, 3} : Finset Nat) ⊆ {0, 1, 2, 3})
    (by decide : ({1, 2, 3} : Finset Nat) ⊆ {0, 1, 2, 3}) (by decide) (by decide)
    (fun _ _ _ => committed) (fun _ _ _ => committed')

end NodeState

/-! ## Live replicas -/

section Live

variable [Curve]

/-- The digest of a prepared certificate of the sequence. -/
def PbftState.preparedLock (state : PbftState) (seq : UInt64) : Option Digest :=
  (state.preparedCertificates.values.find? fun cert => cert.seq = seq).map
    PreparedCertificate.digest

/-- The honest state has the certificates and the decisions of the replica. -/
def PbftState.Represents (state : PbftState)
    (honest : HonestState UInt64 UInt64 Digest) : Prop :=
  (∀ view seq, honest.prepared view seq =
    (state.preparedCertificates.get? (view, seq)).map PreparedCertificate.digest) ∧
  ∀ view seq, honest.committed view seq = state.committedDigest.get? (view, seq)

/-- The certificates of one sequence have one digest, whatever their views. -/
def PbftState.AgreesAcrossViews (state : PbftState) : Prop :=
  ∀ view view' seq cert cert',
    state.preparedCertificates.get? (view, seq) = some cert →
    state.preparedCertificates.get? (view', seq) = some cert' →
      cert.digest = cert'.digest

namespace PbftState

variable {state : PbftState}

theorem agrees_of_represents {honest : HonestState UInt64 UInt64 Digest}
    (represents : state.Represents honest) : state.AgreesAcrossViews := by
  intro view view' seq cert cert' held held'
  have prepared : honest.prepared view seq = some cert.digest := by
    rw [represents.1, held, Option.map_some]
  have prepared' : honest.prepared view' seq = some cert'.digest := by
    rw [represents.1, held', Option.map_some]
  have locked := honest.lock_enforcement view seq cert.digest prepared
  have locked' := honest.lock_enforcement view' seq cert'.digest prepared'
  exact Option.some.inj (locked.symm.trans locked')

/-- A decision has its prepared certificate. -/
theorem prepared_of_committed (chain : state.Chained) {view seq : UInt64}
    {digest : Digest}
    (committed : state.committedDigest.get? (view, seq) = some digest) :
    ∃ cert, state.preparedCertificates.get? (view, seq) = some cert ∧
      cert.digest = digest := by
  have present : (state.ledger.committed.get? (view, seq)).isSome :=
    Option.isSome_iff_exists.mpr ⟨digest, committed⟩
  obtain ⟨cert, stored⟩ := Option.isSome_iff_exists.mp
    ((chain.committed_keys (view, seq)).mpr present)
  rcases chain.commit_chain view seq cert stored with
    ⟨_, _, sameDigest, _, _, _, prepared, held, preparedDigest⟩
  have same : cert.digest = digest :=
    Option.some.inj (sameDigest.symm.trans committed)
  exact ⟨prepared, held, preparedDigest.trans same⟩

/-- Where the certificates agree, each one is locked. -/
theorem preparedLock_of_prepared (chain : state.Chained)
    (agrees : state.AgreesAcrossViews) {view seq : UInt64} {cert : PreparedCertificate}
    (held : state.preparedCertificates.get? (view, seq) = some cert) :
    state.preparedLock seq = some cert.digest := by
  obtain ⟨_, certSeq, _⟩ := chain.prepared_chain view seq cert held
  have member : cert ∈ state.preparedCertificates.values :=
    AssocMap.mem_values_iff.mpr ⟨_, held⟩
  rw [preparedLock]
  cases found : state.preparedCertificates.values.find?
      fun other => other.seq = seq with
  | none =>
      have missing := List.find?_eq_none.mp found cert member
      exact absurd (decide_eq_true certSeq) missing
  | some other =>
      have chosen := List.find?_some found
      have otherSeq : other.seq = seq := of_decide_eq_true chosen
      rcases AssocMap.mem_values_iff.mp (List.mem_of_find?_eq_some found) with
        ⟨⟨otherView, storedSeq⟩, stored⟩
      obtain ⟨_, storedAt, _⟩ := chain.prepared_chain otherView storedSeq other stored
      rw [otherSeq] at storedAt
      subst storedAt
      rw [Option.map_some, agrees view otherView seq cert other held stored]

theorem exists_represented (chain : state.Chained)
    (agrees : state.AgreesAcrossViews) :
    ∃ honest : HonestState UInt64 UInt64 Digest, state.Represents honest := by
  have enforced : ∀ view seq digest,
      (state.preparedCertificates.get? (view, seq)).map PreparedCertificate.digest =
        some digest → state.preparedLock seq = some digest := by
    intro view seq digest prepared
    rcases Option.map_eq_some_iff.mp prepared with ⟨cert, held, rfl⟩
    exact preparedLock_of_prepared chain agrees held
  refine ⟨
    { prepared := fun view seq =>
        (state.preparedCertificates.get? (view, seq)).map PreparedCertificate.digest
      committed := fun view seq => state.committedDigest.get? (view, seq)
      lockedDigests := state.preparedLock
      commit_implies_prepare := ?_
      lock_enforcement := enforced
      lock_consistency := ?_ }, fun _ _ => rfl, fun _ _ => rfl⟩
  · intro view seq digest committed
    rcases prepared_of_committed chain committed with ⟨cert, held, rfl⟩
    rw [held, Option.map_some]
  · intro view seq locked digest lock prepared
    exact Option.some.inj (lock.symm.trans (enforced view seq digest prepared))

end PbftState

/-- In every state that calls reach from a recovered one, the replica is in an
honest state of the specification exactly when its prepared certificates agree
across views. -/
theorem live_honest_iff {totalNodes : Nat}
    {initialPublicKeys : AssocMap UInt32 G2Projective}
    {masterPublicKey : G2Projective} {wal : WriteAheadLog} {initial : PbftState}
    (started : newWithWalPath totalNodes initialPublicKeys masterPublicKey wal =
      .ok initial) (calls : List (PbftMessage × WalIo)) :
    (∃ honest, (initial.handleAll calls).Represents honest) ↔
      (initial.handleAll calls).AgreesAcrossViews := by
  rcases newWithWalPath_eq_ok.mp started with ⟨topology, _, recovers⟩
  have chain := PbftState.handleAll_chained (Topology.recover_chained recovers) calls
  constructor
  · rintro ⟨honest, represents⟩
    exact PbftState.agrees_of_represents represents
  · exact PbftState.exists_represented chain

end Live

section SmallRun

attribute [local instance] smallCurve

open SmallCluster

/-- A proposal and the prepares of a quorum. -/
def onePreparation : List (PbftMessage × WalIo) :=
  ([signed .prePrepare 0 1 (digestOf 0xaa) 0] ++
    [0, 1, 2].map (signed .prepare 0 1 (digestOf 0xaa))).map
      fun msg => (msg, WalIo.durable)

/-- The theorem at a replica with a prepared certificate. -/
theorem live_honest_iff_prepared :
    ((topology.fresh.handleAll onePreparation).preparedCertificates.get?
        (0, 1)).isSome = true ∧
      ((∃ honest, (topology.fresh.handleAll onePreparation).Represents honest) ↔
        (topology.fresh.handleAll onePreparation).AgreesAcrossViews) :=
  ⟨by decide +kernel, live_honest_iff topology.fresh_started onePreparation⟩

end SmallRun

end SovereignLattice
