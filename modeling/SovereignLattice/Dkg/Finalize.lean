import SovereignLattice.Dkg.Session

/-!
# What a session holds and what it finalises

Every share that a session holds passed the check against the commitments that
came with it, whatever was sent.  The final sums run over the commitments that the
session knows, its own included.
-/

namespace SovereignLattice

variable [Curve]

omit [Curve] in
/-- Moving one element of a list to the front does not change a sum over it. -/
theorem sum_filter_ne {ids : List UInt32} (nodup : ids.Nodup) {id : UInt32}
    (member : id ∈ ids) {M : Type*} [AddCommMonoid M] (value : UInt32 → M) :
    value id + ((ids.filter (· != id)).map value).sum = (ids.map value).sum := by
  have moved : (id :: ids.filter (· != id)).Perm ids := by
    have erased := List.perm_cons_erase member
    rw [nodup.erase_eq_filter] at erased
    exact erased.symm
  have same := (moved.map value).sum_eq
  rwa [List.map_cons, List.sum_cons] at same

namespace DkgSession

variable {session : DkgSession}

/-! ## Incoming shares -/

/-- What the session holds has been checked. -/
structure Checked (session : DkgSession) : Prop where
  length : ∀ id commitments,
    session.receivedCommitments.get? id = some commitments →
      commitments.length = session.threshold
  share : ∀ id commitments,
    session.receivedCommitments.get? id = some commitments →
      ∃ share, session.receivedShares.get? id = some share ∧
        share • Curve.g2Generator =
          powerSum (evaluationPoint session.nodeId) commitments

/-- The checks of `process_incoming_share`. -/
def Accepts (session : DkgSession) (share : Scalar)
    (commitments : List G2Projective) : Prop :=
  commitments.length = session.threshold ∧
    share • Curve.g2Generator =
      powerSum (evaluationPoint session.nodeId) commitments

instance (session : DkgSession) (share : Scalar)
    (commitments : List G2Projective) :
    Decidable (session.Accepts share commitments) :=
  inferInstanceAs (Decidable (_ ∧ _))

/-- The session after a share has been stored. -/
def store (session : DkgSession) (fromNode : UInt32) (share : Scalar)
    (commitments : List G2Projective) : DkgSession :=
  { session with
    receivedShares := session.receivedShares.insert fromNode share
    receivedCommitments :=
      session.receivedCommitments.insert fromNode commitments }

theorem processIncomingShare_of_accepts (fromNode : UInt32) {share : Scalar}
    {commitments : List G2Projective}
    (accepts : session.Accepts share commitments) :
    session.processIncomingShare fromNode share commitments =
      (.ok (), session.store fromNode share commitments) := by
  rw [processIncomingShare]
  rw [if_neg (not_not.mpr accepts.1)]
  dsimp only
  rw [if_neg (not_not.mpr accepts.2)]
  rfl

theorem processIncomingShare_of_not_accepts (fromNode : UInt32) {share : Scalar}
    {commitments : List G2Projective}
    (refuses : ¬ session.Accepts share commitments) :
    ∃ error, session.processIncomingShare fromNode share commitments =
      (.error error, session) := by
  rw [processIncomingShare]
  by_cases length : commitments.length = session.threshold
  · have mismatch : share • Curve.g2Generator ≠
        powerSum (evaluationPoint session.nodeId) commitments :=
      fun same => refuses ⟨length, same⟩
    rw [if_neg (not_not.mpr length)]
    dsimp only
    rw [if_pos mismatch]
    exact ⟨_, rfl⟩
  · rw [if_pos length]
    exact ⟨_, rfl⟩

theorem Checked.new (nodeId : UInt32) (threshold totalNodes : Nat)
    (secretPolynomial : List Scalar) :
    (DkgSession.new nodeId threshold totalNodes secretPolynomial).Checked where
  length id commitments held := by simp [DkgSession.new] at held
  share id commitments held := by simp [DkgSession.new] at held

theorem Checked.store (checked : session.Checked) {fromNode : UInt32}
    {share : Scalar} {commitments : List G2Projective}
    (accepts : session.Accepts share commitments) :
    (session.store fromNode share commitments).Checked := by
  constructor
  · intro id held stored
    rw [DkgSession.store, AssocMap.get?_insert] at stored
    by_cases same : id = fromNode
    · rw [if_pos same, Option.some.injEq] at stored
      rw [← stored]
      exact accepts.1
    · rw [if_neg same] at stored
      exact checked.length id held stored
  · intro id held stored
    simp only [DkgSession.store, AssocMap.get?_insert] at stored ⊢
    by_cases same : id = fromNode
    · rw [if_pos same, Option.some.injEq] at stored
      rw [if_pos same, ← stored]
      exact ⟨share, rfl, accepts.2⟩
    · rw [if_neg same] at stored ⊢
      exact checked.share id held stored

/-- Feed shares to a session, whatever it answers. -/
def processAll (session : DkgSession)
    (calls : List (UInt32 × Scalar × List G2Projective)) : DkgSession :=
  calls.foldl
    (fun current call =>
      (current.processIncomingShare call.1 call.2.1 call.2.2).2)
    session

/-- The fields that no incoming share changes. -/
def SameDealer (first second : DkgSession) : Prop :=
  second.nodeId = first.nodeId ∧ second.threshold = first.threshold ∧
    second.secretPolynomial = first.secretPolynomial

theorem processAll_checked (checked : session.Checked)
    (calls : List (UInt32 × Scalar × List G2Projective)) :
    (session.processAll calls).Checked ∧
      session.SameDealer (session.processAll calls) := by
  induction calls generalizing session with
  | nil => exact ⟨checked, rfl, rfl, rfl⟩
  | cons call rest inductionHypothesis =>
      obtain ⟨fromNode, share, commitments⟩ := call
      rw [processAll, List.foldl_cons]
      by_cases accepts : session.Accepts share commitments
      · rw [processIncomingShare_of_accepts fromNode accepts]
        exact inductionHypothesis (checked.store accepts)
      · rcases processIncomingShare_of_not_accepts fromNode accepts with
          ⟨error, refused⟩
        rw [refused]
        exact inductionHypothesis checked

/-! ## The final sums -/

/-- The commitments that the session knows, its own included. -/
def allCommitments (session : DkgSession) :
    AssocMap UInt32 (List G2Projective) :=
  session.receivedCommitments.insert session.nodeId session.generateCommitments

/-- The commitments of a dealer, as far as the session knows them. -/
def commitmentsOf (session : DkgSession) (id : UInt32) : List G2Projective :=
  session.allCommitments.getD id []

/-- The share that a dealer has for this node, as far as the session knows it. -/
def shareOf (session : DkgSession) (id : UInt32) : Scalar :=
  if id = session.nodeId then
    session.evaluateShareFor session.nodeId
  else
    session.receivedShares.getD id 0

/-- The session holds what `finalize_dkg` needs of a peer. -/
def Holds (session : DkgSession) (peerId : UInt32) : Prop :=
  (∃ share, session.receivedShares.get? peerId = some share) ∧
    ∃ commit rest,
      session.receivedCommitments.get? peerId = some (commit :: rest)

theorem commitmentsOf_self :
    session.commitmentsOf session.nodeId = session.generateCommitments := by
  simp [commitmentsOf, allCommitments, AssocMap.getD]

theorem commitmentsOf_peer {id : UInt32} (other : id ≠ session.nodeId) :
    session.commitmentsOf id = session.receivedCommitments.getD id [] := by
  simp [commitmentsOf, allCommitments, AssocMap.getD, AssocMap.get?_insert, other]

/-- A peer that the session holds adds its share and its first commitment; no other
peer is accepted. -/
theorem addPeer_eq_ok {sums next : Scalar × G2Projective} {peerId : UInt32}
    (other : peerId ≠ session.nodeId) :
    session.addPeer sums peerId = .ok next ↔
      session.Holds peerId ∧
        next = (sums.1 + session.shareOf peerId,
          sums.2 + powerSum (0 : Scalar) (session.commitmentsOf peerId)) := by
  rw [commitmentsOf_peer other, shareOf, if_neg other]
  unfold addPeer Holds AssocMap.getD
  rw [if_neg other]
  cases session.receivedShares.get? peerId with
  | none => simp
  | some share =>
      cases session.receivedCommitments.get? peerId with
      | none => simp
      | some commitments =>
          cases commitments with
          | nil => simp
          | cons commit rest => simp [eq_comm]

/-- The loop of `finalize_dkg`. -/
theorem foldlM_addPeer_eq_ok (ids : List UInt32)
    {sums result : Scalar × G2Projective} :
    ids.foldlM session.addPeer sums = .ok result ↔
      (∀ id ∈ ids, id ≠ session.nodeId → session.Holds id) ∧
        result =
          (sums.1 +
              ((ids.filter (· != session.nodeId)).map session.shareOf).sum,
            sums.2 + ((ids.filter (· != session.nodeId)).map fun id =>
              powerSum (0 : Scalar) (session.commitmentsOf id)).sum) := by
  induction ids generalizing sums with
  | nil => simp [pure, Except.pure, eq_comm]
  | cons id rest inductionHypothesis =>
      rw [List.foldlM_cons]
      by_cases self : id = session.nodeId
      · have skipped : session.addPeer sums id = .ok sums := by
          simp [addPeer, self]
        rw [skipped]
        simp only [bind, Except.bind]
        rw [inductionHypothesis]
        simp [self]
      · cases added : session.addPeer sums id with
        | error error =>
            have missing : ¬ session.Holds id := by
              intro holds
              have accepted : session.addPeer sums id = .ok _ :=
                (addPeer_eq_ok self).mpr ⟨holds, rfl⟩
              rw [added] at accepted
              cases accepted
            simp [bind, Except.bind, self, missing]
        | ok next =>
            rcases (addPeer_eq_ok self).mp added with ⟨holds, rfl⟩
            simp only [bind, Except.bind]
            rw [inductionHypothesis]
            simp [self, holds, add_assoc]

/-- With the node among the participants, finalisation succeeds when every other one
has been heard, and sums over all of them. -/
theorem finalizeDkg_eq_ok {ids : List UInt32} (nodup : ids.Nodup)
    (member : session.nodeId ∈ ids) (nonempty : session.secretPolynomial ≠ [])
    {result : Scalar × G2Projective} :
    session.finalizeDkg ids = .ok result ↔
      (∀ id ∈ ids, id ≠ session.nodeId → session.Holds id) ∧
        result =
          ((ids.map session.shareOf).sum,
            (ids.map fun id =>
              powerSum (0 : Scalar) (session.commitmentsOf id)).sum) := by
  have shares := sum_filter_ne nodup member session.shareOf
  have keys := sum_filter_ne nodup member fun id =>
    powerSum (0 : Scalar) (session.commitmentsOf id)
  rw [commitmentsOf_self] at keys
  have own : session.shareOf session.nodeId =
      session.evaluateShareFor session.nodeId := if_pos rfl
  rw [own] at shares
  rw [finalizeDkg]
  cases generated : session.generateCommitments with
  | nil =>
      rw [generateCommitments, List.map_eq_nil_iff] at generated
      exact absurd generated nonempty
  | cons commit rest =>
      rw [generated, powerSum_zero_cons] at keys
      dsimp only
      rw [foldlM_addPeer_eq_ok, ← shares, ← keys]
      simp only [zero_add]

end DkgSession

end SovereignLattice
