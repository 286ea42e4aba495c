import SovereignLattice.Crypto.SmallCurve
import SovereignLattice.Dkg.Finalize
import SovereignLattice.Foundations.Runs

/-!
# A key generation among honest nodes

Shares and commitments of honest dealers are delivered in any order, also more
than once.  Once every node has heard of every other, all of them hold one
master key and shares of its secret on one polynomial, the sum of the secret
polynomials, so every threshold of them can sign.
-/

namespace SovereignLattice

section KeyGeneration

variable [Curve]

abbrev Sessions : Type :=
  UInt32 → DkgSession

/-- The sender's share for the receiver and the sender's commitments arrive. -/
def Sessions.deliver (sessions : Sessions) (parcel : UInt32 × UInt32) :
    Option Sessions :=
  let dealer := sessions parcel.1
  match (sessions parcel.2).processIncomingShare dealer.nodeId
      (dealer.evaluateShareFor parcel.2) dealer.generateCommitments with
  | (.ok (), next) => some (Function.update sessions parcel.2 next)
  | (.error _, _) => none

def startSessions (totalNodes threshold : Nat)
    (polynomials : UInt32 → List Scalar) : Sessions := fun id =>
  DkgSession.new id threshold totalNodes (polynomials id)

/-- The ids of `0..n as u32`, in order. -/
def participants (totalNodes : Nat) : List UInt32 :=
  (List.range (totalNodes % 2 ^ 32)).map UInt32.ofNat

/-- The polynomial whose value at zero is the shared secret. -/
def jointPolynomial (totalNodes threshold : Nat)
    (polynomials : UInt32 → List Scalar) : List Scalar :=
  pointwiseSum threshold ((participants totalNodes).map polynomials)

section Participants

variable {totalNodes : Nat}

omit [Curve] in
theorem mem_participants (word : totalNodes < 2 ^ 32) {id : UInt32} :
    id ∈ participants totalNodes ↔ id.toNat < totalNodes := by
  rw [participants]
  rw [List.mem_map, Nat.mod_eq_of_lt word]
  constructor
  · intro entry
    rcases entry with ⟨index, member, rfl⟩
    have below := List.mem_range.mp member
    rw [UInt32.toNat_ofNat_of_lt' (below.trans word)]
    exact below
  · intro below
    exact ⟨id.toNat, List.mem_range.mpr below, UInt32.ofNat_toNat⟩

omit [Curve] in
theorem nodup_participants (word : totalNodes < 2 ^ 32) :
    (participants totalNodes).Nodup := by
  rw [participants, Nat.mod_eq_of_lt word]
  apply List.Nodup.map_on ?_ List.nodup_range
  intro first firstMember second secondMember same
  have firstBelow := (List.mem_range.mp firstMember).trans word
  have secondBelow := (List.mem_range.mp secondMember).trans word
  have values := congrArg UInt32.toNat same
  rwa [UInt32.toNat_ofNat_of_lt' firstBelow,
    UInt32.toNat_ofNat_of_lt' secondBelow] at values

end Participants

/-! ## Deliveries -/

section Deliveries

variable {totalNodes threshold : Nat} {polynomials : UInt32 → List Scalar}

/-- Every session still has its own id, threshold and polynomial. -/
def Honest (threshold : Nat) (polynomials : UInt32 → List Scalar)
    (sessions : Sessions) : Prop :=
  ∀ id, (sessions id).nodeId = id ∧ (sessions id).threshold = threshold ∧
    (sessions id).secretPolynomial = polynomials id

/-- The receiver holds the sender's share for it and the sender's
commitments. -/
def Arrived (polynomials : UInt32 → List Scalar) (sessions : Sessions)
    (parcel : UInt32 × UInt32) : Prop :=
  (sessions parcel.2).receivedShares.get? parcel.1 =
      some (powerSum (evaluationPoint parcel.2) (polynomials parcel.1)) ∧
    (sessions parcel.2).receivedCommitments.get? parcel.1 =
      some ((polynomials parcel.1).map fun coeff => coeff • Curve.g2Generator)

theorem Honest.deliver {sessions : Sessions}
    (honest : Honest threshold polynomials sessions) {parcel : UInt32 × UInt32}
    (length : (polynomials parcel.1).length = threshold) :
    ∃ next, sessions.deliver parcel = some next ∧
      Honest threshold polynomials next ∧ Arrived polynomials next parcel ∧
      ∀ other, Arrived polynomials sessions other →
        Arrived polynomials next other := by
  obtain ⟨sender, receiver⟩ := parcel
  rcases honest sender with ⟨senderId, _, senderPolynomial⟩
  rcases honest receiver with ⟨receiverId, receiverThreshold, _⟩
  have lengths : (sessions sender).secretPolynomial.length =
      (sessions receiver).threshold := by
    rw [senderPolynomial, receiverThreshold]
    exact length
  have processed := DkgSession.processIncomingShare_honest lengths
  rw [senderId, receiverId] at processed
  rw [Sessions.deliver]
  dsimp only
  rw [senderId, processed]
  refine ⟨_, rfl, ?_, ?_, ?_⟩
  · intro id
    by_cases here : id = receiver
    · subst here
      rw [Function.update_self]
      exact ⟨rfl, (honest id).2⟩
    · rw [Function.update_of_ne here]
      exact honest id
  · rw [Arrived]
    dsimp only
    rw [Function.update_self]
    dsimp only
    rw [AssocMap.get?_insert_self, AssocMap.get?_insert_self,
      DkgSession.evaluateShareFor, DkgSession.generateCommitments,
      senderPolynomial]
    exact ⟨rfl, rfl⟩
  · rintro ⟨otherSender, otherReceiver⟩ arrived
    rw [Arrived] at arrived ⊢
    dsimp only at arrived ⊢
    by_cases here : otherReceiver = receiver
    · subst here
      rw [Function.update_self]
      dsimp only
      rw [AssocMap.get?_insert, AssocMap.get?_insert]
      split
      · rename_i same
        subst same
        rw [DkgSession.evaluateShareFor, DkgSession.generateCommitments,
          senderPolynomial]
        exact ⟨rfl, rfl⟩
      · exact arrived
    · rw [Function.update_of_ne here]
      exact arrived

theorem Honest.run {sessions : Sessions}
    (honest : Honest threshold polynomials sessions)
    (parcels : List (UInt32 × UInt32))
    (lengths : ∀ parcel ∈ parcels,
      (polynomials parcel.1).length = threshold) :
    ∃ final, SovereignLattice.run Sessions.deliver sessions parcels = some final ∧
      Honest threshold polynomials final ∧
      (∀ parcel ∈ parcels, Arrived polynomials final parcel) ∧
      ∀ other, Arrived polynomials sessions other →
        Arrived polynomials final other := by
  induction parcels generalizing sessions with
  | nil => exact ⟨sessions, rfl, honest, by simp, fun _ arrived => arrived⟩
  | cons parcel rest inductionHypothesis =>
      rcases honest.deliver (lengths parcel List.mem_cons_self) with
        ⟨next, delivered, honestNext, arrived, kept⟩
      obtain ⟨final, reached, honestFinal, arrivedRest, keptRest⟩ :=
        inductionHypothesis honestNext fun other member =>
          lengths other (List.mem_cons_of_mem parcel member)
      refine ⟨final, run_cons_eq_some.mpr ⟨next, delivered, reached⟩,
        honestFinal, ?_, fun other before => keptRest other (kept other before)⟩
      intro other member
      rcases List.mem_cons.mp member with rfl | later
      · exact keptRest other arrived
      · exact arrivedRest other later

end Deliveries

/-! ## The final sums -/

/-- The value that a node adds for a peer. -/
def shareOf (polynomials : UInt32 → List Scalar) (id peerId : UInt32) : Scalar :=
  powerSum (evaluationPoint id) (polynomials peerId)

/-- The commitment to a peer's constant term. -/
def keyOf (polynomials : UInt32 → List Scalar) (peerId : UInt32) : G2Projective :=
  powerSum (0 : Scalar) (polynomials peerId) • Curve.g2Generator

theorem Honest.holds {threshold : Nat} {polynomials : UInt32 → List Scalar}
    {sessions : Sessions} (honest : Honest threshold polynomials sessions)
    {id peerId : UInt32} (nonempty : polynomials peerId ≠ [])
    (arrived : peerId ≠ id → Arrived polynomials sessions (peerId, id)) :
    (peerId ≠ id → (sessions id).Holds peerId) ∧
      (sessions id).shareOf peerId = shareOf polynomials id peerId ∧
      powerSum (0 : Scalar) ((sessions id).commitmentsOf peerId) =
        keyOf polynomials peerId := by
  rcases honest id with ⟨self, _, polynomial⟩
  by_cases own : peerId = id
  · subst own
    have commitments := (sessions peerId).commitmentsOf_self
    rw [self] at commitments
    refine ⟨fun other => absurd rfl other, ?_, ?_⟩
    · rw [DkgSession.shareOf, if_pos self.symm, DkgSession.evaluateShareFor, self,
        polynomial]
      rfl
    · rw [commitments, DkgSession.generateCommitments, polynomial,
        powerSum_map_smul]
      rfl
  · rcases arrived own with ⟨share, commitments⟩
    have other : peerId ≠ (sessions id).nodeId := by rwa [self]
    refine ⟨fun _ => ⟨⟨_, share⟩, ?_⟩, ?_, ?_⟩
    · rw [commitments]
      cases dealt : polynomials peerId with
      | nil => exact absurd dealt nonempty
      | cons constant rest => exact ⟨_, _, rfl⟩
    · rw [DkgSession.shareOf, if_neg other]
      exact AssocMap.getD_of_get? 0 share
    · rw [DkgSession.commitmentsOf_peer other,
        AssocMap.getD_of_get? [] commitments, powerSum_map_smul]
      rfl

theorem length_of_mem_polynomials {totalNodes threshold : Nat}
    {polynomials : UInt32 → List Scalar} (word : totalNodes < 2 ^ 32)
    (lengths : ∀ id, id.toNat < totalNodes →
      (polynomials id).length = threshold) :
    ∀ items ∈ (participants totalNodes).map polynomials,
      items.length = threshold := by
  intro items member
  rcases List.mem_map.mp member with ⟨peerId, known, rfl⟩
  exact lengths peerId ((mem_participants word).mp known)

theorem finalizeDkg_honest {totalNodes threshold : Nat}
    {polynomials : UInt32 → List Scalar} {sessions : Sessions}
    (word : totalNodes < 2 ^ 32) (positive : 0 < threshold)
    (lengths : ∀ id, id.toNat < totalNodes →
      (polynomials id).length = threshold)
    (honest : Honest threshold polynomials sessions)
    {id : UInt32} (below : id.toNat < totalNodes)
    (arrived : ∀ peerId, peerId.toNat < totalNodes → peerId ≠ id →
      Arrived polynomials sessions (peerId, id)) :
    (sessions id).finalizeDkg (participants totalNodes) =
      .ok (powerSum (evaluationPoint id)
          (jointPolynomial totalNodes threshold polynomials),
        powerSum (0 : Scalar)
          (jointPolynomial totalNodes threshold polynomials) •
            Curve.g2Generator) := by
  have dealt : ∀ peerId ∈ participants totalNodes,
      (polynomials peerId).length = threshold := fun peerId member =>
    lengths peerId ((mem_participants word).mp member)
  have nonempty : ∀ peerId ∈ participants totalNodes,
      polynomials peerId ≠ [] := by
    intro peerId member empty
    have length := dealt peerId member
    rw [empty, List.length_nil] at length
    omega
  have lists := length_of_mem_polynomials word lengths
  have member : id ∈ participants totalNodes := (mem_participants word).mpr below
  have nodup := nodup_participants word
  rcases honest id with ⟨self, _, polynomial⟩
  have holds := fun peerId known => honest.holds (nonempty peerId known)
    (arrived peerId ((mem_participants word).mp known))
  have polynomialNonempty : (sessions id).secretPolynomial ≠ [] := by
    rw [polynomial]
    exact nonempty id member
  have shares : ((participants totalNodes).map (shareOf polynomials id)).sum =
      powerSum (evaluationPoint id)
        (jointPolynomial totalNodes threshold polynomials) := by
    rw [jointPolynomial, powerSum_pointwiseSum _ lists, List.map_map]
    rfl
  have keys : ((participants totalNodes).map (keyOf polynomials)).sum =
      powerSum (0 : Scalar) (jointPolynomial totalNodes threshold polynomials) •
        Curve.g2Generator := by
    rw [jointPolynomial, powerSum_pointwiseSum _ lists, List.map_map,
      List.sum_smul, List.map_map]
    rfl
  rw [← self] at member
  rw [DkgSession.finalizeDkg_eq_ok nodup member polynomialNonempty]
  constructor
  · intro peerId known other
    rw [self] at other
    exact (holds peerId known).1 other
  · rw [List.map_congr_left fun peerId known => (holds peerId known).2.1,
      List.map_congr_left fun peerId known => (holds peerId known).2.2, shares,
      keys]

theorem length_jointPolynomial {totalNodes threshold : Nat}
    {polynomials : UInt32 → List Scalar} (word : totalNodes < 2 ^ 32)
    (lengths : ∀ id, id.toNat < totalNodes →
      (polynomials id).length = threshold) :
    (jointPolynomial totalNodes threshold polynomials).length = threshold :=
  length_pointwiseSum (length_of_mem_polynomials word lengths)

/-- Honest key generation works: whatever the secret polynomials and the order of
delivery, every delivery is accepted, all nodes finish with one master key, and
any enough shares sign for it, at every threshold from the dealt one on. -/
theorem keyGeneration_works {totalNodes threshold : Nat}
    (positive : 1 ≤ threshold) (word : totalNodes < 2 ^ 32)
    (field : totalNodes < Curve.order) {polynomials : UInt32 → List Scalar}
    (lengths : ∀ id, id.toNat < totalNodes →
      (polynomials id).length = threshold)
    {parcels : List (UInt32 × UInt32)}
    (known : ∀ parcel ∈ parcels, parcel.1.toNat < totalNodes ∧
      parcel.2.toNat < totalNodes)
    (complete : ∀ sender receiver, sender.toNat < totalNodes →
      receiver.toNat < totalNodes → sender ≠ receiver →
        (sender, receiver) ∈ parcels) :
    ∃ (final : Sessions) (shares : UInt32 → Scalar) (masterPk : G2Projective),
      run Sessions.deliver (startSessions totalNodes threshold polynomials)
          parcels = some final ∧
        (∀ id, id.toNat < totalNodes →
          (final id).finalizeDkg (participants totalNodes) =
            .ok (shares id, masterPk)) ∧
        ∀ (msg : Bytes) (signatures : AssocMap UInt32 G1Projective)
          (required : Nat),
          (∀ id sig, signatures.get? id = some sig →
            id.toNat < totalNodes ∧ sig = signBlsMessage msg (shares id)) →
          threshold ≤ required → required ≤ signatures.len →
            verifyThresholdSignature msg signatures masterPk required =
              true := by
  have start : Honest threshold polynomials
      (startSessions totalNodes threshold polynomials) :=
    fun id => ⟨rfl, rfl, rfl⟩
  obtain ⟨final, reached, honest, arrived, _⟩ :=
    start.run parcels fun parcel member =>
      lengths parcel.1 (known parcel member).1
  refine ⟨final, fun id => powerSum (evaluationPoint id)
      (jointPolynomial totalNodes threshold polynomials),
    powerSum (0 : Scalar) (jointPolynomial totalNodes threshold polynomials) •
      Curve.g2Generator, reached, ?_, ?_⟩
  · intro id below
    exact finalizeDkg_honest word positive lengths honest below
      fun peerId peerBelow other =>
        arrived (peerId, id) (complete peerId id peerBelow below other)
  · intro msg signatures required signed enough size
    have degree : (jointPolynomial totalNodes threshold polynomials).length ≤
        required := by
      rw [length_jointPolynomial word lengths]
      exact enough
    apply verifyThresholdSignature_of_shares degree size
    intro id sig stored
    rcases signed id sig stored with ⟨below, same⟩
    exact ⟨⟨by omega, by omega⟩, same⟩

end KeyGeneration

section SmallRun

attribute [local instance] smallCurve

def smallPolynomials (id : UInt32) : List Scalar :=
  [id.toNat + 7, 3 * id.toNat + 1, 5].map Nat.cast

/-- Every node's parcel for every node, its own included. -/
def allParcels : List (UInt32 × UInt32) :=
  (participants 4).product (participants 4)

theorem keyGeneration_works_fourNodes :
    ∃ (final : Sessions) (share : Scalar) (masterPk : G2Projective),
      run Sessions.deliver (startSessions 4 3 smallPolynomials) allParcels =
          some final ∧
        (final 3).finalizeDkg (participants 4) = .ok (share, masterPk) := by
  have word : 4 < 2 ^ 32 := by decide
  have known : ∀ parcel ∈ allParcels,
      parcel.1.toNat < 4 ∧ parcel.2.toNat < 4 := by
    rintro ⟨sender, receiver⟩ member
    rcases List.mem_product.mp member with ⟨sent, received⟩
    exact ⟨(mem_participants word).mp sent, (mem_participants word).mp received⟩
  have complete : ∀ sender receiver : UInt32, sender.toNat < 4 →
      receiver.toNat < 4 → sender ≠ receiver →
        (sender, receiver) ∈ allParcels := by
    intro sender receiver sent received _
    exact List.mem_product.mpr
      ⟨(mem_participants word).mpr sent, (mem_participants word).mpr received⟩
  have lengths : ∀ id : UInt32, id.toNat < 4 →
      (smallPolynomials id).length = 3 := fun _ _ => rfl
  obtain ⟨final, shares, masterPk, reached, finished, _⟩ :=
    keyGeneration_works (by decide) word (by decide) lengths known complete
  exact ⟨final, shares 3, masterPk, reached, finished 3 (by decide)⟩

end SmallRun

end SovereignLattice
