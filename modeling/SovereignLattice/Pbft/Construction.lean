import SovereignLattice.Crypto.SmallCurve
import SovereignLattice.Foundations.CheckedArithmetic
import SovereignLattice.Foundations.Quorums
import SovereignLattice.Replica.Machine

/-!
# Construction for every size

What the constructor of a replica computes from `total_nodes`, a 64-bit number.
The ids are 32-bit numbers, and the cast of `total_nodes` to them is not
checked: beyond `2 ^ 32` nodes the membership no longer has the announced size.
-/

namespace SovereignLattice

/-- An operation of the constructor on `usize`, which panics on overflow. -/
def usizeResult (result : Option UInt64) : Except NewError UInt64 :=
  match result with
  | some value => .ok value
  | none => .error .arithmeticOverflow

def newSizes (totalNodes : UInt64) : Except NewError (UInt64 × UInt64) := do
  let others ← usizeResult (Checked.sub totalNodes 1)
  let f := others / 3
  let tripled ← usizeResult (Checked.mul 3 f)
  let expected ← usizeResult (Checked.add tripled 1)
  if totalNodes ≠ expected then
    .error .topologyViolation
  else
    let doubled ← usizeResult (Checked.mul 2 f)
    let quorumSize ← usizeResult (Checked.add doubled 1)
    .ok (f, quorumSize)

/-- Only zero makes the arithmetic leave its type, and what it computes are the
sizes of the exact arithmetic. -/
theorem newSizes_cases (totalNodes : UInt64) :
    (totalNodes.toNat = 0 ∧ newSizes totalNodes = .error .arithmeticOverflow) ∨
      (totalNodes.toNat ≠ 0 ∧
        totalNodes.toNat ≠ 3 * ((totalNodes.toNat - 1) / 3) + 1 ∧
        newSizes totalNodes = .error .topologyViolation) ∨
      (totalNodes.toNat ≠ 0 ∧
        totalNodes.toNat = 3 * ((totalNodes.toNat - 1) / 3) + 1 ∧
        ∃ f quorumSize, newSizes totalNodes = .ok (f, quorumSize) ∧
          f.toNat = (totalNodes.toNat - 1) / 3 ∧
          quorumSize.toNat = 2 * ((totalNodes.toNat - 1) / 3) + 1) := by
  have bound := totalNodes.toNat_lt
  by_cases zero : totalNodes.toNat = 0
  · refine Or.inl ⟨zero, ?_⟩
    have underflows : totalNodes.toNat < (1 : UInt64).toNat :=
      zero.trans_lt Nat.one_pos
    rw [newSizes, Checked.sub_eq_none underflows]
    rfl
  obtain ⟨others, subtracted, value⟩ :=
    @Checked.sub_eq_some totalNodes 1 _ 1 rfl rfl (Nat.pos_of_ne_zero zero)
  have third : (others / 3).toNat = (totalNodes.toNat - 1) / 3 := by
    rw [UInt64.toNat_div, value]
    rfl
  obtain ⟨tripled, multiplied, product⟩ :=
    @Checked.mul_eq_some 3 (others / 3) 3 _ rfl third (by omega)
  obtain ⟨expected, added, sum⟩ :=
    @Checked.add_eq_some tripled 1 _ 1 product rfl (by omega)
  by_cases shape : totalNodes = expected
  · obtain ⟨doubled, multiplied', product'⟩ :=
      @Checked.mul_eq_some 2 (others / 3) 2 _ rfl third (by omega)
    obtain ⟨quorumSize, added', sum'⟩ :=
      @Checked.add_eq_some doubled 1 _ 1 product' rfl (by omega)
    refine Or.inr (Or.inr ⟨zero, (congrArg UInt64.toNat shape).trans sum,
      others / 3, quorumSize, ?_, third, sum'⟩)
    rw [newSizes, subtracted]
    dsimp only [usizeResult, bind, Except.bind]
    rw [multiplied]
    dsimp only
    rw [added]
    dsimp only
    rw [if_neg (not_not.mpr shape), multiplied']
    dsimp only
    rw [added']
  · refine Or.inr (Or.inl ⟨zero, ?_, ?_⟩)
    · intro same
      exact shape (UInt64.toNat_inj.mp (same.trans sum.symm))
    · rw [newSizes, subtracted]
      dsimp only [usizeResult, bind, Except.bind]
      rw [multiplied]
      dsimp only
      rw [added]
      dsimp only
      rw [if_pos shape]

/-! ## The ids of the cast -/

theorem mem_nodeIds {totalNodes : Nat} {id : UInt32} :
    id ∈ nodeIds totalNodes ↔ id.toNat < totalNodes % 2 ^ 32 := by
  rw [nodeIds, List.mem_toFinset, List.mem_map]
  constructor
  · intro found
    rcases found with ⟨index, inRange, rfl⟩
    have below : index < totalNodes % 2 ^ 32 := List.mem_range.mp inRange
    have word : (UInt32.ofNat index).toNat = index :=
      UInt32.toNat_ofNat_of_lt' (below.trans (Nat.mod_lt _ (by decide)))
    rw [word]
    exact below
  · intro below
    exact ⟨id.toNat, List.mem_range.mpr below, UInt32.ofNat_toNat⟩

theorem card_nodeIds (totalNodes : Nat) :
    (nodeIds totalNodes).card = totalNodes % 2 ^ 32 := by
  have distinct : ((List.range (totalNodes % 2 ^ 32)).map UInt32.ofNat).Nodup := by
    rw [List.nodup_map_iff_inj_on List.nodup_range]
    intro first firstMember second secondMember same
    have small : ∀ index ∈ List.range (totalNodes % 2 ^ 32),
        (UInt32.ofNat index).toNat = index := by
      intro index member
      exact UInt32.toNat_ofNat_of_lt'
        ((List.mem_range.mp member).trans (Nat.mod_lt _ (by decide)))
    rw [← small first firstMember, ← small second secondMember, same]
  rw [nodeIds, List.toFinset_card_of_nodup distinct, List.length_map,
    List.length_range]

section Sizes

variable [Curve]

/-- What a replica of `totalNodes` nodes has to be. -/
structure SoundTopology (totalNodes : Nat) (state : PbftState) : Prop where
  total : state.totalNodes = totalNodes
  shape : totalNodes = 3 * state.f + 1
  ids : ∀ id : UInt32, id ∈ state.registeredNodes ↔ id.toNat < totalNodes
  size : state.registeredNodes.card = totalNodes
  keys : ∀ id ∈ state.registeredNodes, (state.publicKeys.get? id).isSome
  quorum : state.quorumSize = 2 * state.f + 1
  intersect : ∀ left ⊆ state.registeredNodes, ∀ right ⊆ state.registeredNodes,
    state.quorumSize ≤ left.card → state.quorumSize ≤ right.card →
      state.f + 1 ≤ (left ∩ right).card
  leader : ∀ view, state.getExpectedLeader view ∈ state.registeredNodes

/-- Construction on an empty log computes without overflow, and what it returns is
sound. -/
structure SoundConstruction (totalNodes : UInt64)
    (initialPublicKeys : AssocMap UInt32 G2Projective)
    (masterPublicKey : G2Projective) : Prop where
  arithmetic : newSizes totalNodes ≠ .error .arithmeticOverflow
  sound : ∀ state, newWithWalPath totalNodes.toNat initialPublicKeys
    masterPublicKey ⟨[]⟩ = .ok state → SoundTopology totalNodes.toNat state

/-- The sizes and keys for which the cast does no harm: the number of nodes fits
32 bits, or one of the checks refuses the arguments anyway. -/
def SizeSupported (totalNodes : Nat)
    (initialPublicKeys : AssocMap UInt32 G2Projective) : Prop :=
  totalNodes ≠ 0 ∧ (totalNodes < 2 ^ 32 ∨ totalNodes % 3 ≠ 1 ∨
    ¬ HasKeys initialPublicKeys (nodeIds totalNodes))

theorem Topology.new_sizes (totalNodes : UInt64)
    (initialPublicKeys : AssocMap UInt32 G2Projective)
    (masterPublicKey : G2Projective) :
    (∀ error, newSizes totalNodes = .error error →
      Topology.new totalNodes.toNat initialPublicKeys masterPublicKey =
        .error error) ∧
      ∀ topology, Topology.new totalNodes.toNat initialPublicKeys
          masterPublicKey = .ok topology →
        ∃ f quorumSize, newSizes totalNodes = .ok (f, quorumSize) ∧
          topology.f = f.toNat ∧ topology.quorumSize = quorumSize.toNat := by
  rcases newSizes_cases totalNodes with ⟨zero, sizes⟩ | ⟨positive, shape, sizes⟩ |
    ⟨positive, shape, f, quorumSize, sizes, fValue, quorumValue⟩
  · rw [sizes, new, if_pos zero]
    constructor
    · intro error same
      cases same
      rfl
    · intro topology built
      cases built
  · rw [sizes, new, if_neg positive, dif_pos shape]
    constructor
    · intro error same
      cases same
      rfl
    · intro topology built
      cases built
  · rw [sizes, new, if_neg positive, dif_neg (not_not.mpr shape)]
    constructor
    · intro error same
      cases same
    · intro topology built
      split at built
      · cases built
        exact ⟨f, quorumSize, rfl, fValue.symm, quorumValue.symm⟩
      · cases built

theorem Topology.new_ok {totalNodes : Nat}
    {initialPublicKeys : AssocMap UInt32 G2Projective}
    {masterPublicKey : G2Projective} {topology : Topology}
    (built : Topology.new totalNodes initialPublicKeys masterPublicKey =
      .ok topology) :
    topology.totalNodes = totalNodes ∧
      totalNodes = 3 * ((totalNodes - 1) / 3) + 1 ∧
      HasKeys initialPublicKeys (nodeIds totalNodes) := by
  rw [new] at built
  split at built
  · cases built
  split at built
  · cases built
  rename_i shape
  split at built
  · rename_i keys
    cases built
    exact ⟨rfl, not_not.mp shape, keys⟩
  · cases built

theorem soundTopology_of_lt {totalNodes : Nat} {state : PbftState}
    {initialPublicKeys : AssocMap UInt32 G2Projective}
    {masterPublicKey : G2Projective} (small : totalNodes < 2 ^ 32)
    (started : newWithWalPath totalNodes initialPublicKeys masterPublicKey
      ⟨[]⟩ = .ok state) : SoundTopology totalNodes state := by
  rcases newWithWalPath_eq_ok.mp started with ⟨topology, built, recovers⟩
  rw [topology.recover_empty, Except.ok.injEq] at recovers
  subst recovers
  have total := (Topology.new_ok built).1
  have reduced : totalNodes % 2 ^ 32 = totalNodes := Nat.mod_eq_of_lt small
  have ids : ∀ id : UInt32,
      id ∈ topology.registeredNodes ↔ id.toNat < totalNodes := by
    intro id
    rw [topology.registeredNodes_eq, total, mem_nodeIds, reduced]
  have size : topology.registeredNodes.card = totalNodes := by
    rw [topology.registeredNodes_eq, total, card_nodeIds, reduced]
  have shape : totalNodes = 3 * topology.f + 1 := by
    rw [← total]
    exact topology.totalNodes_eq
  exact
    { total := total
      shape := shape
      ids := ids
      size := size
      keys := topology.registered_hasKey
      quorum := topology.quorumSize_eq
      intersect := by
        intro left leftMembers right rightMembers leftQuorum rightQuorum
        have quorum : topology.quorumSize = 2 * topology.f + 1 :=
          topology.quorumSize_eq
        exact quorum_intersection topology.card_registeredNodes_le leftMembers
          rightMembers (quorum.symm.trans_le leftQuorum)
          (quorum.symm.trans_le rightQuorum)
      leader := by
        intro view
        have turn : view.toNat % topology.totalNodes < totalNodes := by
          rw [total]
          exact Nat.mod_lt _ (by omega)
        have word : (UInt32.ofNat (view.toNat % topology.totalNodes)).toNat =
            view.toNat % topology.totalNodes :=
          UInt32.toNat_ofNat_of_lt' (turn.trans small)
        exact (ids _).mpr (word.trans_lt turn) }

/-- Beyond it a replica is constructed with fewer nodes than announced. -/
theorem exists_unsound_of_le {totalNodes : Nat}
    {initialPublicKeys : AssocMap UInt32 G2Projective}
    (masterPublicKey : G2Projective) (large : 2 ^ 32 ≤ totalNodes)
    (shape : totalNodes % 3 = 1)
    (keys : HasKeys initialPublicKeys (nodeIds totalNodes)) :
    ∃ state, newWithWalPath totalNodes initialPublicKeys masterPublicKey ⟨[]⟩ =
        .ok state ∧ state.registeredNodes.card < totalNodes := by
  have positive : totalNodes ≠ 0 := by omega
  have counted : totalNodes = 3 * ((totalNodes - 1) / 3) + 1 := by omega
  have built : ∃ topology, Topology.new totalNodes initialPublicKeys
      masterPublicKey = .ok topology ∧
        topology.registeredNodes = nodeIds totalNodes := by
    rw [Topology.new, if_neg positive, dif_neg (not_not.mpr counted), dif_pos keys]
    exact ⟨_, rfl, rfl⟩
  rcases built with ⟨topology, built, registered⟩
  refine ⟨topology.fresh, ?_, ?_⟩
  · rw [newWithWalPath, built]
    exact topology.recover_empty
  · have members : topology.fresh.registeredNodes = nodeIds totalNodes :=
      registered
    rw [members, card_nodeIds]
    exact (Nat.mod_lt _ (by decide)).trans_le large

/-- Construction is sound exactly for the supported sizes. -/
theorem new_sound_iff (totalNodes : UInt64)
    (initialPublicKeys : AssocMap UInt32 G2Projective)
    (masterPublicKey : G2Projective) :
    SoundConstruction totalNodes initialPublicKeys masterPublicKey ↔
      SizeSupported totalNodes.toNat initialPublicKeys := by
  constructor
  · intro sound
    refine ⟨?_, ?_⟩
    · intro zero
      rcases newSizes_cases totalNodes with ⟨_, sizes⟩ | ⟨positive, _⟩ |
        ⟨positive, _⟩
      · exact sound.arithmetic sizes
      · exact positive zero
      · exact positive zero
    · by_contra refused
      rw [not_or, not_or, Nat.not_lt, not_not, not_not] at refused
      rcases refused with ⟨large, shape, keys⟩
      obtain ⟨state, started, fewer⟩ :=
        exists_unsound_of_le masterPublicKey large shape keys
      have size := (sound.sound state started).size
      omega
  · intro supported
    rcases supported with ⟨positive, small⟩
    constructor
    · intro overflows
      rcases newSizes_cases totalNodes with ⟨zero, _⟩ | ⟨_, _, sizes⟩ |
        ⟨_, _, f, quorumSize, sizes, _⟩
      · exact positive zero
      · rw [sizes] at overflows
        cases overflows
      · rw [sizes] at overflows
        cases overflows
    · intro state started
      rcases small with small | other | missing
      · exact soundTopology_of_lt small started
      · rcases newWithWalPath_eq_ok.mp started with ⟨topology, built, _⟩
        have shape := (Topology.new_ok built).2.1
        omega
      · rcases newWithWalPath_eq_ok.mp started with ⟨topology, built, _⟩
        exact absurd (Topology.new_ok built).2.2 missing

end Sizes

section SmallKeys

attribute [local instance] smallCurve

/-- Two sizes that the constructor does not handle: zero nodes make the
subtraction underflow, and `2 ^ 32` nodes are cast to none, so that a replica with
an empty membership starts without any key. -/
theorem new_unsound_sizes :
    ¬ SoundConstruction 0 ∅ (0 : ZMod 251) ∧
      ¬ SoundConstruction 4294967296 ∅ (0 : ZMod 251) := by
  constructor
  · intro sound
    exact sound.arithmetic rfl
  · intro sound
    have empty : nodeIds 4294967296 = ∅ := by decide
    have keys : HasKeys (∅ : AssocMap UInt32 G2Projective)
        (nodeIds 4294967296) := by
      rw [empty]
      exact fun _ member => absurd member (Finset.notMem_empty _)
    obtain ⟨state, started, fewer⟩ := exists_unsound_of_le (0 : ZMod 251)
      (show 2 ^ 32 ≤ 4294967296 by decide) (by decide) keys
    have size := (sound.sound state started).size
    exact absurd size (Nat.ne_of_lt fewer)

end SmallKeys

end SovereignLattice
