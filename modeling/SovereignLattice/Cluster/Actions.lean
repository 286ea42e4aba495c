import SovereignLattice.Foundations.Runs
import SovereignLattice.Network.Connection
import SovereignLattice.Replica.Machine

/-!
# The cluster

Correct nodes run `handle_connection`; the others send what they like.  Packets
in flight are never removed, so they may be delayed, dropped, duplicated and
delivered in any order.  Signatures of correct nodes are unforgeable: every
statement that one of them has signed is recorded, and a message that verifies
under its key must be recorded.
-/

namespace SovereignLattice

variable [Curve]

/-- The fixed data of a cluster.  The policy says which view-change votes a
correct node may sign. -/
structure ClusterConfig where
  topology : Topology
  byzantine : Finset UInt32
  byzantine_few : byzantine.card ≤ topology.f
  secretKey : UInt32 → Scalar
  votePolicy : PbftState → UInt64 → UInt64 → Digest → Bool

structure Cluster where
  nodes : UInt32 → Node
  network : List Packet
  signed : List (UInt32 × Bytes)

namespace ClusterConfig

def Correct (config : ClusterConfig) (id : UInt32) : Prop :=
  id ∈ config.topology.registeredNodes ∧ id ∉ config.byzantine

instance (config : ClusterConfig) (id : UInt32) : Decidable (config.Correct id) :=
  inferInstanceAs (Decidable (_ ∧ _))

/-- Every node has been started on an empty log. -/
def start (config : ClusterConfig) : Cluster where
  nodes id :=
    { selfId := id
      selfSk := some (config.secretKey id)
      state := some config.topology.fresh }
  network := []
  signed := []

/-- The message claims to come from a correct node and verifies under its
key. -/
def attributed (config : ClusterConfig) (msg : PbftMessage) : Bool :=
  config.Correct msg.senderId &&
    (config.topology.publicKeys.get? msg.senderId).any fun pk =>
      verifyBlsSignature msg.canonicalBytes msg.signature pk

end ClusterConfig

/-- What can happen in a cluster. -/
inductive ClusterAction where
  | inject (packet : Packet)
  | propose (id : UInt32) (view seq : UInt64) (digest : Digest)
  | vote (id : UInt32) (view seq : UInt64) (digest : Digest)
  | deliver (id : UInt32) (packet : Packet) (io : WalIo)

namespace Cluster

/-- Put a message into the network and record its signature. -/
def publish (cluster : Cluster) (msg : PbftMessage) : Cluster :=
  { cluster with
    network := .pbft msg :: cluster.network
    signed := (msg.senderId, msg.canonicalBytes) :: cluster.signed }

/-- A correct node signs a message and sends it. -/
def signAs (config : ClusterConfig) (cluster : Cluster) (phase : Phase)
    (id : UInt32) (view seq : UInt64) (digest : Digest) : Cluster :=
  cluster.publish
    (signMessage phase view seq digest id (config.secretKey id))

/-- A packet that the unforgeability of signatures allows. -/
def admits (config : ClusterConfig) (cluster : Cluster) : Packet → Bool
  | .pbft msg =>
      !config.attributed msg ||
        decide ((msg.senderId, msg.canonicalBytes) ∈ cluster.signed)
  | .viewChange _ => true

/-- One node changes. -/
def move (cluster : Cluster) (id : UInt32) (node : Node) : Cluster :=
  { cluster with nodes := Function.update cluster.nodes id node }

@[simp]
theorem move_nodes_self (cluster : Cluster) (id : UInt32) (node : Node) :
    (cluster.move id node).nodes id = node :=
  Function.update_self _ _ _

theorem move_nodes_of_ne (cluster : Cluster) {id other : UInt32} (node : Node)
    (different : other ≠ id) :
    (cluster.move id node).nodes other = cluster.nodes other :=
  Function.update_of_ne different _ _

@[simp]
theorem move_self (cluster : Cluster) (id : UInt32) :
    cluster.move id (cluster.nodes id) = cluster := by
  rw [move]
  rw [Function.update_eq_self]

/-- A node handles a packet; its answer, if any, is sent. -/
def deliver (cluster : Cluster) (id : UInt32) (packet : Packet) (io : WalIo) :
    Cluster :=
  let result := (cluster.nodes id).handleConnection packet io
  let moved := cluster.move id result.2
  match Node.sent result.1 with
  | none => moved
  | some msg => moved.publish msg

theorem deliver_nodes (cluster : Cluster) (id : UInt32) (packet : Packet)
    (io : WalIo) :
    (cluster.deliver id packet io).nodes =
      (cluster.move id ((cluster.nodes id).handleConnection packet io).2).nodes := by
  unfold deliver
  dsimp only
  split <;> rfl

def step (config : ClusterConfig) (cluster : Cluster) :
    ClusterAction → Option Cluster
  | .inject packet =>
      if cluster.admits config packet then
        some { cluster with network := packet :: cluster.network }
      else
        none
  | .propose id view seq digest =>
      if config.Correct id then
        some (cluster.signAs config .prePrepare id view seq digest)
      else
        none
  | .vote id view seq digest =>
      if config.Correct id ∧ (cluster.nodes id).state.any fun state =>
          config.votePolicy state view seq digest then
        some (cluster.signAs config .viewChange id view seq digest)
      else
        none
  | .deliver id packet io =>
      if config.Correct id ∧ packet ∈ cluster.network then
        some (cluster.deliver id packet io)
      else
        none

/-- What one action does to the cluster. -/
inductive Stepped (config : ClusterConfig) (cluster : Cluster) :
    ClusterAction → Cluster → Prop
  | inject (packet : Packet)
      (admitted : cluster.admits config packet = true) :
      Stepped config cluster (.inject packet)
        { cluster with network := packet :: cluster.network }
  | propose (id : UInt32) (view seq : UInt64) (digest : Digest)
      (correct : config.Correct id) :
      Stepped config cluster (.propose id view seq digest)
        (cluster.signAs config .prePrepare id view seq digest)
  | vote (id : UInt32) (view seq : UInt64) (digest : Digest)
      (correct : config.Correct id) :
      Stepped config cluster (.vote id view seq digest)
        (cluster.signAs config .viewChange id view seq digest)
  | deliver (id : UInt32) (packet : Packet) (io : WalIo)
      (correct : config.Correct id) (inFlight : packet ∈ cluster.network) :
      Stepped config cluster (.deliver id packet io)
        (cluster.deliver id packet io)

theorem step_stepped {config : ClusterConfig} {cluster next : Cluster}
    {action : ClusterAction}
    (stepped : cluster.step config action = some next) :
    Stepped config cluster action next := by
  cases action with
  | inject packet =>
      rw [step, Option.ite_none_right_eq_some] at stepped
      obtain ⟨admitted, same⟩ := stepped
      cases same
      exact .inject packet admitted
  | propose id view seq digest =>
      rw [step, Option.ite_none_right_eq_some] at stepped
      obtain ⟨correct, same⟩ := stepped
      cases same
      exact .propose id view seq digest correct
  | vote id view seq digest =>
      rw [step, Option.ite_none_right_eq_some] at stepped
      obtain ⟨⟨correct, _⟩, same⟩ := stepped
      cases same
      exact .vote id view seq digest correct
  | deliver id packet io =>
      rw [step, Option.ite_none_right_eq_some] at stepped
      obtain ⟨⟨correct, inFlight⟩, same⟩ := stepped
      cases same
      exact .deliver id packet io correct inFlight

end Cluster

end SovereignLattice
