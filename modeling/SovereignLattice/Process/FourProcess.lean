import SovereignLattice.Crypto.SmallCurve
import SovereignLattice.Process.Machine

/-!
# A process with three peers

Node 1 of four, over the small curve.  Its peers send their shares over connections of
their own before it goes live.  Its runs can be evaluated.
-/

namespace SovereignLattice
namespace FourProcess

attribute [local instance] smallCurve smallEncodings

def addrOf (id : UInt32) : SocketAddr where
  ip := .v4 (0x0a000000 + BitVec.ofNat 32 id.toNat)
  port := 8000

def config : ServerConfig where
  nodeId := 1
  totalNodes := 4
  threshold := 3
  peerMap := [0, 2, 3].foldl (fun peers id => peers.insert id (addrOf id)) ∅

/-- The secret polynomial of a node. -/
def polynomialOf (id : UInt32) : List Scalar :=
  [(7 + id.toNat : Nat), (id.toNat : Nat), 2]

/-- The message with the share of a peer. -/
def shareFrom (id : UInt32) : DkgShareMessage :=
  (DkgSession.new id 3 4 (polynomialOf id)).shareMessageFor 1

/-- The peer connects and sends its share, and `main` ingests it. -/
def ingests (index : Nat) (id : UInt32) : List ProcessAction :=
  [.accept (addrOf id),
    .receive index (sendFramedMessage packetTypeDkg (shareFrom id).toBytes),
    .advance index .durable, .main]

/-- The three shares, and `main` until it has installed its keys. -/
def goLive : List ProcessAction :=
  ingests 0 2 ++ ingests 1 0 ++ ingests 2 3 ++ List.replicate 4 .main

/-- The key share of the leader, which its peers have the public key of. -/
def leaderShare : Scalar :=
  ([0, 1, 2, 3].map fun id => powerSum (evaluationPoint 0) (polynomialOf id)).sum

/-- The leader's proposal for the first slot. -/
def proposal : PbftMessage :=
  signMessage .prePrepare 0 1 (Vector.replicate 32 7) 0 leaderShare

/-- After the process has gone live, the leader proposes and gets a vote. -/
def sharesThenProposal : List ProcessAction :=
  goLive ++ [.accept (addrOf 0),
    .receive 3 (sendFramedMessage packetTypePbft proposal.toBytes)] ++
    List.replicate 6 (.advance 3 .durable) ++ [.takeVote]

end FourProcess
end SovereignLattice
