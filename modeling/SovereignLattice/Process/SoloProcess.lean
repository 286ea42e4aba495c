import SovereignLattice.Crypto.SmallCurve
import SovereignLattice.Process.Machine

/-!
# A process without peers

The smallest configuration that the constructor accepts, over the small curve: one node
that is its own quorum.  Its runs can be evaluated.
-/

namespace SovereignLattice
namespace SoloProcess

attribute [local instance] smallCurve smallEncodings

def localAddr : SocketAddr where
  ip := .v4 0x7f000001
  port := 8000

def config : ServerConfig where
  nodeId := 0
  totalNodes := 1
  threshold := 1
  peerMap := AssocMap.insert ∅ 0 localAddr

def secretPolynomial : List Scalar :=
  [7].map Nat.cast

/-- The step function on an empty log. -/
def step : Process → ProcessAction → Option Process :=
  processStep config ⟨[]⟩

def boot : Process :=
  config.boot secretPolynomial

/-- `main` finalises, takes both locks and drops them. -/
def goLive : List ProcessAction :=
  [.main, .main, .main, .main]

/-- A proposal of the node itself. -/
def proposal : PbftMessage :=
  signMessage .prePrepare 0 1 (Vector.replicate 32 7) 0 (Nat.cast 7)

/-- A connection from the node's own address that carries a frame. -/
def connect (index : Nat) (packetType : UInt8) (payload : Bytes) :
    List ProcessAction :=
  [.accept localAddr, .receive index (sendFramedMessage packetType payload)]

/-- A task goes on a number of times. -/
def advances (index count : Nat) : List ProcessAction :=
  List.replicate count (.advance index .durable)

end SoloProcess
end SovereignLattice
