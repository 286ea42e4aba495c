import SovereignLattice.Foundations.AmortisedCost
import SovereignLattice.Network.Emissions

/-!
# How far a packet echoes

Each packet is delivered once, to one node, or lost, and the vote that a node
answers with goes to all its peers.  A proposal is answered by prepares, a
prepare by commits, and a commit by nothing, so what is in flight dies out
whatever the nodes hold and whatever is sent to them.
-/

namespace SovereignLattice

section Cascade

variable [Curve]

/-- The nodes, with the packets on their way to them. -/
structure Mailboxes where
  nodes : UInt32 → Node
  inFlight : List (UInt32 × Packet)

inductive MailAction where
  | inject (id : UInt32) (packet : Packet)
  | deliver (index : Nat) (io : WalIo)
  | lose (index : Nat)

namespace Mailboxes

/-- The packets that the broadcaster of a node makes of its answer. -/
def outgoing (peers : List UInt32) (selfId : UInt32) (out : Option PbftMessage) :
    List (UInt32 × Packet) :=
  out.toList.flatMap fun msg =>
    (broadcastMessage peers selfId).map fun peerId => (peerId, .pbft msg)

def deliver (peers : List UInt32) (boxes : Mailboxes) (index : Nat) (io : WalIo)
    (letter : UInt32 × Packet) : Mailboxes :=
  let node := boxes.nodes letter.1
  let result := node.handleConnection letter.2 io
  { nodes := Function.update boxes.nodes letter.1 result.2
    inFlight := boxes.inFlight.eraseIdx index ++
      outgoing peers node.selfId (Node.sent result.1) }

def step (peers : List UInt32) (boxes : Mailboxes) : MailAction → Option Mailboxes
  | .inject id packet =>
      some { boxes with inFlight := (id, packet) :: boxes.inFlight }
  | .deliver index io =>
      boxes.inFlight[index]?.map fun letter => boxes.deliver peers index io letter
  | .lose index =>
      boxes.inFlight[index]?.map fun _ =>
        { boxes with inFlight := boxes.inFlight.eraseIdx index }

end Mailboxes

/-! ## The deliveries that a packet can lead to -/

/-- The deliveries that a message of the phase can lead to among some peers, its own
included. -/
def Phase.deliveries (peers : Nat) : Phase → Nat
  | .prePrepare => 1 + peers * (1 + peers)
  | .prepare => 1 + peers
  | .commit => 1
  | .viewChange => 1
  | .checkpoint => 1

def Packet.deliveries (peers : Nat) : Packet → Nat
  | .pbft msg => msg.phase.deliveries peers
  | .viewChange _ => 1

theorem Packet.deliveries_pos (peers : Nat) (packet : Packet) :
    1 ≤ packet.deliveries peers := by
  cases packet with
  | viewChange => exact Nat.le_refl 1
  | pbft msg =>
      rw [Packet.deliveries]
      cases msg.phase <;> simp [Phase.deliveries]

theorem Packet.deliveries_le (peers : Nat) (packet : Packet) :
    packet.deliveries peers ≤ 1 + peers + peers ^ 2 := by
  have square : peers * (1 + peers) = peers + peers ^ 2 := by
    rw [Nat.mul_add, Nat.mul_one, Nat.pow_two]
  cases packet with
  | viewChange => simp only [Packet.deliveries]; omega
  | pbft msg =>
      rw [Packet.deliveries]
      cases msg.phase <;> simp only [Phase.deliveries] <;> omega

/-- The deliveries that a list of letters can lead to. -/
def totalDeliveries (peers : Nat) (letters : List (UInt32 × Packet)) : Nat :=
  (letters.map fun letter => letter.2.deliveries peers).sum

section Totals

variable {peers : Nat}

theorem totalDeliveries_append (letters others : List (UInt32 × Packet)) :
    totalDeliveries peers (letters ++ others) =
      totalDeliveries peers letters + totalDeliveries peers others := by
  simp [totalDeliveries]

theorem totalDeliveries_eraseIdx {letters : List (UInt32 × Packet)} {index : Nat}
    {letter : UInt32 × Packet} (found : letters[index]? = some letter) :
    letter.2.deliveries peers + totalDeliveries peers (letters.eraseIdx index) =
      totalDeliveries peers letters := by
  rcases List.getElem?_eq_some_iff.mp found with ⟨inside, rfl⟩
  have sameLetters := List.getElem_cons_eraseIdx_perm inside
  have sums := (sameLetters.map fun letter => letter.2.deliveries peers).sum_nat
  simpa [totalDeliveries] using sums

theorem length_le_totalDeliveries (letters : List (UInt32 × Packet)) :
    letters.length ≤ totalDeliveries peers letters := by
  induction letters with
  | nil => exact Nat.le_refl 0
  | cons letter rest inductionHypothesis =>
      have first := letter.2.deliveries_pos peers
      simp only [totalDeliveries, List.map_cons, List.sum_cons,
        List.length_cons] at inductionHypothesis ⊢
      omega

theorem totalDeliveries_le (letters : List (UInt32 × Packet)) :
    totalDeliveries peers letters ≤ letters.length * (1 + peers + peers ^ 2) := by
  induction letters with
  | nil => exact Nat.zero_le _
  | cons letter rest inductionHypothesis =>
      have first := letter.2.deliveries_le peers
      simp only [totalDeliveries, List.map_cons, List.sum_cons,
        List.length_cons] at inductionHypothesis ⊢
      rw [Nat.add_mul, Nat.one_mul]
      omega

end Totals

namespace Mailboxes

/-- A broadcast reaches every peer once at most. -/
theorem totalDeliveries_outgoing (peers : List UInt32) (selfId : UInt32)
    (out : PbftMessage) :
    totalDeliveries peers.length (outgoing peers selfId (some out)) ≤
      peers.length * out.phase.deliveries peers.length := by
  have recipients : (broadcastMessage peers selfId).length ≤ peers.length :=
    List.length_filter_le _ _
  have total : totalDeliveries peers.length (outgoing peers selfId (some out)) =
      (broadcastMessage peers selfId).length * out.phase.deliveries peers.length := by
    simp [totalDeliveries, outgoing, Packet.deliveries, Function.comp_def]
  rw [total]
  exact Nat.mul_le_mul_right _ recipients

/-- What a node sends in answer leads to fewer deliveries than the packet may. -/
theorem totalDeliveries_answer {node after : Node} {packet : Packet} {io : WalIo}
    {out : Option PbftMessage} (handled : Node.Handled node packet io out after)
    (peers : List UInt32) (selfId : UInt32) :
    1 + totalDeliveries peers.length (outgoing peers selfId out) ≤
      packet.deliveries peers.length := by
  cases sent : out with
  | none => exact packet.deliveries_pos peers.length
  | some vote =>
      have broadcast := totalDeliveries_outgoing peers selfId vote
      cases handled with
      | ignored => cases sent
      | handled => cases sent
      | answered msg state sk response same =>
          subst same
          rw [Packet.deliveries]
          rcases PbftState.outgoingMsg_eq_some sent with
            ⟨_, ⟨proposal, prepare⟩ | ⟨prepare, commit, _⟩⟩
          · rw [prepare] at broadcast
            rw [proposal]
            simp only [Phase.deliveries] at broadcast ⊢
            omega
          · rw [commit] at broadcast
            rw [prepare]
            simp only [Phase.deliveries] at broadcast ⊢
            omega

end Mailboxes

namespace MailAction

def delivers : MailAction → Nat
  | .inject _ _ => 0
  | .deliver _ _ => 1
  | .lose _ => 0

def injects : MailAction → Nat
  | .inject _ _ => 1
  | .deliver _ _ => 0
  | .lose _ => 0

/-- What an injected packet may lead to. -/
def credit (peers : Nat) : MailAction → Nat
  | .inject _ packet => packet.deliveries peers
  | .deliver _ _ => 0
  | .lose _ => 0

theorem sum_credit_le (peers : Nat) (actions : List MailAction) :
    (actions.map (credit peers)).sum ≤
      (actions.map injects).sum * (1 + peers + peers ^ 2) := by
  induction actions with
  | nil => exact Nat.zero_le _
  | cons action rest inductionHypothesis =>
      have first : credit peers action ≤ injects action * (1 + peers + peers ^ 2) := by
        cases action with
        | inject id packet =>
            rw [credit, injects, Nat.one_mul]
            exact packet.deliveries_le peers
        | deliver => exact Nat.zero_le _
        | lose => exact Nat.zero_le _
      simp only [List.map_cons, List.sum_cons]
      rw [Nat.add_mul]
      exact Nat.add_le_add first inductionHypothesis

end MailAction

namespace Mailboxes

open MailAction

theorem step_pays (peers : List UInt32) (boxes : Mailboxes) (action : MailAction)
    (next : Mailboxes) (stepped : boxes.step peers action = some next) :
    delivers action + totalDeliveries peers.length next.inFlight ≤
      totalDeliveries peers.length boxes.inFlight + credit peers.length action := by
  cases action with
  | inject id packet =>
      rw [step, Option.some.injEq] at stepped
      subst stepped
      simp only [delivers, credit, totalDeliveries, List.map_cons, List.sum_cons]
      omega
  | deliver index io =>
      rw [step, Option.map_eq_some_iff] at stepped
      rcases stepped with ⟨letter, found, rfl⟩
      have removed :=
        @totalDeliveries_eraseIdx _ peers.length boxes.inFlight index letter found
      have answer := totalDeliveries_answer
        ((boxes.nodes letter.1).handleConnection_handled letter.2 io) peers
        (boxes.nodes letter.1).selfId
      rw [deliver, totalDeliveries_append, delivers, credit]
      omega
  | lose index =>
      rw [step, Option.map_eq_some_iff] at stepped
      rcases stepped with ⟨letter, found, rfl⟩
      have removed :=
        @totalDeliveries_eraseIdx _ peers.length boxes.inFlight index letter found
      simp only [delivers, credit]
      omega

end Mailboxes

open MailAction in
/-- Whatever the nodes hold, whatever is injected, in any order of deliveries and
losses and with any failures of the logs: every packet leads to `1 + n + n ^ 2`
deliveries at most among `n` peers, itself and what is still in flight included. -/
theorem amplification_bounded {peers : List UInt32} {boxes final : Mailboxes}
    {actions : List MailAction}
    (reached : run (Mailboxes.step peers) boxes actions = some final) :
    (actions.map delivers).sum + final.inFlight.length ≤
      (boxes.inFlight.length + (actions.map injects).sum) *
        (1 + peers.length + peers.length ^ 2) := by
  have paid := cost_le_of_potential (Mailboxes.step_pays peers) reached
  have remaining := @length_le_totalDeliveries _ peers.length final.inFlight
  have initially := @totalDeliveries_le _ peers.length boxes.inFlight
  have credits := sum_credit_le peers.length actions
  rw [Nat.add_mul]
  omega

end Cascade

section SmallRun

attribute [local instance] smallCurve

open SmallCluster

/-- Node 2 of a cluster is sent a proposal, and node 0 its prepare. -/
def oneProposalEchoes : List MailAction :=
  [.inject 2 (.pbft (signed .prePrepare 0 1 (digestOf 0xaa) 0)),
    .deliver 0 .durable, .lose 1, .deliver 0 .durable]

/-- The theorem at a proposal of which one prepare is lost. -/
theorem amplification_bounded_oneProposal :
    ∃ final : Mailboxes,
      run (Mailboxes.step [0, 1, 2, 3])
          { nodes := fun id =>
              { selfId := id, selfSk := some (share id), state := some topology.fresh }
            inFlight := [] }
          oneProposalEchoes = some final ∧
        (oneProposalEchoes.map MailAction.delivers).sum + final.inFlight.length ≤
          (0 + (oneProposalEchoes.map MailAction.injects).sum) * (1 + 4 + 4 ^ 2) := by
  have computed : (run (Mailboxes.step [0, 1, 2, 3])
      { nodes := fun id =>
          { selfId := id, selfSk := some (share id), state := some topology.fresh }
        inFlight := [] }
      oneProposalEchoes).isSome = true := by
    decide +kernel
  rcases Option.isSome_iff_exists.mp computed with ⟨final, reached⟩
  exact ⟨final, reached, amplification_bounded reached⟩

end SmallRun

end SovereignLattice
