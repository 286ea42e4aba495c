import SovereignLattice.Dkg.MultiDealer
import SovereignLattice.Crypto.SmallCurve
import Mathlib.Data.Finset.Dedup

/-!
# Who disqualifies a dealer

A resolution counts the pending complaints against a dealer and never reads who
filed them, so one party that complains often enough has a dealer disqualified.  A
minority is powerless exactly in the runs in which every resolution that finds more
than `t` complaints against a dealer finds more than `t` parties behind them.
-/

namespace SovereignLattice

section Complaints

variable [Curve]

namespace MultiDealerDkg

open Feldman

/-- The complaints filed since the last resolution, after one more call. -/
def filedAfter (filed : List Complaint) : MultiDealerCall → List Complaint
  | .deal _ _ => filed
  | .fileComplaint complaint => filed ++ [complaint]
  | .resolveAndDisqualify => []

def filedSince (calls : List MultiDealerCall) : List Complaint :=
  calls.foldl filedAfter []

/-- The parties with a complaint against a dealer. -/
def accusers (complaints : List Complaint) (dealer : UInt32) : Finset UInt32 :=
  ((complaints.filter fun c => c.against = dealer).map Complaint.fromParty).toFinset

/-- A minority cannot disqualify a dealer. -/
structure MinorityPowerless (n t : UInt32) (calls : List MultiDealerCall) : Prop where
  /-- More than `t` parties have complained when a dealer becomes disqualified. -/
  accused : ∀ earlier call rest state next dealer,
    calls = earlier ++ call :: rest →
      run step (new n t) earlier = some state → step state call = some next →
        dealer ∉ state.disqualified → dealer ∈ next.disqualified →
          t.toNat < (accusers (filedSince earlier) dealer).card
  /-- Complaints of `t` parties against a dealer do not disqualify it. -/
  minority : ∀ (parties : Finset UInt32) dealer dkg,
    parties.card ≤ t.toNat →
      (∀ complaint, .fileComplaint complaint ∈ calls →
        complaint.against = dealer → complaint.fromParty ∈ parties) →
      run step (new n t) calls = some dkg → dealer ∉ dkg.disqualified

/-- No resolution finds more than `t` complaints against a dealer that come from `t`
parties or fewer.  A resolution whose counters overflow finds nothing. -/
def CountsParties (dkg : MultiDealerDkg) : MultiDealerCall → Prop
  | .deal _ _ => True
  | .fileComplaint _ => True
  | .resolveAndDisqualify =>
      (∀ dealer, countAgainst dkg.complaints dealer < 2 ^ 32) →
        ∀ dealer, dkg.t.toNat < countAgainst dkg.complaints dealer →
          dkg.t.toNat < (accusers dkg.complaints dealer).card

/-! ## Pending complaints -/

theorem filedSince_concat (calls : List MultiDealerCall) (call : MultiDealerCall) :
    filedSince (calls ++ [call]) = filedAfter (filedSince calls) call := by
  rw [filedSince, List.foldl_append]
  rfl

theorem fileComplaint_mem_of_mem_filedSince {calls : List MultiDealerCall}
    {complaint : Complaint} (filed : complaint ∈ filedSince calls) :
    .fileComplaint complaint ∈ calls := by
  induction calls using List.reverseRecOn with
  | nil => exact absurd filed List.not_mem_nil
  | append_singleton earlier call inductionHypothesis =>
      rw [filedSince_concat] at filed
      rw [List.mem_append, List.mem_singleton]
      cases call with
      | deal dealerId random => exact Or.inl (inductionHypothesis filed)
      | fileComplaint latest =>
          rcases List.mem_append.mp filed with before | last
          · exact Or.inl (inductionHypothesis before)
          · rw [List.mem_singleton.mp last]
            exact Or.inr rfl
      | resolveAndDisqualify => exact absurd filed List.not_mem_nil

theorem mem_accusers {complaints : List Complaint} {dealer party : UInt32} :
    party ∈ accusers complaints dealer ↔
      ∃ complaint ∈ complaints,
        complaint.against = dealer ∧ complaint.fromParty = party := by
  simp [accusers, and_assoc]

theorem exists_complaint_of_countAgainst {complaints : List Complaint}
    {dealer : UInt32} (counted : 0 < countAgainst complaints dealer) :
    ∃ complaint ∈ complaints, complaint.against = dealer := by
  rcases List.countP_pos_iff.mp counted with ⟨complaint, member, against⟩
  exact ⟨complaint, member, of_decide_eq_true against⟩

section Pending

variable {n t : UInt32} {calls : List MultiDealerCall} {dkg next : MultiDealerDkg}

/-- The pending complaints are those filed since the last resolution against dealers
that are not disqualified. -/
def PendingSince (calls : List MultiDealerCall) (dkg : MultiDealerDkg) : Prop :=
  dkg.complaints = (filedSince calls).filter fun c => c.against ∉ dkg.disqualified

theorem complaints_eq (reached : run step (new n t) calls = some dkg) :
    dkg.complaints =
      (filedSince calls).filter fun c => c.against ∉ dkg.disqualified := by
  have kept : ∀ earlier state call after, PendingSince earlier state →
      step state call = some after → PendingSince (earlier ++ [call]) after := by
    intro earlier state call after same stepped
    rw [PendingSince, filedSince_concat]
    rcases step_cases stepped with
      ⟨dealerId, random, rfl, rfl⟩ | ⟨complaint, rfl, rfl⟩ | ⟨rfl, cleared, _⟩
    · exact same
    · rw [filedAfter, List.filter_append, ← same]
    · exact cleared
  have initially : PendingSince [] (new n t) := rfl
  exact invariant_of_history kept initially reached

/-- For a dealer that is not disqualified the pending complaints name the same
parties as all that were filed. -/
theorem accusers_complaints (reached : run step (new n t) calls = some dkg)
    {dealer : UInt32} (allowed : dealer ∉ dkg.disqualified) :
    accusers dkg.complaints dealer = accusers (filedSince calls) dealer := by
  ext party
  rw [mem_accusers, mem_accusers, complaints_eq reached]
  simp only [List.mem_filter, decide_eq_true_eq]
  constructor
  · intro pending
    rcases pending with ⟨complaint, ⟨filed, _⟩, against, party⟩
    exact ⟨complaint, filed, against, party⟩
  · intro found
    rcases found with ⟨complaint, filed, against, party⟩
    exact ⟨complaint, ⟨filed, against ▸ allowed⟩, against, party⟩

/-- Only a resolution disqualifies, and only dealers with more than `t` pending
complaints. -/
theorem newly_disqualified {call : MultiDealerCall} {dealer : UInt32}
    (stepped : dkg.step call = some next) (before : dealer ∉ dkg.disqualified)
    (after : dealer ∈ next.disqualified) :
    call = .resolveAndDisqualify ∧
      dkg.t.toNat < countAgainst dkg.complaints dealer := by
  rcases step_cases stepped with
    ⟨dealerId, random, rfl, rfl⟩ | ⟨complaint, rfl, rfl⟩ | ⟨rfl, _, removes⟩
  · exact absurd after before
  · exact absurd after before
  · exact ⟨rfl, ((removes.disqualified dealer).mp after).resolve_left before⟩

/-- A dealer with pending complaints is not disqualified. -/
theorem notMem_disqualified (reached : run step (new n t) calls = some dkg)
    {dealer : UInt32} (accused : 0 < countAgainst dkg.complaints dealer) :
    dealer ∉ dkg.disqualified := by
  rcases exists_complaint_of_countAgainst accused with ⟨complaint, pending, rfl⟩
  rw [complaints_eq reached] at pending
  exact of_decide_eq_true (List.mem_filter.mp pending).2

end Pending

/-! ## Runs -/

section Runs

variable {n t : UInt32} {calls : List MultiDealerCall}

/-- The call does not disqualify the dealer. -/
def Spares (dealer : UInt32) (state : MultiDealerDkg) (call : MultiDealerCall) : Prop :=
  ∀ next, step state call = some next →
    dealer ∉ state.disqualified → dealer ∉ next.disqualified

theorem minorityPowerless_of_along
    (along : Along step CountsParties (new n t) calls) :
    MinorityPowerless n t calls := by
  have accused : ∀ earlier call rest state next dealer,
      calls = earlier ++ call :: rest →
        run step (new n t) earlier = some state → step state call = some next →
          dealer ∉ state.disqualified → dealer ∈ next.disqualified →
            t.toNat < (accusers (filedSince earlier) dealer).card := by
    intro earlier call rest state next dealer placed reached stepped before after
    have counts := along_iff.mp along earlier call rest state placed reached
    rcases newly_disqualified stepped before after with ⟨rfl, many⟩
    have parties := counts (countAgainst_lt stepped) dealer many
    rw [(run_n_t reached).2, accusers_complaints reached before] at parties
    exact parties
  refine ⟨accused, ?_⟩
  intro parties dealer dkg few own reached
  -- Whatever call would disqualify the dealer, its accusers are among the parties.
  have spared : Along step (Spares dealer) (new n t) calls := by
    rw [along_iff]
    intro earlier call rest state placed before next stepped allowed out
    have many := accused earlier call rest state next dealer placed before stepped
      allowed out
    have inside : accusers (filedSince earlier) dealer ⊆ parties := by
      intro party member
      rcases mem_accusers.mp member with ⟨complaint, filed, against, rfl⟩
      refine own complaint ?_ against
      rw [placed]
      exact List.mem_append_left _ (fileComplaint_mem_of_mem_filedSince filed)
    exact absurd (many.trans_le (Finset.card_le_card inside)) (Nat.not_lt.mpr few)
  have kept : ∀ (state : MultiDealerDkg) call next, dealer ∉ state.disqualified →
      Spares dealer state call → step state call = some next →
        dealer ∉ next.disqualified :=
    fun _ _ next here spare stepped => spare next stepped here
  have initially : dealer ∉ (new n t).disqualified := Finset.notMem_empty dealer
  exact invariant_of_along kept initially spared reached

/-- A minority is powerless in exactly those runs in which every resolution that
disqualifies a dealer finds more than `t` parties behind the complaints. -/
theorem minorityPowerless_iff (n t : UInt32) (calls : List MultiDealerCall) :
    MinorityPowerless n t calls ↔ Along step CountsParties (new n t) calls := by
  refine ⟨?_, minorityPowerless_of_along⟩
  intro powerless
  rw [along_iff]
  intro earlier call rest state placed reached
  cases call with
  | deal dealerId random => trivial
  | fileComplaint complaint => trivial
  | resolveAndDisqualify =>
      intro fits dealer many
      rcases exists_resolveAndDisqualify fits with ⟨next, resolved⟩
      have removes := (resolveAndDisqualify_eq_some resolved).2
      have before := notMem_disqualified reached (Nat.zero_lt_of_lt many)
      have after := (removes.disqualified dealer).mpr (Or.inr many)
      have parties := powerless.accused earlier _ rest state next dealer placed reached
        resolved before after
      rw [accusers_complaints reached before, (run_n_t reached).2]
      exact parties

/-- Without repeated complaints the complaints are as many as the parties. -/
theorem countAgainst_eq_card {complaints : List Complaint}
    (distinct : (complaints.map fun c => (c.against, c.fromParty)).Nodup)
    (dealer : UInt32) :
    countAgainst complaints dealer = (accusers complaints dealer).card := by
  let named := complaints.filter fun c => c.against = dealer
  have sublist : (named.map fun c => (c.against, c.fromParty)).Sublist
      (complaints.map fun c => (c.against, c.fromParty)) :=
    List.filter_sublist.map _
  have pairs : (named.map fun c => (c.against, c.fromParty)) =
      (named.map Complaint.fromParty).map (Prod.mk dealer) := by
    rw [List.map_map]
    apply List.map_congr_left
    intro complaint member
    have against := of_decide_eq_true (List.mem_filter.mp member).2
    rw [against]
    rfl
  have nodup : (named.map Complaint.fromParty).Nodup := by
    have paired := distinct.sublist sublist
    rw [pairs] at paired
    exact paired.of_map
  rw [accusers, List.toFinset_card_of_nodup nodup, List.length_map, countAgainst,
    List.countP_eq_length_filter]

/-- No party has two pending complaints against one dealer at a resolution. -/
def NoRepeats (dkg : MultiDealerDkg) : MultiDealerCall → Prop
  | .deal _ _ => True
  | .fileComplaint _ => True
  | .resolveAndDisqualify =>
      (dkg.complaints.map fun c => (c.against, c.fromParty)).Nodup

theorem minorityPowerless_of_noRepeats
    (along : Along step NoRepeats (new n t) calls) : MinorityPowerless n t calls := by
  apply minorityPowerless_of_along
  rw [along_iff]
  intro earlier call rest state placed reached
  have single := along_iff.mp along earlier call rest state placed reached
  cases call with
  | deal dealerId random => trivial
  | fileComplaint complaint => trivial
  | resolveAndDisqualify =>
      intro _ dealer many
      exact (countAgainst_eq_card single dealer) ▸ many

end Runs

end MultiDealerDkg

end Complaints

section SmallComplaints

attribute [local instance] smallCurve

namespace MultiDealerDkg

/-- One of four parties files three complaints against the dealer 2. -/
def onePartyInsists : List MultiDealerCall :=
  .deal 2 (fun k => ((11 + 3 * k : Nat) : Scalar)) ::
    List.replicate 3 (.fileComplaint ⟨1, 2, ⟨1, 0⟩⟩) ++ [.resolveAndDisqualify]

theorem one_party_disqualifies : ¬ MinorityPowerless 4 2 onePartyInsists := by
  intro powerless
  have evaluated : (run step (new 4 2) onePartyInsists).map
      (fun dkg => decide (2 ∈ dkg.disqualified)) = some true := by
    decide +kernel
  rcases Option.map_eq_some_iff.mp evaluated with ⟨dkg, reached, out⟩
  refine powerless.minority {1} 2 dkg (by decide) ?_ reached (of_decide_eq_true out)
  intro complaint member _
  simp only [onePartyInsists, List.cons_append, List.mem_cons, List.mem_append,
    List.mem_replicate, reduceCtorEq, MultiDealerCall.fileComplaint.injEq,
    List.not_mem_nil, or_false, false_or] at member
  rw [member.2]
  exact Finset.mem_singleton_self 1

end MultiDealerDkg

end SmallComplaints

end SovereignLattice
