import SovereignLattice.Crypto.Curve
import SovereignLattice.Foundations.AssocMap
import SovereignLattice.Foundations.Interpolation
import SovereignLattice.Foundations.Loops
import SovereignLattice.Foundations.Runs

/-!
# Several dealers (`Dkg/feldman.rs`)

Each dealer commits to a polynomial and hands out its values.  Complaints pile up
until they are resolved, and a dealer with more than `t` of them is disqualified:
its commitments and shares go.  The random coefficients are an argument of `deal`.
-/

namespace SovereignLattice

variable [Curve]

namespace Feldman

structure Share where
  index : UInt32
  value : Scalar

/-- `C_k = g^{a_k}`. -/
structure Commitment where
  dealer : UInt32
  commitments : List G2Projective

/-- The field `fromParty` is `from` in the source. -/
structure Complaint where
  fromParty : UInt32
  against : UInt32
  share : Share

end Feldman

structure MultiDealerDkg where
  n : UInt32
  t : UInt32
  commitments : AssocMap UInt32 Feldman.Commitment
  /-- The share of a recipient by dealer and recipient. -/
  shares : AssocMap (UInt32 × UInt32) Scalar
  disqualified : Finset UInt32
  complaints : List Feldman.Complaint

namespace MultiDealerDkg

open Feldman

def new (n t : UInt32) : MultiDealerDkg where
  n := n
  t := t
  commitments := ∅
  shares := ∅
  disqualified := ∅
  complaints := []

omit [Curve] in
/-- The recipients `1..=n`. -/
def recipients (n : UInt32) : List UInt32 :=
  (List.range n.toNat).map fun i => UInt32.ofNat (i + 1)

/-- The first `t` numbers that `Scalar::random` returns. -/
def coefficients (t : UInt32) (random : Nat → Scalar) : List Scalar :=
  (List.range t.toNat).map random

/-- `Scalar::from(i as u64)`. -/
def point (i : UInt32) : Scalar :=
  (i.toNat : Scalar)

def deal (dkg : MultiDealerDkg) (dealerId : UInt32) (random : Nat → Scalar) :
    List Share × MultiDealerDkg :=
  let coeffs := coefficients dkg.t random
  let commitments := coeffs.map fun a => a • Curve.g2Generator
  let shares := (recipients dkg.n).map fun i =>
    { index := i, value := powerSum (point i) coeffs }
  (shares,
    { dkg with
      commitments :=
        dkg.commitments.insert dealerId { dealer := dealerId, commitments }
      shares := shares.foldl
        (fun stored share => stored.insert (dealerId, share.index) share.value)
        dkg.shares })

def verifyShare (dkg : MultiDealerDkg) (dealer : UInt32) (share : Share) : Bool :=
  match dkg.commitments.get? dealer with
  | none => false
  | some cmt =>
      share.value • Curve.g2Generator = powerSum (point share.index) cmt.commitments

def fileComplaint (dkg : MultiDealerDkg) (complaint : Complaint) : MultiDealerDkg :=
  if complaint.against ∉ dkg.disqualified then
    { dkg with complaints := dkg.complaints ++ [complaint] }
  else
    dkg

omit [Curve] in
/-- `*counts.entry(dealer).or_insert(0) += 1`, with nothing as the result where the
counter overflows. -/
def increment (counts : AssocMap UInt32 UInt32) (dealer : UInt32) :
    Option (AssocMap UInt32 UInt32) :=
  let cnt := counts.getD dealer 0
  if cnt.toNat + 1 < 2 ^ 32 then
    some (counts.insert dealer (cnt + 1))
  else
    none

/-- The first loop of `resolve_and_disqualify`. -/
def tally (complaints : List Complaint) : Option (AssocMap UInt32 UInt32) :=
  complaints.foldlM (fun counts c => increment counts c.against) ∅

/-- The second loop, for one dealer and its count. -/
def strike (dkg : MultiDealerDkg) (dealer cnt : UInt32) : MultiDealerDkg :=
  if dkg.t < cnt then
    { dkg with
      disqualified := insert dealer dkg.disqualified
      commitments := dkg.commitments.erase dealer
      shares := dkg.shares.retain fun key => key.1 ≠ dealer }
  else
    dkg

def resolveAndDisqualify (dkg : MultiDealerDkg) : Option MultiDealerDkg := do
  let counts ← tally dkg.complaints
  let resolved := counts.entries.foldl (fun dkg entry => dkg.strike entry.1 entry.2) dkg
  some { resolved with complaints := [] }

def finalShare (dkg : MultiDealerDkg) (recipient : UInt32) : Option Scalar :=
  let (sum, found) := dkg.shares.entries.foldl
    (fun (state : Scalar × Bool) entry =>
      if entry.1.2 = recipient ∧ entry.1.1 ∉ dkg.disqualified then
        (state.1 + entry.2, true)
      else
        state)
    (0, false)
  if found then some sum else none

end MultiDealerDkg

/-- The calls that change the state. -/
inductive MultiDealerCall where
  | deal (dealerId : UInt32) (random : Nat → Scalar)
  | fileComplaint (complaint : Feldman.Complaint)
  | resolveAndDisqualify

namespace MultiDealerDkg

open Feldman

def step (dkg : MultiDealerDkg) : MultiDealerCall → Option MultiDealerDkg
  | .deal dealerId random => some (dkg.deal dealerId random).2
  | .fileComplaint complaint => some (dkg.fileComplaint complaint)
  | .resolveAndDisqualify => dkg.resolveAndDisqualify

/-! ## Dealing -/

omit [Curve] in
theorem mem_recipients {n r : UInt32} : r ∈ recipients n ↔ 1 ≤ r ∧ r ≤ n := by
  have bound := n.toNat_lt
  have size : UInt32.size = 2 ^ 32 := rfl
  have one : (1 : UInt32).toNat = 1 := rfl
  rw [recipients, List.mem_map, UInt32.le_iff_toNat_le, UInt32.le_iff_toNat_le, one]
  constructor
  · intro found
    rcases found with ⟨i, member, rfl⟩
    have below := List.mem_range.mp member
    rw [UInt32.toNat_ofNat_of_lt' (by omega)]
    omega
  · intro both
    refine ⟨r.toNat - 1, List.mem_range.mpr (by omega), ?_⟩
    rw [Nat.sub_add_cancel both.1]
    exact UInt32.ofNat_toNat

omit [Curve] in
theorem card_recipients (n : UInt32) : (recipients n).toFinset.card = n.toNat := by
  have bound := n.toNat_lt
  have size : UInt32.size = 2 ^ 32 := rfl
  have nodup : (recipients n).Nodup := by
    refine List.Nodup.map_on ?_ List.nodup_range
    intro i first j second same
    have iBelow := List.mem_range.mp first
    have jBelow := List.mem_range.mp second
    have equal := congrArg UInt32.toNat same
    rw [UInt32.toNat_ofNat_of_lt' (by omega), UInt32.toNat_ofNat_of_lt' (by omega)]
      at equal
    exact Nat.succ_injective equal
  rw [List.toFinset_card_of_nodup nodup, recipients, List.length_map,
    List.length_range]

/-- The points of the recipients differ. -/
theorem point_injOn {n : UInt32} (order : n.toNat < Curve.order) :
    Set.InjOn point {r | r ≤ n} := by
  intro first firstMember second secondMember same
  have firstSmall := (UInt32.le_iff_toNat_le.mp firstMember).trans_lt order
  have secondSmall := (UInt32.le_iff_toNat_le.mp secondMember).trans_lt order
  rw [point, point, ZMod.natCast_eq_natCast_iff', Nat.mod_eq_of_lt firstSmall,
    Nat.mod_eq_of_lt secondSmall] at same
  exact UInt32.toNat_inj.mp same

theorem length_coefficients (t : UInt32) (random : Nat → Scalar) :
    (coefficients t random).length = t.toNat := by
  rw [coefficients, List.length_map, List.length_range]

theorem get?_commitments_deal (dkg : MultiDealerDkg) (dealerId dealer : UInt32)
    (random : Nat → Scalar) :
    (dkg.deal dealerId random).2.commitments.get? dealer =
      if dealer = dealerId then
        some { dealer := dealerId, commitments :=
          (coefficients dkg.t random).map fun a => a • Curve.g2Generator }
      else
        dkg.commitments.get? dealer :=
  AssocMap.get?_insert _ _ _ _

theorem get?_shares_deal (dkg : MultiDealerDkg) (dealerId dealer r : UInt32)
    (random : Nat → Scalar) :
    (dkg.deal dealerId random).2.shares.get? (dealer, r) =
      if dealer = dealerId ∧ r ∈ recipients dkg.n then
        some (powerSum (point r) (coefficients dkg.t random))
      else
        dkg.shares.get? (dealer, r) := by
  have filled : (dkg.deal dealerId random).2.shares =
      (recipients dkg.n).foldl (fun stored r => stored.insert (dealerId, r)
        (powerSum (point r) (coefficients dkg.t random))) dkg.shares := by
    rw [deal, List.foldl_map]
  rw [filled]
  exact AssocMap.get?_foldl_insert_row dealerId _ _ _ _ _

/-- A share verifies against its dealer's last commitments exactly when it is the
value of the polynomial. -/
theorem verifyShare_deal (generator : Curve.g2Generator ≠ (0 : Curve.G2))
    (dkg : MultiDealerDkg) (dealerId : UInt32) (random : Nat → Scalar)
    (share : Share) :
    (dkg.deal dealerId random).2.verifyShare dealerId share = true ↔
      share.value = powerSum (point share.index) (coefficients dkg.t random) := by
  rw [verifyShare, get?_commitments_deal, if_pos rfl]
  simp only [decide_eq_true_eq]
  rw [powerSum_map_smul]
  exact (smul_left_injective Scalar generator).eq_iff

/-! ## Complaints -/

/-- A complaint changes the pending complaints and nothing else. -/
theorem fileComplaint_eq (dkg : MultiDealerDkg) (complaint : Complaint) :
    dkg.fileComplaint complaint =
      { dkg with
        complaints := dkg.complaints ++
          [complaint].filter fun c => c.against ∉ dkg.disqualified } := by
  rw [fileComplaint]
  by_cases out : complaint.against ∈ dkg.disqualified
  · rw [if_neg (not_not.mpr out)]
    simp [out]
  · rw [if_pos out]
    simp [out]

/-! ## Resolving -/

/-- The pending complaints against a dealer, each one counted. -/
def countAgainst (complaints : List Complaint) (dealer : UInt32) : Nat :=
  complaints.countP fun c => c.against = dealer

/-- Some dealers have been disqualified, and nothing else has changed. -/
structure Removes (before after : MultiDealerDkg) (out : UInt32 → Prop) : Prop where
  n : after.n = before.n
  t : after.t = before.t
  disqualified : ∀ dealer,
    dealer ∈ after.disqualified ↔ dealer ∈ before.disqualified ∨ out dealer
  commitments_out : ∀ dealer, out dealer → after.commitments.get? dealer = none
  commitments_kept : ∀ dealer, ¬ out dealer →
    after.commitments.get? dealer = before.commitments.get? dealer
  shares_out : ∀ dealer r, out dealer → after.shares.get? (dealer, r) = none
  shares_kept : ∀ dealer r, ¬ out dealer →
    after.shares.get? (dealer, r) = before.shares.get? (dealer, r)

namespace Removes

variable {before middle after : MultiDealerDkg} {first second out : UInt32 → Prop}

theorem refl (dkg : MultiDealerDkg) : Removes dkg dkg fun _ => False where
  n := rfl
  t := rfl
  disqualified _ := (or_iff_left id).symm
  commitments_out _ := False.elim
  commitments_kept _ _ := rfl
  shares_out _ _ := False.elim
  shares_kept _ _ _ := rfl

theorem trans (earlier : Removes before middle first)
    (later : Removes middle after second) :
    Removes before after fun dealer => first dealer ∨ second dealer where
  n := later.n.trans earlier.n
  t := later.t.trans earlier.t
  disqualified dealer := by
    rw [later.disqualified, earlier.disqualified, or_assoc]
  commitments_out dealer gone := by
    by_cases last : second dealer
    · exact later.commitments_out dealer last
    · rw [later.commitments_kept dealer last]
      exact earlier.commitments_out dealer (gone.resolve_right last)
  commitments_kept dealer kept := by
    rw [not_or] at kept
    rw [later.commitments_kept dealer kept.2, earlier.commitments_kept dealer kept.1]
  shares_out dealer r gone := by
    by_cases last : second dealer
    · exact later.shares_out dealer r last
    · rw [later.shares_kept dealer r last]
      exact earlier.shares_out dealer r (gone.resolve_right last)
  shares_kept dealer r kept := by
    rw [not_or] at kept
    rw [later.shares_kept dealer r kept.2, earlier.shares_kept dealer r kept.1]

theorem congr (removes : Removes before after first)
    (same : ∀ dealer, first dealer ↔ second dealer) :
    Removes before after second := by
  have equal : first = second := funext fun dealer => propext (same dealer)
  exact equal ▸ removes

end Removes

omit [Curve] in
theorem increment_eq_some {counts next : AssocMap UInt32 UInt32} {dealer : UInt32}
    (incremented : increment counts dealer = some next) (other : UInt32) :
    (next.getD other 0).toNat =
      (counts.getD other 0).toNat + if dealer = other then 1 else 0 := by
  simp only [increment, Option.ite_none_right_eq_some, Option.some.injEq]
    at incremented
  rcases incremented with ⟨fits, rfl⟩
  rw [AssocMap.getD_insert]
  by_cases same : other = dealer
  · subst same
    rw [if_pos rfl, if_pos rfl, UInt32.toNat_add]
    exact Nat.mod_eq_of_lt fits
  · rw [if_neg same, if_neg (Ne.symm same), add_zero]

/-- The counters count the complaints. -/
theorem getD_of_tally {complaints : List Complaint}
    {start counts : AssocMap UInt32 UInt32}
    (tallied : complaints.foldlM (fun counts c => increment counts c.against) start =
      some counts) (dealer : UInt32) :
    (counts.getD dealer 0).toNat =
      (start.getD dealer 0).toNat + countAgainst complaints dealer := by
  induction complaints generalizing start with
  | nil =>
      rw [List.foldlM_nil, Option.pure_def, Option.some.injEq] at tallied
      rw [← tallied]
      rfl
  | cons c rest inductionHypothesis =>
      rw [List.foldlM_cons, Option.bind_eq_bind, Option.bind_eq_some_iff] at tallied
      rcases tallied with ⟨next, incremented, continued⟩
      rw [inductionHypothesis continued, increment_eq_some incremented dealer,
        countAgainst, countAgainst, List.countP_cons]
      simp only [decide_eq_true_eq]
      omega

/-- The tally ends when all the counts fit. -/
theorem exists_tally {complaints : List Complaint} (start : AssocMap UInt32 UInt32)
    (fits : ∀ dealer,
      (start.getD dealer 0).toNat + countAgainst complaints dealer < 2 ^ 32) :
    ∃ counts, complaints.foldlM (fun counts c => increment counts c.against) start =
      some counts := by
  induction complaints generalizing start with
  | nil => exact ⟨start, rfl⟩
  | cons c rest inductionHypothesis =>
      have here := fits c.against
      rw [countAgainst, List.countP_cons] at here
      simp only [decide_true, if_true] at here
      have room : (start.getD c.against 0).toNat + 1 < 2 ^ 32 := by omega
      have incremented : increment start c.against =
          some (start.insert c.against (start.getD c.against 0 + 1)) := if_pos room
      rw [List.foldlM_cons, incremented, Option.bind_eq_bind, Option.bind_some]
      apply inductionHypothesis
      intro dealer
      have within := fits dealer
      rw [countAgainst, List.countP_cons] at within
      rw [increment_eq_some incremented dealer, countAgainst]
      simp only [decide_eq_true_eq] at within
      omega

theorem strike_removes (dkg : MultiDealerDkg) (dealer cnt : UInt32) :
    Removes dkg (dkg.strike dealer cnt) fun other =>
      other = dealer ∧ dkg.t < cnt := by
  rw [strike]
  by_cases many : dkg.t < cnt
  · rw [if_pos many]
    refine ⟨rfl, rfl, ?_, ?_, ?_, ?_, ?_⟩
    · intro other
      rw [Finset.mem_insert, or_comm]
      simp [many]
    · intro other gone
      exact (AssocMap.get?_erase _ _ _).trans (if_pos gone.1)
    · intro other kept
      exact (AssocMap.get?_erase _ _ _).trans (if_neg fun same => kept ⟨same, many⟩)
    · intro other r gone
      exact (AssocMap.get?_retain _ _ _).trans (if_neg (by simp [gone.1]))
    · intro other r kept
      have different : other ≠ dealer := fun same => kept ⟨same, many⟩
      exact (AssocMap.get?_retain _ _ _).trans (if_pos (by simp [different]))
  · rw [if_neg many]
    exact (Removes.refl dkg).congr fun other =>
      ⟨False.elim, fun both => many both.2⟩

theorem strikes_remove (entries : List (Sigma fun _ : UInt32 => UInt32))
    (dkg : MultiDealerDkg) :
    Removes dkg (entries.foldl (fun dkg entry => dkg.strike entry.1 entry.2) dkg)
      fun dealer => ∃ entry ∈ entries, dealer = entry.1 ∧ dkg.t < entry.2 := by
  induction entries generalizing dkg with
  | nil => exact (Removes.refl dkg).congr fun dealer => by simp
  | cons entry rest inductionHypothesis =>
      have first := dkg.strike_removes entry.1 entry.2
      have others := inductionHypothesis (dkg.strike entry.1 entry.2)
      rw [first.t] at others
      refine (first.trans others).congr fun dealer => ?_
      rw [List.exists_mem_cons_iff]

theorem getD_tally {complaints : List Complaint} {counts : AssocMap UInt32 UInt32}
    (tallied : tally complaints = some counts) (dealer : UInt32) :
    (counts.getD dealer 0).toNat = countAgainst complaints dealer :=
  (getD_of_tally tallied dealer).trans (Nat.zero_add _)

/-- The counters over the threshold are those of the dealers with more than that
many complaints. -/
theorem exists_entry_iff {complaints : List Complaint}
    {counts : AssocMap UInt32 UInt32} (tallied : tally complaints = some counts)
    (t dealer : UInt32) :
    (∃ entry ∈ counts.entries, dealer = entry.1 ∧ t < entry.2) ↔
      t.toNat < countAgainst complaints dealer := by
  rw [← getD_tally tallied dealer, ← UInt32.lt_iff_toNat_lt]
  constructor
  · intro listed
    rcases listed with ⟨⟨key, cnt⟩, member, rfl, above⟩
    have found : counts.get? dealer = some cnt := AList.mem_lookup_iff.mpr member
    rw [AssocMap.getD_of_get? 0 found]
    exact above
  · intro above
    cases found : counts.get? dealer with
    | none =>
        rw [AssocMap.getD, found, Option.getD_none, UInt32.lt_iff_toNat_lt] at above
        exact absurd above (Nat.not_lt_zero _)
    | some cnt =>
        rw [AssocMap.getD_of_get? 0 found] at above
        exact ⟨⟨dealer, cnt⟩, AList.mem_lookup_iff.mp found, rfl, above⟩

/-- Whoever has more than `t` pending complaints is disqualified, and the complaints
are gone. -/
theorem resolveAndDisqualify_eq_some {dkg next : MultiDealerDkg}
    (resolved : dkg.resolveAndDisqualify = some next) :
    next.complaints = [] ∧
      Removes dkg next fun dealer =>
        dkg.t.toNat < countAgainst dkg.complaints dealer := by
  rw [resolveAndDisqualify, Option.bind_eq_bind, Option.bind_eq_some_iff] at resolved
  rcases resolved with ⟨counts, tallied, result⟩
  rw [Option.some.injEq] at result
  subst result
  have removes := (strikes_remove counts.entries dkg).congr
    (exists_entry_iff tallied dkg.t)
  exact ⟨rfl, ⟨removes.n, removes.t, removes.disqualified, removes.commitments_out,
    removes.commitments_kept, removes.shares_out, removes.shares_kept⟩⟩

theorem countAgainst_lt {dkg next : MultiDealerDkg}
    (resolved : dkg.resolveAndDisqualify = some next) (dealer : UInt32) :
    countAgainst dkg.complaints dealer < 2 ^ 32 := by
  rw [resolveAndDisqualify, Option.bind_eq_bind, Option.bind_eq_some_iff] at resolved
  rcases resolved with ⟨counts, tallied, _⟩
  exact getD_tally tallied dealer ▸ (counts.getD dealer 0).toNat_lt

theorem exists_resolveAndDisqualify {dkg : MultiDealerDkg}
    (fits : ∀ dealer, countAgainst dkg.complaints dealer < 2 ^ 32) :
    ∃ next, dkg.resolveAndDisqualify = some next := by
  have started : ∀ dealer,
      (AssocMap.getD (∅ : AssocMap UInt32 UInt32) dealer 0).toNat +
        countAgainst dkg.complaints dealer < 2 ^ 32 := by
    intro dealer
    exact (Nat.zero_add _).symm ▸ fits dealer
  rcases exists_tally ∅ started with ⟨counts, tallied⟩
  rw [resolveAndDisqualify, tally, tallied]
  exact ⟨_, rfl⟩

/-! ## Final shares -/

/-- The dealers whose shares a recipient adds up, each with the recipient. -/
def countedKeys (dkg : MultiDealerDkg) (recipient : UInt32) :
    Finset (UInt32 × UInt32) :=
  dkg.shares.keySet.filter fun key => key.2 = recipient ∧ key.1 ∉ dkg.disqualified

/-- The test of the loop of `final_share`. -/
def countsFor (dkg : MultiDealerDkg) (recipient : UInt32) (key : UInt32 × UInt32) :
    Bool :=
  key.2 = recipient ∧ key.1 ∉ dkg.disqualified

/-- The loop of `final_share` as a sum. -/
theorem finalShare_eq_sum (dkg : MultiDealerDkg) (recipient : UInt32) :
    dkg.finalShare recipient =
      if (dkg.countedKeys recipient).Nonempty then
        some (∑ key ∈ dkg.countedKeys recipient, dkg.shares.getD key 0)
      else
        none := by
  have counted : (dkg.shares.keySet.filter fun key =>
      dkg.countsFor recipient key = true) = dkg.countedKeys recipient := by
    simp only [countsFor, decide_eq_true_eq, countedKeys]
  have looped := foldl_sum_found
    (fun entry : Sigma fun _ : UInt32 × UInt32 => Scalar =>
      dkg.countsFor recipient entry.1)
    (fun entry => entry.2) dkg.shares.entries 0 false
  have total := sum_entries_filter dkg.shares 0 (dkg.countsFor recipient)
    fun _ share => share
  have any := any_entries dkg.shares (dkg.countsFor recipient)
  rw [counted] at total any
  rw [total, zero_add, Bool.false_or] at looped
  simp only [countsFor, decide_eq_true_eq] at looped any
  rw [finalShare, looped]
  simp only [any]

/-! ## Steps and runs -/

/-- All that a call can do. -/
theorem step_cases {dkg next : MultiDealerDkg} {call : MultiDealerCall}
    (stepped : dkg.step call = some next) :
    (∃ dealerId random, call = .deal dealerId random ∧
      next = (dkg.deal dealerId random).2) ∨
    (∃ complaint, call = .fileComplaint complaint ∧
      next = { dkg with
        complaints := dkg.complaints ++
          [complaint].filter fun c => c.against ∉ dkg.disqualified }) ∨
    (call = .resolveAndDisqualify ∧ next.complaints = [] ∧
      Removes dkg next fun dealer =>
        dkg.t.toNat < countAgainst dkg.complaints dealer) := by
  cases call with
  | deal dealerId random =>
      rw [step, Option.some.injEq] at stepped
      exact Or.inl ⟨dealerId, random, rfl, stepped.symm⟩
  | fileComplaint complaint =>
      rw [step, Option.some.injEq, fileComplaint_eq] at stepped
      exact Or.inr (Or.inl ⟨complaint, rfl, stepped.symm⟩)
  | resolveAndDisqualify =>
      exact Or.inr (Or.inr ⟨rfl, resolveAndDisqualify_eq_some stepped⟩)

/-- The same number of recipients and the same threshold. -/
def SameSize (dkg current : MultiDealerDkg) : Prop :=
  current.n = dkg.n ∧ current.t = dkg.t

/-- No call changes the number of recipients or the threshold. -/
theorem run_n_t {dkg next : MultiDealerDkg} {calls : List MultiDealerCall}
    (reached : run step dkg calls = some next) : next.n = dkg.n ∧ next.t = dkg.t := by
  have kept : ∀ before call after, SameSize dkg before →
      step before call = some after → SameSize dkg after := by
    intro before call after same stepped
    rcases step_cases stepped with
      ⟨dealerId, random, rfl, rfl⟩ | ⟨complaint, rfl, rfl⟩ | ⟨rfl, _, removes⟩
    · exact same
    · exact same
    · exact ⟨removes.n.trans same.1, removes.t.trans same.2⟩
  have initially : SameSize dkg dkg := ⟨rfl, rfl⟩
  exact invariant_of_run kept initially reached

end MultiDealerDkg

end SovereignLattice
