import SovereignLattice.Pbft.Certificates

/-!
# What the view change selects

The highest slot of a set of votes and the certificate selected for it, in terms of
what the votes report and what the certificates say.  Neither depends on the order
in which a hash map is iterated.
-/

namespace SovereignLattice

/-- The maximum of two words is their least upper bound. -/
instance lawfulOrderMax_uInt64 : Std.LawfulOrderMax UInt64 := by
  apply Std.LawfulOrderMax.of_max_le_iff
  · intro a b c
    have unfolded : max a b = if a ≤ b then b else a := rfl
    grind
  · intro a b
    have unfolded : max a b = if a ≤ b then b else a := rfl
    grind

variable [Curve]

/-! ## The highest slot -/

/-- Some vote reports the slot. -/
def Reports (votes : ViewChangeVotes) (seq : UInt64) (digest : Digest) : Prop :=
  ∃ sender signature, votes.get? sender = some (seq, digest, signature)

/-- The highest sequence that a vote reports. -/
def HighestSeq (votes : ViewChangeVotes) (maxSeq : UInt64) : Prop :=
  (∃ digest, Reports votes maxSeq digest) ∧
    ∀ seq digest, Reports votes seq digest → seq ≤ maxSeq

section Slot

variable {votes : ViewChangeVotes} {maxSeq seq : UInt64} {digest : Digest}

theorem mem_values_iff_reports :
    (∃ signature, (seq, digest, signature) ∈ votes.values) ↔
      Reports votes seq digest := by
  constructor
  · rintro ⟨signature, member⟩
    rcases AssocMap.mem_values_iff.mp member with ⟨sender, stored⟩
    exact ⟨sender, signature, stored⟩
  · rintro ⟨sender, signature, stored⟩
    exact ⟨signature, AssocMap.mem_values_iff.mpr ⟨sender, stored⟩⟩

theorem HighestSeq.unique {other : UInt64} (first : HighestSeq votes maxSeq)
    (second : HighestSeq votes other) : maxSeq = other := by
  rcases first with ⟨⟨digest, reported⟩, above⟩
  rcases second with ⟨⟨otherDigest, otherReported⟩, otherAbove⟩
  exact UInt64.le_antisymm (otherAbove _ _ reported) (above _ _ otherReported)

theorem max?_eq_some_iff_highestSeq :
    (votes.values.map fun vote => vote.1).max? = some maxSeq ↔
      HighestSeq votes maxSeq := by
  rw [List.max?_eq_some_iff, List.mem_map]
  constructor
  · rintro ⟨⟨⟨_, digest, signature⟩, member, rfl⟩, above⟩
    refine ⟨⟨digest, mem_values_iff_reports.mp ⟨signature, member⟩⟩, ?_⟩
    intro seq digest reported
    rcases mem_values_iff_reports.mpr reported with ⟨signature, stored⟩
    exact above seq (List.mem_map.mpr ⟨_, stored, rfl⟩)
  · rintro ⟨⟨digest, reported⟩, above⟩
    rcases mem_values_iff_reports.mpr reported with ⟨signature, stored⟩
    refine ⟨⟨_, stored, rfl⟩, ?_⟩
    intro seq member
    rcases List.mem_map.mp member with ⟨⟨_, digest, signature⟩, stored, rfl⟩
    exact above _ digest (mem_values_iff_reports.mp ⟨signature, stored⟩)

/-- Votes report nothing, or have a highest sequence. -/
theorem exists_highestSeq (votes : ViewChangeVotes) :
    (∀ seq digest, ¬ Reports votes seq digest) ∨
      ∃ maxSeq, HighestSeq votes maxSeq := by
  cases maximum : (votes.values.map fun vote => vote.1).max? with
  | none =>
      rw [List.max?_eq_none_iff, List.map_eq_nil_iff] at maximum
      left
      intro seq digest reported
      rcases mem_values_iff_reports.mpr reported with ⟨signature, stored⟩
      simp [maximum] at stored
  | some maxSeq => exact Or.inr ⟨maxSeq, max?_eq_some_iff_highestSeq.mp maximum⟩

/-- Once a digest is found, the scan looks for a different one. -/
theorem digestAtMax_some (maxSeq : UInt64)
    (votes : List (UInt64 × Digest × G1Projective)) (digest : Digest) :
    digestAtMax maxSeq votes (some digest) =
      if ∀ vote ∈ votes, vote.1 = maxSeq → vote.2.1 = digest then
        some (some digest)
      else
        none := by
  induction votes with
  | nil => simp [digestAtMax]
  | cons vote rest inductionHypothesis =>
      obtain ⟨seq, reported, signature⟩ := vote
      rw [digestAtMax]
      by_cases atMax : seq = maxSeq
      · by_cases same : reported = digest
        · rw [if_neg (not_not.mpr atMax), if_neg (not_not.mpr same.symm),
            inductionHypothesis]
          exact if_congr (by simp [same]) rfl rfl
        · rw [if_neg (not_not.mpr atMax), if_pos (Ne.symm same), if_neg]
          exact fun agree => same (agree _ List.mem_cons_self atMax)
      · rw [if_pos atMax, inductionHypothesis]
        exact if_congr (by simp [atMax]) rfl rfl

/-- A scan that meets one digest only returns it. -/
theorem digestAtMax_of_unique
    {votes : List (UInt64 × Digest × G1Projective)}
    (found : ∃ signature, (maxSeq, digest, signature) ∈ votes)
    (unique : ∀ vote ∈ votes, vote.1 = maxSeq → vote.2.1 = digest) :
    digestAtMax maxSeq votes none = some (some digest) := by
  induction votes with
  | nil => simp at found
  | cons vote rest inductionHypothesis =>
      obtain ⟨seq, reported, signature⟩ := vote
      rcases List.forall_mem_cons.mp unique with ⟨here, later⟩
      rw [digestAtMax]
      by_cases atMax : seq = maxSeq
      · obtain rfl : reported = digest := here atMax
        rw [if_neg (not_not.mpr atMax), digestAtMax_some, if_pos later]
      · rw [if_pos atMax]
        apply inductionHypothesis ?_ later
        rcases found with ⟨voted, member⟩
        rcases List.mem_cons.mp member with same | member
        · cases same
          exact absurd rfl atMax
        · exact ⟨voted, member⟩

/-- A scan that meets two digests stops. -/
theorem digestAtMax_of_conflict
    {votes : List (UInt64 × Digest × G1Projective)} {other : Digest}
    (first : ∃ signature, (maxSeq, digest, signature) ∈ votes)
    (second : ∃ signature, (maxSeq, other, signature) ∈ votes)
    (different : digest ≠ other) : digestAtMax maxSeq votes none = none := by
  induction votes with
  | nil => simp at first
  | cons vote rest inductionHypothesis =>
      obtain ⟨seq, reported, signature⟩ := vote
      rw [digestAtMax]
      by_cases atMax : seq = maxSeq
      · rw [if_neg (not_not.mpr atMax), digestAtMax_some, if_neg]
        intro same
        have shared : ∀ {candidate : Digest},
            (∃ voted, (maxSeq, candidate, voted) ∈
              (seq, reported, signature) :: rest) → candidate = reported := by
          rintro candidate ⟨voted, member⟩
          rcases List.mem_cons.mp member with here | member
          · cases here
            rfl
          · exact same _ member rfl
        exact different ((shared first).trans (shared second).symm)
      · rw [if_pos atMax]
        have later : ∀ {candidate : Digest},
            (∃ voted, (maxSeq, candidate, voted) ∈
              (seq, reported, signature) :: rest) →
            ∃ voted, (maxSeq, candidate, voted) ∈ rest := by
          rintro candidate ⟨voted, member⟩
          rcases List.mem_cons.mp member with here | member
          · cases here
            exact absurd rfl atMax
          · exact ⟨voted, member⟩
        exact inductionHypothesis (later first) (later second)

theorem highestViewChangeSlot_of_empty
    (nothing : ∀ seq digest, ¬ Reports votes seq digest) :
    highestViewChangeSlot votes = none := by
  cases maximum : (votes.values.map fun vote => vote.1).max? with
  | none => simp [highestViewChangeSlot, maximum]
  | some maxSeq =>
      rcases max?_eq_some_iff_highestSeq.mp maximum with ⟨⟨digest, reported⟩, _⟩
      exact absurd reported (nothing maxSeq digest)

theorem highestViewChangeSlot_of_zero (highest : HighestSeq votes 0) :
    highestViewChangeSlot votes = some (0, zeroDigest) := by
  simp [highestViewChangeSlot, max?_eq_some_iff_highestSeq.mpr highest]

theorem highestViewChangeSlot_of_unique (highest : HighestSeq votes maxSeq)
    (positive : 0 < maxSeq) (reported : Reports votes maxSeq digest)
    (unique : ∀ other, Reports votes maxSeq other → other = digest) :
    highestViewChangeSlot votes = some (maxSeq, digest) := by
  have nonzero : maxSeq ≠ 0 := by grind
  have named : ∀ vote ∈ votes.values, vote.1 = maxSeq → vote.2.1 = digest := by
    rintro ⟨seq, other, signature⟩ member rfl
    exact unique other (mem_values_iff_reports.mp ⟨signature, member⟩)
  have scanned :=
    digestAtMax_of_unique (mem_values_iff_reports.mpr reported) named
  simp [highestViewChangeSlot, max?_eq_some_iff_highestSeq.mpr highest, nonzero,
    scanned]

theorem highestViewChangeSlot_of_conflict {other : Digest}
    (highest : HighestSeq votes maxSeq) (positive : 0 < maxSeq)
    (first : Reports votes maxSeq digest) (second : Reports votes maxSeq other)
    (different : digest ≠ other) : highestViewChangeSlot votes = none := by
  have nonzero : maxSeq ≠ 0 := by grind
  have scanned := digestAtMax_of_conflict (mem_values_iff_reports.mpr first)
    (mem_values_iff_reports.mpr second) different
  simp [highestViewChangeSlot, max?_eq_some_iff_highestSeq.mpr highest, nonzero,
    scanned]

/-- No slot is named where nothing is reported or the highest reports differ. -/
theorem highestViewChangeSlot_eq_none_iff :
    highestViewChangeSlot votes = none ↔
      (∀ seq digest, ¬ Reports votes seq digest) ∨
        ∃ maxSeq digest other, HighestSeq votes maxSeq ∧ 0 < maxSeq ∧
          Reports votes maxSeq digest ∧ Reports votes maxSeq other ∧
            digest ≠ other := by
  constructor
  · intro nothing
    rcases exists_highestSeq votes with empty | ⟨maxSeq, highest⟩
    · exact Or.inl empty
    right
    rcases highest.1 with ⟨digest, reported⟩
    by_cases zero : maxSeq = 0
    · subst zero
      rw [highestViewChangeSlot_of_zero highest] at nothing
      cases nothing
    have positive : 0 < maxSeq := by grind
    by_contra agree
    have unique : ∀ other, Reports votes maxSeq other → other = digest := by
      intro other otherReported
      by_contra different
      exact agree ⟨maxSeq, other, digest, highest, positive, otherReported,
        reported, different⟩
    rw [highestViewChangeSlot_of_unique highest positive reported unique]
      at nothing
    cases nothing
  · rintro (empty | ⟨maxSeq, digest, other, highest, positive, first, second,
      different⟩)
    · exact highestViewChangeSlot_of_empty empty
    · exact highestViewChangeSlot_of_conflict highest positive first second
        different

/-- A positive slot is the highest sequence with its only digest. -/
theorem highestViewChangeSlot_eq_some_iff (positive : 0 < maxSeq) :
    highestViewChangeSlot votes = some (maxSeq, digest) ↔
      HighestSeq votes maxSeq ∧ Reports votes maxSeq digest ∧
        ∀ other, Reports votes maxSeq other → other = digest := by
  constructor
  · intro slot
    have reported : Reports votes maxSeq digest :=
      highestViewChangeSlot_mem slot positive
    rcases exists_highestSeq votes with empty | ⟨highestSeq, highest⟩
    · exact absurd reported (empty maxSeq digest)
    have above : 0 < highestSeq :=
      UInt64.lt_of_lt_of_le positive (highest.2 _ _ reported)
    rcases highest.1 with ⟨top, topReported⟩
    have unique : ∀ other, Reports votes highestSeq other → other = top := by
      intro other otherReported
      by_contra different
      rw [highestViewChangeSlot_of_conflict highest above otherReported
        topReported different] at slot
      cases slot
    rw [highestViewChangeSlot_of_unique highest above topReported unique,
      Option.some.injEq, Prod.mk.injEq] at slot
    obtain ⟨rfl, rfl⟩ := slot
    exact ⟨highest, reported, unique⟩
  · rintro ⟨highest, reported, unique⟩
    exact highestViewChangeSlot_of_unique highest positive reported unique

/-- The sequence of a slot is the highest that is reported. -/
theorem highestSeq_of_slot
    (slot : highestViewChangeSlot votes = some (maxSeq, digest)) :
    HighestSeq votes maxSeq := by
  rcases exists_highestSeq votes with empty | ⟨highestSeq, highest⟩
  · rw [highestViewChangeSlot_of_empty empty] at slot
    cases slot
  by_cases zero : highestSeq = 0
  · subst zero
    rw [highestViewChangeSlot_of_zero highest] at slot
    cases slot
    exact highest
  simp only [highestViewChangeSlot, max?_eq_some_iff_highestSeq.mpr highest,
    Option.bind_eq_bind, Option.bind_some, zero, if_false] at slot
  rcases Option.bind_eq_some_iff.mp slot with ⟨found, _, named⟩
  rcases Option.map_eq_some_iff.mp named with ⟨_, _, same⟩
  obtain rfl : highestSeq = maxSeq := congrArg Prod.fst same
  exact highest

theorem highestViewChangeSlot_eq_zero_iff :
    highestViewChangeSlot votes = some (0, zeroDigest) ↔ HighestSeq votes 0 :=
  ⟨highestSeq_of_slot, highestViewChangeSlot_of_zero⟩

/-- The slot depends on what is stored at each sender, not on the order. -/
theorem highestViewChangeSlot_congr {other : ViewChangeVotes}
    (same : ∀ sender, votes.get? sender = other.get? sender) :
    highestViewChangeSlot votes = highestViewChangeSlot other := by
  have reports : ∀ seq digest,
      Reports votes seq digest ↔ Reports other seq digest := by
    intro seq digest
    simp only [Reports, same]
  have sameHighest : ∀ seq, HighestSeq votes seq ↔ HighestSeq other seq := by
    intro seq
    simp only [HighestSeq, reports]
  rcases exists_highestSeq votes with empty | ⟨maxSeq, highest⟩
  · have otherEmpty : ∀ seq digest, ¬ Reports other seq digest :=
      fun seq digest => (not_congr (reports seq digest)).mp (empty seq digest)
    rw [highestViewChangeSlot_of_empty empty,
      highestViewChangeSlot_of_empty otherEmpty]
  · by_cases zero : maxSeq = 0
    · subst zero
      rw [highestViewChangeSlot_of_zero highest,
        highestViewChangeSlot_of_zero ((sameHighest 0).mp highest)]
    have positive : 0 < maxSeq := by grind
    rcases highest.1 with ⟨digest, reported⟩
    by_cases unique : ∀ candidate, Reports votes maxSeq candidate →
        candidate = digest
    · have otherUnique : ∀ candidate, Reports other maxSeq candidate →
          candidate = digest :=
        fun candidate stored => unique candidate ((reports _ _).mpr stored)
      rw [highestViewChangeSlot_of_unique highest positive reported unique,
        highestViewChangeSlot_of_unique ((sameHighest _).mp highest) positive
          ((reports _ _).mp reported) otherUnique]
    · push Not at unique
      rcases unique with ⟨candidate, stored, different⟩
      rw [highestViewChangeSlot_of_conflict highest positive stored reported
          different,
        highestViewChangeSlot_of_conflict ((sameHighest _).mp highest) positive
          ((reports _ _).mp stored) ((reports _ _).mp reported) different]

end Slot

/-! ## The selected certificate -/

omit [Curve] in
/-- The comparison of signer lists is the lexicographic order. -/
theorem compare_isLE_iff {first second : List UInt32} :
    (compare first second).isLE = true ↔ first ≤ second := by
  induction first generalizing second with
  | nil => cases second <;> simp
  | cons signer rest inductionHypothesis =>
      cases second with
      | nil => simp
      | cons other later =>
          rw [List.compare_cons_cons, List.cons_le_cons_iff,
            ← inductionHypothesis]
          cases order : compare signer other with
          | lt => simp [Std.compare_eq_lt.mp order]
          | eq => simp [Std.compare_eq_iff_eq.mp order]
          | gt =>
              have greater := Std.compare_eq_gt.mp order
              have notLess : ¬ signer < other := by grind
              have different : signer ≠ other := by grind
              simp [notLess, different]

namespace PreparedCertificate

theorem sortsBefore_iff {a b : PreparedCertificate} :
    a.sortsBefore b = true ↔
      b.view < a.view ∨ b.view = a.view ∧ a.signers ≤ b.signers := by
  rw [sortsBefore, ← compare_isLE_iff]
  cases order : compare b.view a.view with
  | lt => simp [Std.compare_eq_lt.mp order]
  | eq => simp [Std.compare_eq_iff_eq.mp order]
  | gt =>
      have greater := Std.compare_eq_gt.mp order
      have notLess : ¬ b.view < a.view := by grind
      have different : b.view ≠ a.view := by grind
      simp [notLess, different]

instance : Std.Total fun a b : PreparedCertificate => a.sortsBefore b = true where
  total a b := by
    rw [sortsBefore_iff, sortsBefore_iff]
    rcases List.le_total a.signers b.signers with first | second
    all_goals grind

instance : IsTrans PreparedCertificate fun a b => a.sortsBefore b = true where
  trans a b c := by
    rw [sortsBefore_iff, sortsBefore_iff, sortsBefore_iff]
    have transitive : a.signers ≤ b.signers → b.signers ≤ c.signers →
        a.signers ≤ c.signers := List.le_trans
    grind

theorem mem_signers {cert : PreparedCertificate} {signer : UInt32} :
    signer ∈ cert.signers ↔ signer ∈ cert.signatures.keySet := by
  rw [signers, List.mem_insertionSort, AssocMap.mem_keySet]

/-- What a certificate certifies and who signed it. -/
def statement (cert : PreparedCertificate) :
    UInt64 × UInt64 × Digest × Finset UInt32 :=
  (cert.view, cert.seq, cert.digest, cert.signatures.keySet)

end PreparedCertificate

section Select

variable {certificates : List PreparedCertificate} {targetView seq : UInt64}
variable {digest : Digest} {quorumSize : Nat} {masterPk : G2Projective}

theorem select_eq_none_iff :
    selectHighestPreparedCertificate certificates targetView seq digest
        quorumSize masterPk = none ↔
      ∀ cert ∈ certificates,
        cert.supports targetView seq digest quorumSize masterPk = false := by
  constructor
  · intro nothing cert member
    by_contra supports
    rw [Bool.not_eq_false] at supports
    rcases select_isSome member supports with ⟨selected, found⟩
    rw [nothing] at found
    cases found
  · intro unsupported
    cases found : selectHighestPreparedCertificate certificates targetView seq
        digest quorumSize masterPk with
    | none => rfl
    | some cert =>
        rcases select_mem found with ⟨member, supports⟩
        rw [unsupported cert member] at supports
        cases supports

/-- The selected certificate sorts before every other candidate. -/
theorem sortsBefore_of_select {cert other : PreparedCertificate}
    (selected : selectHighestPreparedCertificate certificates targetView seq
      digest quorumSize masterPk = some cert)
    (member : other ∈ certificates)
    (supports : other.supports targetView seq digest quorumSize masterPk = true) :
    cert.sortsBefore other = true := by
  rw [selectHighestPreparedCertificate, List.head?_eq_some_iff] at selected
  rcases selected with ⟨rest, sorted⟩
  have candidate : other ∈ cert :: rest := by
    rw [← sorted, List.mem_insertionSort]
    exact List.mem_filter.mpr ⟨member, supports⟩
  have ordered := List.pairwise_insertionSort
    (fun a b : PreparedCertificate => a.sortsBefore b = true)
    (certificates.filter fun cert =>
      cert.supports targetView seq digest quorumSize masterPk)
  rw [sorted, List.pairwise_cons] at ordered
  rcases List.mem_cons.mp candidate with rfl | later
  · rw [PreparedCertificate.sortsBefore_iff]
    exact Or.inr ⟨rfl, List.le_refl _⟩
  · exact ordered.1 other later

/-- Another order of the certificates selects the same statement. -/
theorem select_perm {permuted : List PreparedCertificate}
    (reordered : certificates.Perm permuted) :
    (selectHighestPreparedCertificate certificates targetView seq digest
        quorumSize masterPk).map PreparedCertificate.statement =
      (selectHighestPreparedCertificate permuted targetView seq digest
        quorumSize masterPk).map PreparedCertificate.statement := by
  cases found : selectHighestPreparedCertificate certificates targetView seq
      digest quorumSize masterPk with
  | none =>
      have nothing : selectHighestPreparedCertificate permuted targetView seq
          digest quorumSize masterPk = none := by
        rw [select_eq_none_iff] at found ⊢
        exact fun cert member => found cert (reordered.mem_iff.mpr member)
      rw [nothing]
  | some cert =>
      rcases select_mem found with ⟨member, supports⟩
      rcases select_isSome (reordered.mem_iff.mp member) supports with
        ⟨other, otherFound⟩
      rcases select_mem otherFound with ⟨otherMember, otherSupports⟩
      have before := sortsBefore_of_select found
        (reordered.mem_iff.mpr otherMember) otherSupports
      have after := sortsBefore_of_select otherFound
        (reordered.mem_iff.mp member) supports
      rw [PreparedCertificate.sortsBefore_iff] at before after
      rw [PreparedCertificate.supports, decide_eq_true_eq] at supports
      rw [PreparedCertificate.supports, decide_eq_true_eq] at otherSupports
      have sameView : cert.view = other.view := by grind
      have sameSigners : cert.signers = other.signers := by
        apply List.le_antisymm <;> grind
      have sameKeys : cert.signatures.keySet = other.signatures.keySet := by
        ext signer
        rw [← PreparedCertificate.mem_signers, sameSigners,
          PreparedCertificate.mem_signers]
      rw [otherFound, Option.map_some, Option.map_some,
        PreparedCertificate.statement, PreparedCertificate.statement, sameView,
        sameKeys, supports.2.1, supports.2.2.1, otherSupports.2.1,
        otherSupports.2.2.1]

end Select

/-- Votes that report nothing are an empty map. -/
theorem forall_not_reports_iff {votes : ViewChangeVotes} :
    (∀ seq digest, ¬ Reports votes seq digest) ↔ votes.len = 0 := by
  constructor
  · intro nothing
    rw [AssocMap.len, List.length_eq_zero_iff]
    rw [List.eq_nil_iff_forall_not_mem]
    rintro ⟨sender, seq, digest, signature⟩ member
    exact nothing seq digest ⟨sender, signature, AList.mem_lookup_iff.mpr member⟩
  · rintro empty seq digest ⟨sender, signature, stored⟩
    have member := AList.mem_lookup_iff.mp stored
    rw [List.length_eq_zero_iff.mp empty] at member
    simp at member

/-- The slot and the certificate of a view change, exactly, for every map and list
and in whatever order they are iterated. -/
theorem viewChangeSelection_exact :
    (∀ votes : ViewChangeVotes,
      (highestViewChangeSlot votes = none ↔
        votes.len = 0 ∨
          ∃ maxSeq digest other, HighestSeq votes maxSeq ∧ 0 < maxSeq ∧
            Reports votes maxSeq digest ∧ Reports votes maxSeq other ∧
              digest ≠ other) ∧
      (highestViewChangeSlot votes = some (0, zeroDigest) ↔
        HighestSeq votes 0) ∧
      (∀ maxSeq digest, 0 < maxSeq →
        (highestViewChangeSlot votes = some (maxSeq, digest) ↔
          HighestSeq votes maxSeq ∧ Reports votes maxSeq digest ∧
            ∀ other, Reports votes maxSeq other → other = digest)) ∧
      (∀ reordered : ViewChangeVotes,
        (∀ sender, votes.get? sender = reordered.get? sender) →
          highestViewChangeSlot votes = highestViewChangeSlot reordered)) ∧
    (∀ (certificates : List PreparedCertificate) (targetView seq : UInt64)
        (digest : Digest) (quorumSize : Nat) (masterPk : G2Projective),
      (selectHighestPreparedCertificate certificates targetView seq digest
          quorumSize masterPk = none ↔
        ∀ cert ∈ certificates, ¬ (cert.view < targetView ∧ cert.seq = seq ∧
          cert.digest = digest ∧ cert.verify quorumSize masterPk = true)) ∧
      (∀ selected,
        selectHighestPreparedCertificate certificates targetView seq digest
            quorumSize masterPk = some selected →
          (selected ∈ certificates ∧ selected.view < targetView ∧
            selected.seq = seq ∧ selected.digest = digest ∧
            selected.verify quorumSize masterPk = true) ∧
          ∀ other ∈ certificates,
            other.view < targetView ∧ other.seq = seq ∧ other.digest = digest ∧
                other.verify quorumSize masterPk = true →
              other.view < selected.view ∨
                other.view = selected.view ∧
                  selected.signers ≤ other.signers) ∧
      (∀ permuted, certificates.Perm permuted →
        (selectHighestPreparedCertificate certificates targetView seq digest
            quorumSize masterPk).map PreparedCertificate.statement =
          (selectHighestPreparedCertificate permuted targetView seq digest
            quorumSize masterPk).map PreparedCertificate.statement)) := by
  constructor
  · intro votes
    refine ⟨?_, highestViewChangeSlot_eq_zero_iff, ?_, ?_⟩
    · rw [highestViewChangeSlot_eq_none_iff, forall_not_reports_iff]
    · exact fun maxSeq digest => highestViewChangeSlot_eq_some_iff
    · exact fun reordered => highestViewChangeSlot_congr
  · intro certificates targetView seq digest quorumSize masterPk
    have supports : ∀ cert : PreparedCertificate,
        cert.supports targetView seq digest quorumSize masterPk = true ↔
          cert.view < targetView ∧ cert.seq = seq ∧ cert.digest = digest ∧
            cert.verify quorumSize masterPk = true :=
      fun cert => decide_eq_true_iff
    refine ⟨?_, ?_, fun permuted => select_perm⟩
    · rw [select_eq_none_iff]
      simp only [← supports, Bool.not_eq_true]
    · intro selected found
      rcases select_mem found with ⟨member, fits⟩
      refine ⟨⟨member, (supports selected).mp fits⟩, ?_⟩
      intro other otherMember otherFits
      have before := sortsBefore_of_select found otherMember
        ((supports other).mpr otherFits)
      exact PreparedCertificate.sortsBefore_iff.mp before

end SovereignLattice
