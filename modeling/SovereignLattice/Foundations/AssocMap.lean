import Mathlib.Algebra.Group.Nat.Defs
import Mathlib.Data.List.AList
import Mathlib.Data.Finset.Card

/-!
# Finite maps with an iteration order

A hash map is modelled by a duplicate-free association list.  The order of
the list plays the part of the iteration order that a hash map leaves open, so
a statement about every map also ranges over every such order.

The carrier and its lookup laws are those of `AList`; this module adds the
operations that it does not have (filtering by key, the number of entries, the
list of values) and restates the laws that callers use.
-/

namespace SovereignLattice

universe u v

/-- A finite map from `K` to `V`, listed in its iteration order. -/
abbrev AssocMap (K : Type u) (V : Type v) : Type (max u v) :=
  AList (fun _ : K => V)

namespace AssocMap

variable {K : Type u} {V : Type v}

/-- The number of entries. -/
def len (map : AssocMap K V) : Nat :=
  map.entries.length

/-- The values, in iteration order. -/
def values (map : AssocMap K V) : List V :=
  map.entries.map Sigma.snd

/-- Keep the entries whose key passes the test. -/
def retain (map : AssocMap K V) (test : K → Bool) : AssocMap K V where
  entries := map.entries.filter fun entry => test entry.1
  nodupKeys := by
    have sublist :
        (map.entries.filter fun entry => test entry.1).Sublist map.entries :=
      List.filter_sublist
    exact map.nodupKeys.sublist sublist

/-- The keys as a finite set. -/
def keySet (map : AssocMap K V) : Finset K :=
  ⟨map.keys, map.keys_nodup⟩

theorem length_keys (map : AssocMap K V) : map.keys.length = map.len := by
  simp [len, AList.keys, List.keys]

@[simp]
theorem card_keySet (map : AssocMap K V) : map.keySet.card = map.len := by
  rw [← length_keys]
  rfl

@[simp]
theorem mem_keySet {map : AssocMap K V} {key : K} :
    key ∈ map.keySet ↔ key ∈ map.keys :=
  Iff.rfl

/-- A map from 32-bit ids has at most as many entries as there are ids. -/
theorem len_le_two_pow (map : AssocMap UInt32 V) : map.len ≤ 2 ^ 32 := by
  have inside : map.keySet.image UInt32.toNat ⊆ Finset.range (2 ^ 32) := by
    intro value member
    rcases Finset.mem_image.mp member with ⟨id, _, rfl⟩
    exact Finset.mem_range.mpr id.toNat_lt
  have injective : Set.InjOn UInt32.toNat map.keySet :=
    fun first _ second _ same => UInt32.toNat_inj.mp same
  rw [← card_keySet, ← Finset.card_image_of_injOn injective]
  simpa using Finset.card_le_card inside

@[simp]
theorem len_empty : len (∅ : AssocMap K V) = 0 :=
  rfl

variable [DecidableEq K]

/-- The value stored at a key. -/
def get? (map : AssocMap K V) (key : K) : Option V :=
  map.lookup key

/-- The value at a key, or a default where there is none. -/
def getD (map : AssocMap K V) (key : K) (default : V) : V :=
  (map.get? key).getD default

/-- Store a value at a key, over the value that was there. -/
def insert (map : AssocMap K V) (key : K) (value : V) : AssocMap K V :=
  AList.insert key value map

@[simp]
theorem get?_empty (key : K) : get? (∅ : AssocMap K V) key = none :=
  AList.lookup_empty key

@[simp]
theorem get?_insert_self (map : AssocMap K V) (key : K) (value : V) :
    (map.insert key value).get? key = some value :=
  AList.lookup_insert map

theorem get?_insert_of_ne (map : AssocMap K V) {key other : K} (value : V)
    (different : other ≠ key) :
    (map.insert key value).get? other = map.get? other :=
  AList.lookup_insert_ne different

/-- Both lookup laws of `insert` in one rewrite. -/
theorem get?_insert (map : AssocMap K V) (key other : K) (value : V) :
    (map.insert key value).get? other =
      if other = key then some value else map.get? other := by
  by_cases same : other = key
  · subst same
    simp
  · simp [same, get?_insert_of_ne]

theorem getD_insert (map : AssocMap K V) (key other : K) (value default : V) :
    (map.insert key value).getD other default =
      if other = key then value else map.getD other default := by
  rw [getD, get?_insert]
  split <;> rfl

/-- Forget the value at a key. -/
def erase (map : AssocMap K V) (key : K) : AssocMap K V :=
  AList.erase key map

theorem get?_erase (map : AssocMap K V) (key other : K) :
    (map.erase key).get? other = if other = key then none else map.get? other := by
  by_cases same : other = key
  · subst same
    rw [if_pos rfl]
    exact AList.lookup_erase other map
  · rw [if_neg same]
    exact AList.lookup_erase_ne same

theorem mem_keys_iff {map : AssocMap K V} {key : K} :
    key ∈ map.keys ↔ ∃ value, map.get? key = some value := by
  rw [← AList.mem_keys, ← AList.lookup_isSome, Option.isSome_iff_exists]
  rfl

theorem mem_values_iff {map : AssocMap K V} {value : V} :
    value ∈ map.values ↔ ∃ key, map.get? key = some value := by
  simp only [values, List.mem_map]
  constructor
  · intro entry
    rcases entry with ⟨⟨key, stored⟩, member, rfl⟩
    exact ⟨key, AList.mem_lookup_iff.mpr member⟩
  · intro stored
    rcases stored with ⟨key, found⟩
    exact ⟨⟨key, value⟩, AList.mem_lookup_iff.mp found, rfl⟩

/-- Looking a key up after filtering by key. -/
@[simp]
theorem get?_retain (map : AssocMap K V) (test : K → Bool) (key : K) :
    (map.retain test).get? key = if test key then map.get? key else none := by
  apply Option.ext
  intro value
  have kept :
      value ∈ (map.retain test).get? key ↔
        value ∈ map.get? key ∧ test key := by
    unfold get?
    rw [AList.mem_lookup_iff, AList.mem_lookup_iff]
    simp [retain, List.mem_filter]
  simp only [Option.mem_def] at kept
  by_cases passes : test key <;> simp [kept, passes]

theorem get?_of_retain {map : AssocMap K V} {test : K → Bool} {key : K}
    {value : V} (stored : (map.retain test).get? key = some value) :
    test key = true ∧ map.get? key = some value := by
  rw [get?_retain] at stored
  split at stored
  · exact ⟨‹_›, stored⟩
  · cases stored

omit [DecidableEq K] in
theorem retain_eq_self {map : AssocMap K V} {test : K → Bool}
    (always : ∀ key, test key = true) : map.retain test = map := by
  apply AList.ext
  exact List.filter_eq_self.mpr fun entry _ => always entry.1

theorem getD_of_get? {map : AssocMap K V} {key : K} {value : V} (default : V)
    (found : map.get? key = some value) : map.getD key default = value := by
  simp [getD, found]

/-- A value computed from every entry depends on the keys and on what is found at
them. -/
theorem map_entries_eq {W : Type*} (map : AssocMap K V) (default : V)
    (value : K → V → W) :
    (map.entries.map fun entry => value entry.1 entry.2) =
      map.keys.map fun key => value key (map.getD key default) := by
  have keys : map.keys = map.entries.map Sigma.fst := rfl
  rw [keys, List.map_map]
  apply List.map_congr_left
  rintro ⟨key, stored⟩ member
  have found : map.get? key = some stored := AList.mem_lookup_iff.mpr member
  simp [getD_of_get? default found]

theorem mem_keys_insert {map : AssocMap K V} {key other : K} {value : V} :
    other ∈ (map.insert key value).keys ↔ other = key ∨ other ∈ map.keys := by
  rw [insert]
  simp only [← AList.mem_keys, AList.mem_insert]

theorem keySet_insert (map : AssocMap K V) (key : K) (value : V) :
    (map.insert key value).keySet = Insert.insert key map.keySet := by
  ext other
  simp [mem_keys_insert]

/-- The keys after an insertion into a map that may be missing, when it happens. -/
theorem mem_keySet_insert_ite {stored : Option (AssocMap K V)} {happens : Prop}
    [Decidable happens] {key other : K} {value : V} :
    other ∈ ((if happens then some ((stored.getD ∅).insert key value)
        else stored).getD ∅).keySet ↔
      other ∈ (stored.getD ∅).keySet ∨ happens ∧ key = other := by
  by_cases here : happens
  · rw [if_pos here, Option.getD_some, keySet_insert, Finset.mem_insert]
    constructor
    · intro either
      rcases either with rfl | member
      · exact Or.inr ⟨here, rfl⟩
      · exact Or.inl member
    · intro either
      rcases either with member | ⟨_, rfl⟩
      · exact Or.inr member
      · exact Or.inl rfl
  · simp [here]

/-- One more key that satisfies a condition. -/
theorem forall_keySet_insert {map : AssocMap K V} {holds : K → Prop} {key : K}
    {value : V} (all : ∀ stored ∈ map.keySet, holds stored) (here : holds key) :
    ∀ stored ∈ (map.insert key value).keySet, holds stored := by
  intro stored member
  rw [keySet_insert, Finset.mem_insert] at member
  rcases member with rfl | before
  · exact here
  · exact all stored before

theorem keySet_retain (map : AssocMap K V) (test : K → Bool) :
    (map.retain test).keySet = map.keySet.filter fun key => test key = true := by
  ext key
  rw [mem_keySet, mem_keys_iff, Finset.mem_filter, mem_keySet, mem_keys_iff,
    get?_retain]
  by_cases passes : test key = true <;> simp [passes]

theorem forall_keySet_retain (map : AssocMap K V) (test : K → Bool) :
    ∀ key ∈ (map.retain test).keySet, test key = true := by
  intro key member
  rcases mem_keys_iff.mp member with ⟨value, stored⟩
  exact (get?_of_retain stored).1

/-- Inserting never shrinks a map. -/
theorem len_le_len_insert (map : AssocMap K V) (key : K) (value : V) :
    map.len ≤ (map.insert key value).len := by
  rw [← card_keySet, ← card_keySet, keySet_insert]
  exact Finset.card_le_card (Finset.subset_insert key map.keySet)

/-- A map that a loop fills key by key. -/
theorem get?_foldl_insert (keys : List K) (value : K → V) (start : AssocMap K V)
    (key : K) :
    (keys.foldl (fun map key => map.insert key (value key)) start).get? key =
      if key ∈ keys then some (value key) else start.get? key := by
  induction keys generalizing start with
  | nil => simp
  | cons first rest inductionHypothesis =>
      rw [List.foldl_cons, inductionHypothesis, get?_insert]
      by_cases later : key ∈ rest
      · simp [later]
      · by_cases same : key = first
        · simp [same]
        · simp [later, same]

/-- A loop that fills one row of a map of pairs. -/
theorem get?_foldl_insert_row {R C : Type*} [DecidableEq R] [DecidableEq C] (row : R)
    (columns : List C) (value : C → V) (start : AssocMap (R × C) V) (r : R) (c : C) :
    (columns.foldl (fun map column => map.insert (row, column) (value column))
        start).get? (r, c) =
      if r = row ∧ c ∈ columns then some (value c) else start.get? (r, c) := by
  have filled : columns.foldl
        (fun map column => map.insert (row, column) (value column)) start =
      (columns.map (Prod.mk row)).foldl
        (fun map key => map.insert key (value key.2)) start := by
    rw [List.foldl_map]
  have listed : (r, c) ∈ columns.map (Prod.mk row) ↔ r = row ∧ c ∈ columns := by
    simp [eq_comm, and_comm]
  rw [filled, get?_foldl_insert]
  simp only [listed]

end AssocMap
end SovereignLattice
