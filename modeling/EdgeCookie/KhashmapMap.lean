-- The hash map of the agents is a finite map. Each element of a bucket has a
-- key of its own that belongs there, so a walk over the bucket finds the value
-- that was stored last. Each operation keeps this, as long as it stays inside
-- of the memory of the map.
import EdgeCookie.Khashmap
import EdgeCookie.Runs
import Mathlib.Data.Finmap

namespace edge_cookie.khash

open bytes chain runs

variable {key_size value_size : U32}

/-! ## The history of a map -/

/-- What the operations have left, how many keys were new since the last clear,
and how many keys the clears have dropped. -/
structure History (key_size value_size : U32) where
  present : Finmap fun _ : Vector U8 key_size.toNat => Vector U8 value_size.toNat
  fresh : Nat
  dropped : Nat

namespace History

def start (key_size value_size : U32) : History key_size value_size := ⟨∅, 0, 0⟩

def step (g : History key_size value_size) : Op key_size value_size → History key_size value_size
  | .update key value =>
    { g with
      present := g.present.insert key value
      fresh := if key ∈ g.present then g.fresh else g.fresh + 1 }
  | .delete key => { g with present := g.present.erase key }
  | .clear => ⟨∅, 0, g.dropped + g.present.keys.card⟩

/-- The history after some operations on an empty map. -/
def of (ops : List (Op key_size value_size)) : History key_size value_size :=
  run step (start key_size value_size) ops

end History

/-! ## The elements and the finite map -/

section

variable {hash : Vector U8 key_size.toNat → U32} {index : U32 → Nat}
  {data : Nat → khashmap_elem key_size value_size} {chains : Nat → List Nat}
  {present : Finmap fun _ : Vector U8 key_size.toNat => Vector U8 value_size.toNat}
  {key : Vector U8 key_size.toNat} {value : Vector U8 value_size.toNat} {a b c x : Nat}

/-- The elements of the lists are in the list of their hash, one for each key that is present. -/
structure Stored (hash : Vector U8 key_size.toNat → U32) (index : U32 → Nat)
    (data : Nat → khashmap_elem key_size value_size) (chains : Nat → List Nat)
    (present : Finmap fun _ : Vector U8 key_size.toNat => Vector U8 value_size.toNat) : Prop where
  hashed : ∀ b, ∀ a ∈ chains b, (data a).hash = hash (data a).key
  home : ∀ b, ∀ a ∈ chains b, index (data a).hash = b
  distinct : ∀ b, ∀ a ∈ chains b, ∀ c ∈ chains b, (data a).key = (data c).key → a = c
  content : ∀ k v, present.lookup k = some v ↔ ∃ b, ∃ a ∈ chains b, (data a).key = k ∧
    (data a).value = v

namespace Stored

theorem empty : Stored hash index data (fun _ => []) ∅ where
  hashed := by simp
  home := by simp
  distinct := by simp
  content := by simp

theorem mem_present (h : Stored hash index data chains present) (ha : a ∈ chains b) :
    (data a).key ∈ present :=
  Finmap.mem_of_lookup_eq_some ((h.content _ _).mpr ⟨b, a, ha, rfl, rfl⟩)

theorem bucket_eq (h : Stored hash index data chains present) (ha : a ∈ chains b) :
    b = index (hash (data a).key) := by
  rw [← h.hashed b a ha, h.home b a ha]

/-- A key has one element only. -/
theorem elem_unique (h : Stored hash index data chains present) (ha : a ∈ chains b)
    (hx : x ∈ chains c) (hkey : (data x).key = (data a).key) : x = a := by
  have hcb : c = b := by rw [h.bucket_eq hx, h.bucket_eq ha, hkey]
  exact h.distinct b x (hcb ▸ hx) a ha hkey

/-- The element `a` is written for a key. It may have been in the list of the
key before, with this key, or be a new element for a key that has none. -/
theorem store (h : Stored hash index data chains present) {chains' : Nat → List Nat}
    (hchains : ∀ c x, x ∈ chains' c ↔ (c = index (hash key) ∧ x = a) ∨ (x ∈ chains c ∧ x ≠ a))
    (hkey : ∀ c, ∀ x ∈ chains c, (data x).key = key ↔ x = a) :
    Stored hash index (Function.update data a ⟨hash key, key, value⟩) chains'
      (present.insert key value) where
  hashed := by
    intro c x hx
    rcases (hchains c x).mp hx with ⟨-, rfl⟩ | ⟨hx, hne⟩
    · simp
    · simpa [hne] using h.hashed c x hx
  home := by
    intro c x hx
    rcases (hchains c x).mp hx with ⟨rfl, rfl⟩ | ⟨hx, hne⟩
    · simp
    · simpa [hne] using h.home c x hx
  distinct := by
    intro c x hx y hy hxy
    rcases (hchains c x).mp hx with ⟨-, rfl⟩ | ⟨hx, hxa⟩
    · rcases (hchains c y).mp hy with ⟨-, rfl⟩ | ⟨hy, hya⟩
      · rfl
      · simp only [Function.update_self, Function.update_of_ne hya] at hxy
        exact ((hkey c y hy).mp hxy.symm).symm
    · rcases (hchains c y).mp hy with ⟨-, rfl⟩ | ⟨hy, hya⟩
      · simp only [Function.update_self, Function.update_of_ne hxa] at hxy
        exact (hkey c x hx).mp hxy
      · simp only [Function.update_of_ne hxa, Function.update_of_ne hya] at hxy
        exact h.distinct c x hx y hy hxy
  content := by
    intro k v
    by_cases hk : k = key
    · subst hk
      rw [Finmap.lookup_insert]
      constructor
      · rintro ⟨⟩
        exact ⟨_, a, (hchains _ a).mpr (.inl ⟨rfl, rfl⟩), by simp, by simp⟩
      · rintro ⟨c, x, hx, hxkey, hxvalue⟩
        rcases (hchains c x).mp hx with ⟨-, rfl⟩ | ⟨hx, hne⟩
        · simpa using hxvalue
        · rw [Function.update_of_ne hne] at hxkey
          exact absurd ((hkey c x hx).mp hxkey) hne
    · rw [Finmap.lookup_insert_of_ne _ hk, h.content k v]
      constructor
      · rintro ⟨c, x, hx, hxkey, hxvalue⟩
        have hne : x ≠ a := fun hxa => hk (hxkey.symm.trans ((hkey c x hx).mpr hxa))
        refine ⟨c, x, (hchains c x).mpr (.inr ⟨hx, hne⟩), ?_, ?_⟩
        · rw [Function.update_of_ne hne, hxkey]
        · rw [Function.update_of_ne hne, hxvalue]
      · rintro ⟨c, x, hx, hxkey, hxvalue⟩
        rcases (hchains c x).mp hx with ⟨-, rfl⟩ | ⟨hx, hne⟩
        · exact absurd (by simpa using hxkey.symm) hk
        · rw [Function.update_of_ne hne] at hxkey hxvalue
          exact ⟨c, x, hx, hxkey, hxvalue⟩

/-- The element of a key is taken out. -/
theorem remove (h : Stored hash index data chains present) (hnodup : (chains b).Nodup)
    (ha : a ∈ chains b) (hkey : (data a).key = key) :
    Stored hash index data (Function.update chains b ((chains b).erase a)) (present.erase key) := by
  have hchains : ∀ c x, x ∈ Function.update chains b ((chains b).erase a) c ↔
      x ∈ chains c ∧ x ≠ a := by
    intro c x
    rw [mem_update_chains, hnodup.mem_erase_iff]
    constructor
    · rintro (⟨rfl, hne, hx⟩ | ⟨hc, hx⟩)
      · exact ⟨hx, hne⟩
      · refine ⟨hx, ?_⟩
        rintro rfl
        exact hc ((h.bucket_eq hx).trans (h.bucket_eq ha).symm)
    · rintro ⟨hx, hne⟩
      by_cases hc : c = b
      · exact .inl ⟨hc, hne, hc ▸ hx⟩
      · exact .inr ⟨hc, hx⟩
  refine ⟨?_, ?_, ?_, ?_⟩
  · intro c x hx
    exact h.hashed c x ((hchains c x).mp hx).1
  · intro c x hx
    exact h.home c x ((hchains c x).mp hx).1
  · intro c x hx y hy hxy
    exact h.distinct c x ((hchains c x).mp hx).1 y ((hchains c y).mp hy).1 hxy
  · intro k v
    by_cases hk : k = key
    · subst hk
      rw [Finmap.lookup_erase]
      constructor
      · rintro ⟨⟩
      · rintro ⟨c, x, hx, hxkey, -⟩
        obtain ⟨hx, hne⟩ := (hchains c x).mp hx
        exact absurd (h.elem_unique ha hx (hxkey.trans hkey.symm)) hne
    · rw [Finmap.lookup_erase_ne hk, h.content k v]
      constructor
      · rintro ⟨c, x, hx, hxkey, hxvalue⟩
        refine ⟨c, x, (hchains c x).mpr ⟨hx, ?_⟩, hxkey, hxvalue⟩
        rintro rfl
        exact hk (hxkey.symm.trans hkey)
      · rintro ⟨c, x, hx, hxkey, hxvalue⟩
        exact ⟨c, x, ((hchains c x).mp hx).1, hxkey, hxvalue⟩

end Stored

end

theorem keys_insert {K V : Type} [DecidableEq K] (s : Finmap fun _ : K => V) (k : K) (v : V) :
    (s.insert k v).keys = insert k s.keys := by
  ext x
  rw [Finmap.mem_keys, Finmap.mem_insert, Finset.mem_insert, Finmap.mem_keys]

theorem erase_of_notMem {K V : Type} [DecidableEq K] {s : Finmap fun _ : K => V} {k : K}
    (hk : k ∉ s) :
    s.erase k = s := by
  apply Finmap.ext_lookup
  intro x
  by_cases hx : x = k
  · rw [hx, Finmap.lookup_erase, Finmap.lookup_eq_none.mpr hk]
  · exact Finmap.lookup_erase_ne hx

theorem ofNat_succ (n : Nat) : BitVec.ofNat 32 (n + 1) = BitVec.ofNat 32 n + 1 :=
  BitVec.ofNat_add n 1

theorem ofNat_succ_sub_one (n : Nat) : BitVec.ofNat 32 (n + 1) - 1 = BitVec.ofNat 32 n := by
  rw [ofNat_succ, BitVec.add_sub_cancel]

/-! ## The invariant -/

variable {jhash : Vector U8 key_size.toNat → U32 → U32} {m : khashmap key_size value_size}
  {g : History key_size value_size} {chains : Nat → List Nat} {max_entries : U32} {fuel : Nat}
  {key : Vector U8 key_size.toNat} {value : Vector U8 value_size.toNat}

/-- The sizes of the map are the ones that `khashmap_init` has set. -/
def khashmap.OfSize (m : khashmap key_size value_size) (max_entries : U32) : Prop :=
  m.max_entries = max_entries ∧ m.n_buckets = bucketCount max_entries ∧
    m.elem_size = elemSize key_size value_size

/-- The elements in the buckets, the area and `count`, and what they say of the
history of the map. -/
structure Holds (jhash : Vector U8 key_size.toNat → U32 → U32) (max_entries : U32)
    (m : khashmap key_size value_size) (g : History key_size value_size) (chains : Nat → List Nat) :
    Prop where
  sizes : m.OfSize max_entries
  lists : Lists m.cells (· < m.n_buckets.toNat) id chains
  stored : Stored (jhash · m.hashrnd) m.bucketIndex m.data chains g.present
  slots : ∀ b, ∀ a ∈ chains b, ∃ i < g.fresh, a = m.elems + i * m.elem_size.toNat
  next_free : m.next_free = m.elems + g.fresh * m.elem_size.toNat
  fresh_le : g.fresh ≤ max_entries.toNat
  card_le : g.present.keys.card ≤ g.fresh
  count : m.count = BitVec.ofNat 32 (g.present.keys.card + g.dropped)

theorem bucketCount_le (max_entries : U32) : (bucketCount max_entries).toNat ≤ 2 ^ 63 := by
  have hlt := (bucketCount max_entries).isLt
  omega

theorem lists_initHeads (c : Cells Nat Nat Nat) (max_entries : U32) :
    Lists (initHeads c (bucketCount max_entries).toNat) (· < (bucketCount max_entries).toNat) id
      fun _ => [] where
  linked := fun _ hb => chain_initHeads c (bucketCount_le max_entries) hb
  nodup := fun _ => List.nodup_nil
  apart := fun _ _ _ => List.disjoint_nil_left _

theorem khashmap_init_holds (jhash : Vector U8 key_size.toNat → U32 → U32) (elems : Nat)
    (max_entries : U32) :
    Holds jhash max_entries (khashmap_init key_size value_size elems max_entries)
      (History.start key_size value_size) fun _ => [] where
  sizes := ⟨rfl, rfl, rfl⟩
  lists := lists_initHeads _ max_entries
  stored := Stored.empty
  slots := by simp
  next_free := by simp [khashmap_init, History.start]
  fresh_le := Nat.zero_le _
  card_le := Nat.zero_le _
  count := rfl

namespace Holds

/-! ## A lookup -/

/-- The elements of a bucket are at most as many as were handed out. -/
theorem length_le (h : Holds jhash max_entries m g chains) (b : Nat) :
    (chains b).length ≤ max_entries.toNat := by
  have hsub : chains b ⊆ (List.range g.fresh).map fun i => m.elems + i * m.elem_size.toNat := by
    intro a ha
    obtain ⟨i, hi, rfl⟩ := h.slots b a ha
    exact List.mem_map.mpr ⟨i, List.mem_range.mpr hi, rfl⟩
  have hle := (List.subperm_of_subset (h.lists.nodup b) hsub).length_le
  rw [List.length_map, List.length_range] at hle
  exact hle.trans h.fresh_le

theorem n_buckets_eq_zero_iff (h : Holds jhash max_entries m g chains) :
    m.n_buckets = 0 ↔ 2 ^ 31 < max_entries.toNat := by
  rw [h.sizes.2.1]
  exact bucketCount_eq_zero_iff max_entries

theorem bucketIndex_lt (h : Holds jhash max_entries m g chains) (hmax : max_entries.toNat ≤ 2 ^ 31)
    (hash : U32) : m.bucketIndex hash < m.n_buckets.toNat := by
  have hne : m.n_buckets ≠ 0 := fun hzero => Nat.not_lt.mpr hmax (h.n_buckets_eq_zero_iff.mp hzero)
  have hle : (hash &&& (m.n_buckets - 1)).toNat ≤ (m.n_buckets - 1).toNat := by
    rw [BitVec.toNat_and]
    exact Nat.and_le_right
  have hlast : (m.n_buckets - 1).toNat < m.n_buckets.toNat := by bv_omega
  exact Nat.lt_of_le_of_lt hle hlast

theorem select_bucket_ok (h : Holds jhash max_entries m g chains)
    (hmax : max_entries.toNat ≤ 2 ^ 31) (hash : U32) :
    m.select_bucket hash = .ok (m.bucketIndex hash) := by
  rw [khashmap.select_bucket, if_pos (h.bucketIndex_lt hmax hash)]

theorem select_bucket_error (h : Holds jhash max_entries m g chains)
    (hmax : 2 ^ 31 < max_entries.toNat) (hash : U32) : m.select_bucket hash = .error .bounds := by
  have hzero : m.n_buckets.toNat = 0 := by
    rw [h.n_buckets_eq_zero_iff.mpr hmax]
    rfl
  rw [khashmap.select_bucket, if_neg (by omega)]

/-- Both lookups find the element with the key in its bucket, or nothing when
the key is not present. -/
theorem find (h : Holds jhash max_entries m g chains) (hmax : max_entries.toNat ≤ 2 ^ 31)
    (hfuel : max_entries.toNat < fuel) (key : Vector U8 key_size.toNat) :
    let hash := jhash key m.hashrnd
    let b := m.bucketIndex hash
    ∃ found, m.lookup_elem_raw fuel b hash key = .ok found ∧
      m.lookup_nulls_elem_raw fuel b hash key fuel = .ok found ∧
      ((∃ a ∈ chains b, found = some a ∧ (m.data a).key = key) ∨
        (found = none ∧ key ∉ g.present)) := by
  intro hash b
  have hwalk : m.cells.walk (m.matchesKey hash key) fuel (m.cells.first b) = _ :=
    walk_eq (h.lists.linked b (h.bucketIndex_lt hmax hash))
      (Nat.lt_of_le_of_lt (h.length_le b) hfuel)
  obtain ⟨again, rfl⟩ := Nat.exists_eq_succ_of_ne_zero (Nat.ne_zero_of_lt hfuel)
  refine ⟨(chains b).find? (m.matchesKey hash key), ?_⟩
  rcases hfind : (chains b).find? (m.matchesKey hash key) with _ | a
  · -- the walk ends at the marker of the bucket, so there is no second one
    rw [hfind] at hwalk
    refine ⟨?_, ?_, .inr ⟨rfl, ?_⟩⟩
    · rw [khashmap.lookup_elem_raw, hwalk]
      rfl
    · rw [khashmap.lookup_nulls_elem_raw, hwalk]
      simp [b]
    · intro hmem
      obtain ⟨v, hv⟩ := Finmap.mem_iff.mp hmem
      obtain ⟨c, a, ha, hkey, -⟩ := (h.stored.content key v).mp hv
      have hhash : (m.data a).hash = hash := by rw [h.stored.hashed c a ha, hkey]
      have hcb : b = c := by rw [← h.stored.home c a ha, hhash]
      have hno := List.find?_eq_none.mp hfind a (hcb ▸ ha)
      exact hno (by simp [khashmap.matchesKey, hhash, hkey])
  · rw [hfind] at hwalk
    have hmatch := List.find?_some hfind
    refine ⟨?_, ?_, .inl ⟨a, List.mem_of_find?_eq_some hfind, rfl, ?_⟩⟩
    · rw [khashmap.lookup_elem_raw, hwalk]
      rfl
    · rw [khashmap.lookup_nulls_elem_raw, hwalk]
      rfl
    · simp only [khashmap.matchesKey, Bool.and_eq_true, beq_iff_eq] at hmatch
      exact hmatch.2

theorem lookup_spec (h : Holds jhash max_entries m g chains) (hmax : max_entries.toNat ≤ 2 ^ 31)
    (hfuel : max_entries.toNat < fuel) (key : Vector U8 key_size.toNat) :
    m.khashmap_lookup_elem jhash fuel key = .ok (g.present.lookup key) := by
  obtain ⟨found, -, hfound, hcase⟩ := h.find hmax hfuel key
  rw [khashmap.khashmap_lookup_elem, h.select_bucket_ok hmax]
  dsimp only [bind, Except.bind]
  rw [hfound]
  rcases hcase with ⟨a, ha, rfl, hkey⟩ | ⟨rfl, hnot⟩
  · have hlook := (h.stored.content key (m.data a).value).mpr ⟨_, a, ha, hkey, rfl⟩
    rw [hlook]
    rfl
  · rw [Finmap.lookup_eq_none.mpr hnot]
    rfl

/-! ## An update -/

/-- The value of a key that is there is overwritten in its element. -/
theorem overwrite (h : Holds jhash max_entries m g chains) {b a : Nat} (ha : a ∈ chains b)
    (hkey : (m.data a).key = key) :
    Holds jhash max_entries (m.setElem a ⟨jhash key m.hashrnd, key, value⟩)
      (g.step (.update key value)) chains := by
  have hmem : key ∈ g.present := hkey ▸ h.stored.mem_present ha
  have hkeys : (g.present.insert key value).keys = g.present.keys := by
    rw [keys_insert, Finset.insert_eq_of_mem (Finmap.mem_keys.mpr hmem)]
  have hfresh : (g.step (.update key value)).fresh = g.fresh := if_pos hmem
  have hb : b = m.bucketIndex (jhash key m.hashrnd) := hkey ▸ h.stored.bucket_eq ha
  refine {
    sizes := h.sizes
    lists := h.lists
    stored := h.stored.store ?_ ?_
    slots := hfresh ▸ h.slots
    next_free := hfresh ▸ h.next_free
    fresh_le := hfresh ▸ h.fresh_le
    card_le := ?_
    count := ?_ }
  · intro c x
    constructor
    · intro hx
      by_cases hxa : x = a
      · subst hxa
        exact .inl ⟨hkey ▸ h.stored.bucket_eq hx, rfl⟩
      · exact .inr ⟨hx, hxa⟩
    · rintro (⟨rfl, rfl⟩ | ⟨hx, -⟩)
      · exact hb ▸ ha
      · exact hx
  · intro c x hx
    constructor
    · intro hxkey
      exact h.stored.elem_unique ha hx (hxkey.trans hkey.symm)
    · rintro rfl
      exact hkey
  · rw [hfresh]
    exact (congrArg Finset.card hkeys).trans_le h.card_le
  · exact h.count.trans (by rw [History.step, hkeys])

/-- The bytes that are handed out next belong to no element. -/
theorem next_free_new (h : Holds jhash max_entries m g chains) (hsize : 0 < m.elem_size.toNat)
    (b : Nat) :
    m.next_free ∉ chains b := by
  intro hmem
  obtain ⟨i, hi, heq⟩ := h.slots b _ hmem
  have hlt : i * m.elem_size.toNat < g.fresh * m.elem_size.toNat :=
    Nat.mul_lt_mul_of_pos_right hi hsize
  rw [h.next_free] at heq
  omega

/-- A new element fits when its size does, and the area was not used up since the last clear. -/
theorem inside_next_free_iff (h : Holds jhash max_entries m g chains) :
    m.Inside m.next_free ↔
      24 + rounded key_size + rounded value_size < 2 ^ 32 ∧ g.fresh < max_entries.toNat := by
  rw [khashmap.Inside, ← and_assoc, h.sizes.2.2, elem_fits_iff, h.next_free, h.sizes.1, h.sizes.2.2]
  refine and_congr_right fun hfits => ?_
  have hpos := elemSize_pos hfits
  have hmul : g.fresh * (elemSize key_size value_size).toNat +
      (elemSize key_size value_size).toNat =
        (elemSize key_size value_size).toNat * (g.fresh + 1) := by
    rw [Nat.mul_succ, Nat.mul_comm]
  rw [Nat.add_assoc, hmul, Nat.add_le_add_iff_left, Nat.mul_le_mul_left_iff hpos]
  exact Nat.succ_le_iff

/-- A new key gets the next element of the area. -/
theorem add (h : Holds jhash max_entries m g chains) (hmax : max_entries.toNat ≤ 2 ^ 31)
    (hkey : key ∉ g.present) (hroom : m.Inside m.next_free) :
    let b := m.bucketIndex (jhash key m.hashrnd)
    Holds jhash max_entries ((m.addElem b).setElem m.next_free ⟨jhash key m.hashrnd, key, value⟩)
      (g.step (.update key value)) (Function.update chains b (m.next_free :: chains b)) := by
  intro b
  obtain ⟨hfits, hlt⟩ := h.inside_next_free_iff.mp hroom
  have hsize : 0 < m.elem_size.toNat := h.sizes.2.2 ▸ elemSize_pos hfits
  have hnew := h.next_free_new hsize
  have hcard : (g.present.insert key value).keys.card = g.present.keys.card + 1 := by
    rw [keys_insert, Finset.card_insert_of_notMem (mt Finmap.mem_keys.mp hkey)]
  have hfresh : (g.step (.update key value)).fresh = g.fresh + 1 := if_neg hkey
  have hchains := mem_cons_chains (h := b) hnew
  refine {
    sizes := h.sizes
    lists := h.lists.insertFirst (h.bucketIndex_lt hmax _) hnew
    stored := h.stored.store hchains ?_
    slots := ?_
    next_free := ?_
    fresh_le := hfresh ▸ hlt
    card_le := ?_
    count := ?_ }
  · intro c x hx
    constructor
    · intro hxkey
      exact absurd (hxkey ▸ h.stored.mem_present hx) hkey
    · rintro rfl
      exact absurd hx (hnew c)
  · intro c x hx
    rw [hfresh]
    rcases (hchains c x).mp hx with ⟨-, rfl⟩ | ⟨hx, -⟩
    · exact ⟨g.fresh, Nat.lt_succ_self _, h.next_free⟩
    · obtain ⟨i, hi, heq⟩ := h.slots c x hx
      exact ⟨i, Nat.lt_succ_of_lt hi, heq⟩
  · rw [hfresh, Nat.succ_mul, ← Nat.add_assoc]
    exact congrArg (· + m.elem_size.toNat) h.next_free
  · rw [hfresh]
    exact hcard.trans_le (Nat.succ_le_succ h.card_le)
  · have hcount : m.count + 1 = BitVec.ofNat 32 (g.present.keys.card + 1 + g.dropped) := by
      rw [h.count, Nat.add_right_comm, ofNat_succ]
    exact hcount.trans (by rw [History.step, hcard])

/-! ## A delete and a clear -/

/-- The element of a key is taken out of its bucket. Its bytes stay in use. -/
theorem delete (h : Holds jhash max_entries m g chains) {b a : Nat}
    (ha : a ∈ chains b) (hb : b < m.n_buckets.toNat) (hkey : (m.data a).key = key) :
    ∃ cells, m.cells.remove a = some cells ∧
      Holds jhash max_entries { m with cells, count := m.count - 1 } (g.step (.delete key))
        (Function.update chains b ((chains b).erase a)) := by
  have hmem : key ∈ g.present := hkey ▸ h.stored.mem_present ha
  obtain ⟨cells, hcells, hlists⟩ := h.lists.remove hb ha
  have hcard : (g.present.erase key).keys.card + 1 = g.present.keys.card := by
    rw [Finmap.keys_erase, Finset.card_erase_add_one (Finmap.mem_keys.mpr hmem)]
  refine ⟨cells, hcells, {
    sizes := h.sizes
    lists := hlists
    stored := h.stored.remove (h.lists.nodup b) ha hkey
    slots := ?_
    next_free := h.next_free
    fresh_le := h.fresh_le
    card_le := ?_
    count := ?_ }⟩
  · intro c x hx
    rcases mem_update_chains.mp hx with ⟨rfl, hx⟩ | ⟨-, hx⟩
    · exact h.slots _ x (List.mem_of_mem_erase hx)
    · exact h.slots c x hx
  · have hle := h.card_le
    rw [← hcard] at hle
    exact (Nat.le_succ _).trans hle
  · have hcount : m.count - 1 = BitVec.ofNat 32 ((g.present.erase key).keys.card + g.dropped) := by
      rw [h.count, ← hcard, Nat.add_right_comm, ofNat_succ_sub_one]
    exact hcount

theorem clear (h : Holds jhash max_entries m g chains) :
    Holds jhash max_entries m.khashmap_clear.2 (g.step .clear) fun _ => [] where
  sizes := h.sizes
  lists := by
    have hlists := lists_initHeads m.cells max_entries
    rw [← h.sizes.2.1] at hlists
    exact hlists
  stored := Stored.empty
  slots := by simp
  next_free := by simp [khashmap.khashmap_clear, History.step]
  fresh_le := Nat.zero_le _
  card_le := Nat.zero_le _
  count := h.count.trans (by simp [History.step, Nat.add_comm])

/-! ## The operations -/

/-- What an update does: it overwrites the element of its key, or takes the next one of the area. -/
theorem update_cases (h : Holds jhash max_entries m g chains) (hmax : max_entries.toNat ≤ 2 ^ 31)
    (hfuel : max_entries.toNat < fuel) (key : Vector U8 key_size.toNat)
    (value : Vector U8 value_size.toNat) :
    let hash := jhash key m.hashrnd
    let b := m.bucketIndex hash
    (∃ a ∈ chains b, (m.data a).key = key ∧
      m.khashmap_update_elem jhash fuel key value = .ok (0, m.setElem a ⟨hash, key, value⟩)) ∨
    (key ∉ g.present ∧ m.khashmap_update_elem jhash fuel key value =
      if m.Inside m.next_free then .ok (0, (m.addElem b).setElem m.next_free ⟨hash, key, value⟩)
      else .error .bounds) := by
  intro hash b
  obtain ⟨found, hfound, -, hcase⟩ := h.find hmax hfuel key
  rw [khashmap.khashmap_update_elem, h.select_bucket_ok hmax]
  dsimp only [bind, Except.bind]
  rw [hfound]
  rcases hcase with ⟨a, ha, rfl, hkey⟩ | ⟨rfl, hnot⟩
  · exact .inl ⟨a, ha, hkey, rfl⟩
  · exact .inr ⟨hnot, rfl⟩

theorem update_spec (h : Holds jhash max_entries m g chains) (hmax : max_entries.toNat ≤ 2 ^ 31)
    (hfuel : max_entries.toNat < fuel) (key : Vector U8 key_size.toNat)
    (value : Vector U8 value_size.toNat) (hroom : key ∈ g.present ∨ m.Inside m.next_free) :
    ∃ m' chains', m.khashmap_update_elem jhash fuel key value = .ok (0, m') ∧
      Holds jhash max_entries m' (g.step (.update key value)) chains' := by
  rcases h.update_cases hmax hfuel key value with ⟨a, ha, hkey, hupdate⟩ | ⟨hnot, hupdate⟩
  · exact ⟨_, chains, hupdate, h.overwrite ha hkey⟩
  · have hinside := hroom.resolve_left hnot
    rw [if_pos hinside] at hupdate
    exact ⟨_, _, hupdate, h.add hmax hnot hinside⟩

theorem update_error (h : Holds jhash max_entries m g chains) (hmax : max_entries.toNat ≤ 2 ^ 31)
    (hfuel : max_entries.toNat < fuel) (key : Vector U8 key_size.toNat)
    (value : Vector U8 value_size.toNat) (hnot : key ∉ g.present) (hroom : ¬ m.Inside m.next_free) :
    m.khashmap_update_elem jhash fuel key value = .error .bounds := by
  rcases h.update_cases hmax hfuel key value with ⟨a, ha, rfl, -⟩ | ⟨-, hupdate⟩
  · exact absurd (h.stored.mem_present ha) hnot
  · rw [hupdate, if_neg hroom]

/-- A delete says whether the key was present, and changes nothing when it was not. -/
theorem delete_spec (h : Holds jhash max_entries m g chains) (hmax : max_entries.toNat ≤ 2 ^ 31)
    (hfuel : max_entries.toNat < fuel) (key : Vector U8 key_size.toNat) :
    ∃ m' chains', m.khashmap_delete_elem jhash fuel key =
      .ok (if key ∈ g.present then 0 else 2, m') ∧
      Holds jhash max_entries m' (g.step (.delete key)) chains' ∧ (key ∉ g.present → m' = m) := by
  obtain ⟨found, hfound, -, hcase⟩ := h.find hmax hfuel key
  rw [khashmap.khashmap_delete_elem, h.select_bucket_ok hmax]
  dsimp only [bind, Except.bind]
  rw [hfound]
  rcases hcase with ⟨a, ha, rfl, hkey⟩ | ⟨rfl, hnot⟩
  · have hmem : key ∈ g.present := hkey ▸ h.stored.mem_present ha
    obtain ⟨cells, hcells, hholds⟩ := h.delete ha (h.bucketIndex_lt hmax _) hkey
    refine ⟨{ m with cells, count := m.count - 1 }, _, ?_, hholds, absurd hmem⟩
    dsimp only
    rw [hcells, if_pos hmem]
    rfl
  · have hsame : g.step (.delete key) = g := by
      rw [History.step, erase_of_notMem hnot]
    refine ⟨m, chains, ?_, hsame.symm ▸ h, fun _ => rfl⟩
    rw [if_neg hnot]
    rfl

end Holds

end edge_cookie.khash
