-- Runs of the hash map of the agents. From `khashmap_init` on each hash has its
-- bucket, as long as the number of buckets fits into 32 bits, and the map is a
-- finite map, as long as the element size does. The area of the elements
-- and `count` follow the history of the map less well: an element that was
-- deleted keeps its bytes until the map is cleared, and a clear leaves `count`
-- as it is.
import EdgeCookie.KhashmapMap

namespace edge_cookie.khash

open bytes chain runs

variable {key_size value_size : U32} {jhash : Vector U8 key_size.toNat → U32 → U32}
  {m : khashmap key_size value_size} {g : History key_size value_size} {chains : Nat → List Nat}
  {max_entries : U32} {fuel : Nat}

/-! ## Runs -/

/-- The operations that stay inside of the memory of the map: there is a bucket
for the key, and a new key has room for its element. -/
def Allowed (max_entries : U32) (g : History key_size value_size) : Op key_size value_size → Prop
  | .update key _ => max_entries.toNat ≤ 2 ^ 31 ∧ (key ∈ g.present ∨
      (24 + rounded key_size + rounded value_size < 2 ^ 32 ∧ g.fresh < max_entries.toNat))
  | .delete _ => max_entries.toNat ≤ 2 ^ 31
  | .clear => True

theorem step_ok (h : Holds jhash max_entries m g chains) (hfuel : max_entries.toNat < fuel)
    {op : Op key_size value_size} (hop : Allowed max_entries g op) :
    ∃ m' chains', step jhash fuel m op = .ok m' ∧
      Holds jhash max_entries m' (g.step op) chains' := by
  cases op with
  | update key value =>
    have hroom : key ∈ g.present ∨ m.Inside m.next_free :=
      hop.2.imp_right h.inside_next_free_iff.mpr
    obtain ⟨m', chains', hupdate, hholds⟩ := h.update_spec hop.1 hfuel key value hroom
    refine ⟨m', chains', ?_, hholds⟩
    rw [step, hupdate]
    rfl
  | delete key =>
    obtain ⟨m', chains', hdelete, hholds, -⟩ := h.delete_spec hop hfuel key
    refine ⟨m', chains', ?_, hholds⟩
    rw [step, hdelete]
    rfl
  | clear => exact ⟨_, _, rfl, h.clear⟩

theorem step_error (h : Holds jhash max_entries m g chains) (hfuel : max_entries.toNat < fuel)
    {op : Op key_size value_size} (hop : ¬ Allowed max_entries g op) :
    step jhash fuel m op = .error .bounds := by
  cases op with
  | update key value =>
    rw [step]
    by_cases hmax : max_entries.toNat ≤ 2 ^ 31
    · have hrest := not_or.mp fun hr => hop ⟨hmax, hr⟩
      rw [h.update_error hmax hfuel key value hrest.1 (mt h.inside_next_free_iff.mp hrest.2)]
      rfl
    · rw [khashmap.khashmap_update_elem, h.select_bucket_error (Nat.lt_of_not_le hmax)]
      rfl
  | delete key =>
    rw [step, khashmap.khashmap_delete_elem, h.select_bucket_error (Nat.lt_of_not_le hop)]
    rfl
  | clear => exact absurd trivial hop

theorem runOps_cons (m : khashmap key_size value_size) (op : Op key_size value_size)
    (ops : List (Op key_size value_size)) :
    runOps jhash fuel m (op :: ops) = (step jhash fuel m op).bind (runOps jhash fuel · ops) := by
  rw [runOps, List.foldlM_cons]
  rfl

/-- A run of operations that each stay inside ends, and the map holds what the
operations have left. -/
theorem runOps_ok (hfuel : max_entries.toNat < fuel) {ops : List (Op key_size value_size)}
    (h : Holds jhash max_entries m g chains)
    (hops : Along History.step (Allowed max_entries) g ops) :
    ∃ m' chains', runOps jhash fuel m ops = .ok m' ∧
      Holds jhash max_entries m' (run History.step g ops) chains' := by
  induction ops generalizing m g chains with
  | nil => exact ⟨m, chains, rfl, h⟩
  | cons op ops ih =>
    obtain ⟨m', chains', hstep, hholds⟩ := step_ok h hfuel hops.1
    rw [runOps_cons, hstep]
    exact ih hholds hops.2

/-- A run with an operation that does not stay inside stops there. -/
theorem runOps_error (hfuel : max_entries.toNat < fuel) {ops : List (Op key_size value_size)}
    (h : Holds jhash max_entries m g chains)
    (hops : ¬ Along History.step (Allowed max_entries) g ops) :
    runOps jhash fuel m ops = .error .bounds := by
  induction ops generalizing m g chains with
  | nil => exact absurd trivial hops
  | cons op ops ih =>
    rw [runOps_cons]
    by_cases hop : Allowed max_entries g op
    · obtain ⟨m', chains', hstep, hholds⟩ := step_ok h hfuel hop
      rw [hstep]
      exact ih hholds fun hrest => hops ⟨hop, hrest⟩
    · rw [step_error h hfuel hop]
      rfl

/-! ## The table of the buckets -/

/-- The number of buckets is the smallest power of two that is not below
`max_entries`, and behind any operations each hash has a bucket, with its own
number at the end of the list. -/
structure TableRight (key_size value_size : U32) (elems : Nat) (max_entries : U32) : Prop where
  size : IsLeast {n | (∃ e, n = 2 ^ e) ∧ max_entries.toNat ≤ n}
    (khashmap_init key_size value_size elems max_entries).n_buckets.toNat
  bucket : ∀ jhash fuel ops m, max_entries.toNat < fuel →
    runOps jhash fuel (khashmap_init key_size value_size elems max_entries) ops = .ok m →
    ∀ hash, m.bucketIndex hash < m.n_buckets.toNat ∧
      m.cells.walk (fun _ => false) fuel (m.cells.first (m.bucketIndex hash)) =
        some (.inr (m.bucketIndex hash))

/-- The bucket of a hash ends in its number. -/
theorem Holds.bucket_ends (h : Holds jhash max_entries m g chains)
    (hmax : max_entries.toNat ≤ 2 ^ 31) (hfuel : max_entries.toNat < fuel) (hash : U32) :
    m.cells.walk (fun _ => false) fuel (m.cells.first (m.bucketIndex hash)) =
      some (.inr (m.bucketIndex hash)) := by
  have hchain := h.lists.linked _ (h.bucketIndex_lt hmax hash)
  have hnone : (chains (m.bucketIndex hash)).find? (fun _ => false) = none := by simp
  have hwalk := walk_eq (p := fun _ => false) hchain (Nat.lt_of_le_of_lt (h.length_le _) hfuel)
  rw [hnone] at hwalk
  exact hwalk

theorem not_tableRight {elems : Nat}
    (h : (khashmap_init key_size value_size elems max_entries).n_buckets = 0) :
    ¬ TableRight key_size value_size elems max_entries := by
  intro hright
  obtain ⟨⟨e, he⟩, -⟩ := hright.size.1
  rw [h] at he
  exact absurd he (Nat.ne_of_lt (Nat.two_pow_pos e))

/-- The table is right just when its size fits into 32 bits. -/
theorem bucket_table_is_right_iff (key_size value_size : U32) (elems : Nat) (max_entries : U32)
    (hone : 1 ≤ max_entries.toNat) :
    TableRight key_size value_size elems max_entries ↔ max_entries.toNat ≤ 2 ^ 31 := by
  constructor
  · intro h
    by_contra hmax
    exact not_tableRight ((bucketCount_eq_zero_iff max_entries).mpr (Nat.lt_of_not_le hmax)) h
  · intro hmax
    refine ⟨isLeast_bucketCount hone hmax, ?_⟩
    intro jhash fuel ops m hfuel hrun hash
    have hinit :
        Holds jhash max_entries (khashmap_init key_size value_size elems max_entries) _ _ :=
      khashmap_init_holds jhash elems max_entries
    by_cases hops : Along History.step (Allowed max_entries) (History.start key_size value_size) ops
    · obtain ⟨m', chains, hrun', hholds⟩ := runOps_ok hfuel hinit hops
      rw [hrun'] at hrun
      cases hrun
      exact ⟨hholds.bucketIndex_lt hmax hash, hholds.bucket_ends hmax hfuel hash⟩
    · rw [runOps_error hfuel hinit hops] at hrun
      cases hrun

/-- Five entries have eight buckets. -/
theorem bucket_table_of_five : (bucketCount 5).toNat = 8 ∧ TableRight 4 8 4096 5 :=
  ⟨by rfl, (bucket_table_is_right_iff 4 8 4096 5 (by decide)).mpr (by decide)⟩

/-- With `2^31 + 1` entries there is no bucket, and the hash 3 selects the one with the number 3. -/
theorem a_large_table_has_no_bucket :
    (khashmap_init 4 8 4096 0x80000001).n_buckets = 0 ∧
      (khashmap_init 4 8 4096 0x80000001).bucketIndex 3 = 3 ∧ ¬ TableRight 4 8 4096 0x80000001 := by
  have hzero : (khashmap_init 4 8 4096 0x80000001).n_buckets = 0 :=
    (bucketCount_eq_zero_iff 0x80000001).mpr (by decide)
  refine ⟨hzero, ?_, not_tableRight hzero⟩
  rw [khashmap.bucketIndex, hzero]
  rfl

/-! ## The map is a finite map -/

/-- After the operations the map answers as the finite map that they make. -/
def IsMap (jhash : Vector U8 key_size.toNat → U32 → U32) (fuel : Nat)
    (m₀ : khashmap key_size value_size) (ops : List (Op key_size value_size)) : Prop :=
  ∃ m, runOps jhash fuel m₀ ops = .ok m ∧
    (∀ key, m.khashmap_lookup_elem jhash fuel key = .ok ((History.of ops).present.lookup key)) ∧
    ∀ key, ∃ m', m.khashmap_delete_elem jhash fuel key =
        .ok (if key ∈ (History.of ops).present then 0 else 2, m') ∧
      (key ∉ (History.of ops).present → m' = m)

/-- Since the last clear at most `max_entries` keys were new, this one included. -/
def Within (max_entries : U32) (g : History key_size value_size) : Op key_size value_size → Prop
  | .update key _ => key ∈ g.present ∨ g.fresh < max_entries.toNat
  | _ => True

theorem allowed_of_within (hmax : max_entries.toNat ≤ 2 ^ 31)
    (hfits : 24 + rounded key_size + rounded value_size < 2 ^ 32) {op : Op key_size value_size}
    (hop : Within max_entries g op) : Allowed max_entries g op := by
  cases op with
  | update key value => exact ⟨hmax, hop.imp_right fun hlt => ⟨hfits, hlt⟩⟩
  | delete key => exact hmax
  | clear => trivial

/-- The hash map is a finite map, just when the size of an element fits into the
32 bits of `elem_size`. -/
theorem khashmap_is_a_map_iff (jhash : Vector U8 key_size.toNat → U32 → U32) (elems : Nat)
    (hone : 1 ≤ max_entries.toNat) (hmax : max_entries.toNat ≤ 2 ^ 31) :
    (∀ ops : List (Op key_size value_size),
      Along History.step (Within max_entries) (History.start key_size value_size) ops →
      ∀ fuel > max_entries.toNat,
        IsMap jhash fuel (khashmap_init key_size value_size elems max_entries) ops) ↔
    24 + rounded key_size + rounded value_size < 2 ^ 32 := by
  have hinit : Holds jhash max_entries (khashmap_init key_size value_size elems max_entries) _ _ :=
    khashmap_init_holds jhash elems max_entries
  constructor
  · intro hall
    by_contra hfits
    -- a single update is enough
    let ops : List (Op key_size value_size) := [.update (.replicate _ 0) (.replicate _ 0)]
    obtain ⟨m, hrun, -⟩ :=
      hall ops ⟨.inr hone, trivial⟩ (max_entries.toNat + 1) (Nat.lt_succ_self _)
    have hnot :
        ¬ Along History.step (Allowed max_entries) (History.start key_size value_size) ops := by
      rintro ⟨⟨-, hmem | ⟨hfits', -⟩⟩, -⟩
      · exact Finmap.notMem_empty hmem
      · exact hfits hfits'
    rw [runOps_error (Nat.lt_succ_self _) hinit hnot] at hrun
    cases hrun
  · intro hfits ops hops fuel hfuel
    have hallowed := along_mono (fun _ _ hop => allowed_of_within hmax hfits hop) hops
    obtain ⟨m, chains, hrun, hholds⟩ := runOps_ok hfuel hinit hallowed
    refine ⟨m, hrun, ?_, ?_⟩
    · intro key
      exact hholds.lookup_spec hmax hfuel key
    · intro key
      obtain ⟨m', -, hdelete, -, hsame⟩ := hholds.delete_spec hmax hfuel key
      exact ⟨m', hdelete, hsame⟩

/-- A map of two entries with keys of 4 bytes and values of 8 bytes, and a hash
that is the same for all keys. -/
theorem khashmap_is_a_map_pair :
    1 ≤ (2 : U32).toNat ∧ (2 : U32).toNat ≤ 2 ^ 31 ∧ ∀ ops : List (Op 4 8),
      Along History.step (Within 2) (History.start 4 8) ops →
      ∀ fuel > 2, IsMap (fun _ _ => 7) fuel (khashmap_init 4 8 4096 2) ops :=
  ⟨by decide, by decide,
    (khashmap_is_a_map_iff (fun _ _ => 7) 4096 (by decide) (by decide)).mpr (by decide)⟩

/-- With keys and values of `2^31` bytes the size of an element is 24. The area
of a map with one entry has 24 bytes then, and the first update writes the key
behind it. -/
theorem a_large_key_is_written_outside :
    (elemSize 2147483648 2147483648).toNat = 24 ∧
      Along History.step (Within 1) (History.start 2147483648 2147483648)
        [.update (.replicate _ 0) (.replicate _ 0)] ∧
      runOps (fun _ _ => 0) 2 (khashmap_init 2147483648 2147483648 4096 1)
        [.update (.replicate _ 0) (.replicate _ 0)] = .error .bounds := by
  have hfits : ¬ 24 + rounded 2147483648 + rounded 2147483648 < 2 ^ 32 := by decide
  refine ⟨by decide, ⟨.inr Nat.one_pos, trivial⟩, ?_⟩
  refine runOps_error (by decide) (khashmap_init_holds _ 4096 1) ?_
  rintro ⟨⟨-, hmem | hroom⟩, -⟩
  · exact Finmap.notMem_empty hmem
  · exact hfits hroom.1

/-! ## The area and the number of keys -/

/-- `count` is the number of keys when the clears have dropped none, up to a
multiple of `2^32`, and the number fits into an `int`. -/
theorem size_eq_iff (h : Holds jhash max_entries m g chains) :
    m.khashmap_size = g.present.keys.card ↔ g.present.keys.card < 2 ^ 31 ∧
    g.dropped % 2 ^ 32 = 0 := by
  have hcard := h.card_le.trans h.fresh_le
  have hlt := max_entries.isLt
  have hcount : m.count.toNat = (g.present.keys.card + g.dropped) % 2 ^ 32 := by
    rw [h.count, BitVec.toNat_ofNat]
  have hsize : m.khashmap_size =
      m.count.toNat + if 2 ^ 31 ≤ m.count.toNat then 2 ^ 64 - 2 ^ 32 else 0 := by
    have hwide : m.count.toNat % 2 ^ 64 = m.count.toNat :=
      Nat.mod_eq_of_lt (Nat.lt_of_lt_of_le m.count.isLt (by decide))
    rw [khashmap.khashmap_size, BitVec.toNat_signExtend, BitVec.toNat_setWidth,
      BitVec.msb_eq_decide, hwide]
    simp only [decide_eq_true_eq, Nat.add_one_sub_one]
  rw [hsize, hcount]
  split
  · omega
  · omega

/-- The map stays inside of its memory and knows how many keys are present, just
when each operation is allowed where it stands and the clears have dropped no
key, up to a multiple of `2^32`. -/
theorem khashmap_size_and_area_iff (jhash : Vector U8 key_size.toNat → U32 → U32) (elems : Nat)
    (hfuel : max_entries.toNat < fuel) (ops : List (Op key_size value_size)) :
    (∃ m, runOps jhash fuel (khashmap_init key_size value_size elems max_entries) ops = .ok m ∧
      m.khashmap_size = (History.of ops).present.keys.card) ↔
    Along History.step (Allowed max_entries) (History.start key_size value_size) ops ∧
      (History.of ops).present.keys.card < 2 ^ 31 ∧ (History.of ops).dropped % 2 ^ 32 = 0 := by
  have hinit : Holds jhash max_entries (khashmap_init key_size value_size elems max_entries) _ _ :=
    khashmap_init_holds jhash elems max_entries
  by_cases hops : Along History.step (Allowed max_entries) (History.start key_size value_size) ops
  · obtain ⟨m, chains, hrun, hholds⟩ := runOps_ok hfuel hinit hops
    have hsize := size_eq_iff hholds
    rw [hrun]
    constructor
    · rintro ⟨m', ⟨⟩, heq⟩
      exact ⟨hops, hsize.mp heq⟩
    · rintro ⟨-, hrest⟩
      exact ⟨m, rfl, hsize.mpr hrest⟩
  · rw [runOps_error hfuel hinit hops]
    constructor
    · rintro ⟨m, ⟨⟩, -⟩
    · rintro ⟨hops', -⟩
      exact absurd hops' hops

/-- A key is stored, deleted and stored again. -/
def storedAgain : List (Op 1 1) := [.update #v[5] #v[1], .delete #v[5], .update #v[5] #v[2]]

/-- With room for two elements, `storedAgain` ends with the one key counted. -/
theorem khashmap_size_and_area_stored_again :
    (2 : U32).toNat < 3 ∧ ∃ m, runOps (fun _ _ => 7) 3 (khashmap_init 1 1 4096 2) storedAgain =
      .ok m ∧
      m.khashmap_size = (History.of storedAgain).present.keys.card := by
  refine ⟨by decide,
    (khashmap_size_and_area_iff (fun _ _ => 7) 4096 (by decide) storedAgain).mpr ?_⟩
  have hmax : (2 : U32).toNat ≤ 2 ^ 31 := by decide
  exact ⟨⟨⟨hmax, .inr (by decide)⟩, hmax, ⟨hmax, .inr (by decide)⟩, trivial⟩, by decide, rfl⟩

/-- At most as many keys as the map has entries are present behind the operation. -/
def FewKeys (max_entries : U32) (g : History key_size value_size) (op : Op key_size value_size) :
    Prop :=
  (g.step op).present.keys.card ≤ max_entries.toNat

/-- A key is stored and the map is cleared. -/
def storedAndCleared : List (Op 1 1) := [.update #v[5] #v[1], .clear]

/-- A clear leaves `count` at one when no key is present. And a key that comes
back after a delete takes a second element, for which a map of one entry has no
room. -/
theorem khashmap_loses_count_and_room :
    (Along History.step (FewKeys 1) (History.start 1 1) storedAndCleared ∧
      (runOps (fun _ _ => 7) 2 (khashmap_init 1 1 4096 1) storedAndCleared).map
        khashmap.khashmap_size =
        .ok 1 ∧
      (History.of storedAndCleared).present.keys.card = 0) ∧
    Along History.step (FewKeys 1) (History.start 1 1) storedAgain ∧
      runOps (fun _ _ => 7) 2 (khashmap_init 1 1 4096 1) storedAgain = .error .bounds := by
  have hone : ∀ n, n ≤ 1 → n ≤ (1 : U32).toNat := fun _ hn => hn
  refine ⟨⟨⟨?_, ?_, trivial⟩, rfl, rfl⟩, ⟨?_, ?_, ?_, trivial⟩, rfl⟩
  · exact hone _ (Nat.le_refl 1)
  · exact hone _ (Nat.zero_le 1)
  · exact hone _ (Nat.le_refl 1)
  · exact hone _ (Nat.zero_le 1)
  · exact hone _ (Nat.le_refl 1)

end edge_cookie.khash
