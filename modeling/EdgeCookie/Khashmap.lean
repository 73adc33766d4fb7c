-- The hash map of the agents. The elements of a bucket are a linked list that
-- ends in the number of the bucket, and a new element takes the next bytes of
-- one area. An element that is deleted is not used again until the map is
-- cleared.
import EdgeCookie.Bytes
import EdgeCookie.Chain
import Mathlib.Data.Nat.Bitwise
import Mathlib.Order.Bounds.Defs

namespace edge_cookie.khash

open bytes chain

/-! ## Sizes -/

/-- `round_up` of the source to a multiple of 8, in 32 bits. -/
def round_up (x : U32) : U32 := ((x - 1) ||| 7) + 1

/-- The turns of the loop with `i` from the given number down. -/
def roundupFrom (n : Nat) : Nat → Nat
  | 0 => 1
  | i + 1 => if 2 ^ i < n then 2 ^ (i + 1) else roundupFrom n i

/-- The first `i` of the loop is 62: the condition of the `for` counts down, and
the third clause does nothing. -/
def roundup_pow_of_two (n : Nat) : Nat := roundupFrom n 63

/-- `sizeof(struct khashmap_elem)`: two pointers, the hash, and the key at a multiple of 8. -/
def KHASHMAP_ELEM_SIZE : U32 := 24

/-- How many buckets a map has. -/
def bucketCount (max_entries : U32) : U32 := BitVec.ofNat 32 (roundup_pow_of_two max_entries.toNat)

/-- The size of an element in bytes, in 32 bits. -/
def elemSize (key_size value_size : U32) : U32 :=
  KHASHMAP_ELEM_SIZE + round_up key_size + round_up value_size

/-! ## The end of a list -/

def NULLS_MARKER (value : Nat) : U64 := (1 : U64) ||| (BitVec.ofNat 64 value <<< 1)

def is_a_nulls (ptr : U64) : Bool := ptr &&& 1 != 0

def get_nulls_value (ptr : U64) : Nat := (ptr >>> 1).toNat

/-- A pointer as it stands in a node. Elements stand at multiples of 8, so a
word with the last bit set is the end of a list. -/
def nullsPtr (ptr : U64) : Ptr Nat Nat :=
  if is_a_nulls ptr then .stop (get_nulls_value ptr) else .cell ptr.toNat

/-! ## The map -/

structure khashmap_elem (key_size value_size : U32) where
  hash : U32
  key : Vector U8 key_size.toNat
  value : Vector U8 value_size.toNat

/-- The heads of the buckets and the pointers of the nodes are the cells, and an
element is the rest of what stands at its address. The locks are left out. -/
structure khashmap (key_size value_size : U32) where
  max_entries : U32
  cells : Cells Nat Nat Nat
  data : Nat → khashmap_elem key_size value_size
  elems : Nat
  next_free : Nat
  count : U32
  n_buckets : U32
  elem_size : U32
  hashrnd : U32

/-- What ends an operation: the fuel of a list walk, or an access outside of the
memory of the map. -/
inductive Fault where
  | fuel
  | bounds
  deriving DecidableEq, Repr

variable {key_size value_size : U32}

/-- `INIT_HLIST_NULLS_HEAD` for the buckets `0` up to `n`, one after the other. -/
def initHeads (c : Cells Nat Nat Nat) (n : Nat) : Cells Nat Nat Nat :=
  (List.range n).foldl (fun c i => c.write (nullsPtr (NULLS_MARKER i)) (.head i)) c

/-- The memory that `calloc` returns for the elements starts at `elems`. -/
def khashmap_init (key_size value_size : U32) (elems : Nat) (max_entries : U32) :
    khashmap key_size value_size :=
  { max_entries
    cells := initHeads ⟨fun _ => nullsPtr 0, fun _ => nullsPtr 0, fun _ => none⟩
      (bucketCount max_entries).toNat
    data := fun _ => ⟨0, .replicate _ 0, .replicate _ 0⟩
    elems
    next_free := elems
    count := 0
    n_buckets := bucketCount max_entries
    elem_size := elemSize key_size value_size
    hashrnd := 0 }

namespace khashmap

/-- An `atomic_int`, returned as a `size_t`. -/
def khashmap_size (m : khashmap key_size value_size) : Nat := (m.count.signExtend 64).toNat

def bucketIndex (m : khashmap key_size value_size) (hash : U32) : Nat :=
  (hash &&& (m.n_buckets - 1)).toNat

def select_bucket (m : khashmap key_size value_size) (hash : U32) : Except Fault Nat :=
  if m.bucketIndex hash < m.n_buckets.toNat then .ok (m.bucketIndex hash) else .error .bounds

def matchesKey (m : khashmap key_size value_size) (hash : U32) (key : Vector U8 key_size.toNat)
    (elem : Nat) :
    Bool :=
  (m.data elem).hash == hash && (m.data elem).key == key

def lookup_elem_raw (fuel : Nat) (m : khashmap key_size value_size) (head : Nat) (hash : U32)
    (key : Vector U8 key_size.toNat) : Except Fault (Option Nat) :=
  match m.cells.walk (m.matchesKey hash key) fuel (m.cells.first head) with
  | none => .error .fuel
  | some (.inl elem) => .ok (some elem)
  | some (.inr _) => .ok none

/-- A walk that ends in another bucket starts over: the last argument bounds how often. -/
def lookup_nulls_elem_raw (fuel : Nat) (m : khashmap key_size value_size) (head : Nat) (hash : U32)
    (key : Vector U8 key_size.toNat) : Nat → Except Fault (Option Nat)
  | 0 => .error .fuel
  | again + 1 =>
    match m.cells.walk (m.matchesKey hash key) fuel (m.cells.first head) with
    | none => .error .fuel
    | some (.inl elem) => .ok (some elem)
    | some (.inr nulls) =>
      if nulls != m.bucketIndex hash then lookup_nulls_elem_raw fuel m head hash key again
      else .ok none

/-- The bytes of the element lie inside of the element, and the element inside of the area. -/
def Inside (m : khashmap key_size value_size) (elem : Nat) : Prop :=
  key_size.toNat ≤ (round_up key_size).toNat ∧
    KHASHMAP_ELEM_SIZE.toNat + (round_up key_size).toNat + value_size.toNat ≤ m.elem_size.toNat ∧
    elem + m.elem_size.toNat ≤ m.elems + m.elem_size.toNat * m.max_entries.toNat

instance (m : khashmap key_size value_size) (elem : Nat) : Decidable (m.Inside elem) :=
  inferInstanceAs (Decidable (_ ∧ _))

def setElem (m : khashmap key_size value_size) (elem : Nat)
    (d : khashmap_elem key_size value_size) :
    khashmap key_size value_size :=
  { m with data := Function.update m.data elem d }

/-- The next element of the area, in front of its bucket. -/
def addElem (m : khashmap key_size value_size) (head : Nat) : khashmap key_size value_size :=
  { m with
    next_free := m.next_free + m.elem_size.toNat
    cells := m.cells.insertFirst m.next_free head
    count := m.count + 1 }

variable (jhash : Vector U8 key_size.toNat → U32 → U32)

/-- The locks are always taken. What the function writes outside of the area is
not modelled: it stops with `bounds` there. -/
def khashmap_update_elem (fuel : Nat) (m : khashmap key_size value_size)
    (key : Vector U8 key_size.toNat) (value : Vector U8 value_size.toNat) :
    Except Fault (Nat × khashmap key_size value_size) := do
  let hash := jhash key m.hashrnd
  let head ← m.select_bucket hash
  let found ← m.lookup_elem_raw fuel head hash key
  match found with
  | some elem => return (0, m.setElem elem ⟨hash, key, value⟩)
  | none =>
    let elem := m.next_free
    if m.Inside elem then return (0, (m.addElem head).setElem elem ⟨hash, key, value⟩)
    else throw .bounds

/-- The value that the returned pointer points to. -/
def khashmap_lookup_elem (fuel : Nat) (m : khashmap key_size value_size)
    (key : Vector U8 key_size.toNat) :
    Except Fault (Option (Vector U8 value_size.toNat)) := do
  let hash := jhash key m.hashrnd
  let head ← m.select_bucket hash
  let found ← m.lookup_nulls_elem_raw fuel head hash key fuel
  return found.map fun elem => (m.data elem).value

/-- The bytes of the element stay where they are. -/
def khashmap_delete_elem (fuel : Nat) (m : khashmap key_size value_size)
    (key : Vector U8 key_size.toNat) :
    Except Fault (Nat × khashmap key_size value_size) := do
  let hash := jhash key m.hashrnd
  let head ← m.select_bucket hash
  let found ← m.lookup_elem_raw fuel head hash key
  match found with
  | some elem =>
    match m.cells.remove elem with
    | some cells => return (0, { m with cells, count := m.count - 1 })
    | none => throw .bounds
  | none => return (2, m)

/-- The elements go, `count` stays. -/
def khashmap_clear (m : khashmap key_size value_size) : Nat × khashmap key_size value_size :=
  (0, { m with cells := initHeads m.cells m.n_buckets.toNat, next_free := m.elems })

end khashmap

/-- An operation on a map. -/
inductive Op (key_size value_size : U32) where
  | update (key : Vector U8 key_size.toNat) (value : Vector U8 value_size.toNat)
  | delete (key : Vector U8 key_size.toNat)
  | clear

def step (jhash : Vector U8 key_size.toNat → U32 → U32) (fuel : Nat)
    (m : khashmap key_size value_size) :
    Op key_size value_size → Except Fault (khashmap key_size value_size)
  | .update key value => return (← m.khashmap_update_elem jhash fuel key value).2
  | .delete key => return (← m.khashmap_delete_elem jhash fuel key).2
  | .clear => return m.khashmap_clear.2

/-- The map after the operations. -/
def runOps (jhash : Vector U8 key_size.toNat → U32 → U32) (fuel : Nat)
    (m : khashmap key_size value_size) (ops : List (Op key_size value_size)) :
    Except Fault (khashmap key_size value_size) :=
  ops.foldlM (step jhash fuel) m

/-! ## The markers -/

theorem NULLS_MARKER_toNat {i : Nat} (h : i < 2 ^ 63) : (NULLS_MARKER i).toNat = 2 * i + 1 := by
  have hfit : i * 2 < 2 ^ 64 := by omega
  have hshift : (BitVec.ofNat 64 i <<< 1).toNat = i <<< 1 := by
    have hi : (BitVec.ofNat 64 i).toNat = i := by
      rw [BitVec.toNat_ofNat, Nat.mod_eq_of_lt (by omega)]
    rw [BitVec.toNat_shiftLeft, hi, Nat.shiftLeft_eq, Nat.mod_eq_of_lt hfit]
  have hone : (1 : U64).toNat = 1 := rfl
  rw [NULLS_MARKER, BitVec.toNat_or, hshift, hone, Nat.lor_comm,
    ← Nat.shiftLeft_add_eq_or_of_lt (by decide), Nat.shiftLeft_eq]
  omega

/-- The end of a list is read back as the number of its bucket. -/
theorem nullsPtr_NULLS_MARKER {i : Nat} (h : i < 2 ^ 63) : nullsPtr (NULLS_MARKER i) = .stop i := by
  have hnat := NULLS_MARKER_toNat h
  have hodd : is_a_nulls (NULLS_MARKER i) = true := by
    have hbit : (NULLS_MARKER i &&& 1).toNat = 1 := by
      rw [BitVec.toNat_and, hnat, show (1 : U64).toNat = 1 from rfl, Nat.and_one_is_mod]
      omega
    rw [is_a_nulls, bne_iff_ne]
    intro hzero
    rw [hzero] at hbit
    cases hbit
  have hvalue : get_nulls_value (NULLS_MARKER i) = i := by
    rw [get_nulls_value, BitVec.toNat_ushiftRight, hnat, Nat.shiftRight_eq_div_pow]
    omega
  rw [nullsPtr, hodd, if_pos rfl, hvalue]

/-- Every list that `initHeads` starts is empty. -/
theorem chain_initHeads (c : Cells Nat Nat Nat) {n b : Nat} (hn : n ≤ 2 ^ 63) (hb : b < n) :
    Chain (initHeads c n) (.head b) [] b := by
  have hloop : ∀ k ≤ n, ∀ b < k, (initHeads c k).read (.head b) = .stop b := by
    intro k
    induction k with
    | zero => exact fun _ b hb => absurd hb (Nat.not_lt_zero b)
    | succ k ih =>
      intro hk b hb
      have hlast : initHeads c (k + 1) =
          (initHeads c k).write (nullsPtr (NULLS_MARKER k)) (.head k) := by
        rw [initHeads, List.range_succ, List.foldl_append]
        rfl
      rw [hlast, Cells.read_write]
      split
      · next heq =>
        cases heq
        exact nullsPtr_NULLS_MARKER (by omega)
      · next hne =>
        have hbk : b ≠ k := fun heq => hne (congrArg _ heq)
        exact ih (by omega) b (by omega)
  exact hloop n (Nat.le_refl n) b hb

/-! ## What `khashmap_init` computes -/

/-- The size rounded up to a multiple of 8. -/
def rounded (x : U32) : Nat := (x.toNat + 7) / 8 * 8

theorem or_seven (n : Nat) : n ||| 7 = n / 8 * 8 + 7 := by
  have hbits : ∀ r < 8, r ||| 7 = 7 := by decide
  have hlow : n % 8 ||| 7 = 7 := hbits (n % 8) (Nat.mod_lt n (by decide))
  have hsplit (r : Nat) (hr : r < 8) : n / 8 * 8 + r = (n / 8) <<< 3 ||| r := by
    rw [← Nat.shiftLeft_add_eq_or_of_lt (i := 3) hr, Nat.shiftLeft_eq]
  calc n ||| 7 = (n / 8 * 8 + n % 8) ||| 7 := by rw [Nat.div_add_mod']
    _ = (n / 8) <<< 3 ||| (n % 8 ||| 7) := by
      rw [hsplit (n % 8) (Nat.mod_lt n (by decide)), Nat.lor_assoc]
    _ = n / 8 * 8 + 7 := by rw [hlow, hsplit 7 (by decide)]

theorem round_up_toNat (x : U32) : (round_up x).toNat = rounded x % 2 ^ 32 := by
  have hx := x.isLt
  have hsub : (x - 1).toNat = (x.toNat + (2 ^ 32 - 1)) % 2 ^ 32 := by
    rw [BitVec.toNat_sub, Nat.add_comm]
    rfl
  have h7 : (7 : U32).toNat = 7 := rfl
  have h1 : (1 : U32).toNat = 1 := rfl
  rw [round_up, BitVec.toNat_add, BitVec.toNat_or, hsub, h7, h1, or_seven, rounded]
  omega

theorem roundupFrom_le (n i : Nat) (h : n ≤ 2 ^ i) :
    1 ≤ roundupFrom n i ∧ roundupFrom n i ≤ 2 ^ i := by
  induction i with
  | zero => exact ⟨Nat.le_refl 1, Nat.le_refl 1⟩
  | succ i ih =>
    rw [roundupFrom]
    split
    · exact ⟨Nat.one_le_two_pow, Nat.le_refl _⟩
    · next hlt =>
      obtain ⟨hlow, hhigh⟩ := ih (Nat.le_of_not_lt hlt)
      exact ⟨hlow, hhigh.trans (Nat.pow_le_pow_right (by decide) (Nat.le_succ i))⟩

/-- The powers above `n` are passed over. -/
theorem roundupFrom_add (n i d : Nat) (h : n ≤ 2 ^ i) :
    roundupFrom n (i + d) = roundupFrom n i := by
  induction d with
  | zero => rfl
  | succ d ih =>
    have hle : n ≤ 2 ^ (i + d) := h.trans (Nat.pow_le_pow_right (by decide) (Nat.le_add_right i d))
    rw [← Nat.add_assoc, roundupFrom, if_neg (Nat.not_lt.mpr hle), ih]

/-- The loop finds the smallest power of two that is not below `n`. -/
theorem isLeast_roundupFrom {n i : Nat} (hpos : 1 ≤ n) (h : n ≤ 2 ^ i) :
    IsLeast {x | (∃ e, x = 2 ^ e) ∧ n ≤ x} (roundupFrom n i) := by
  induction i with
  | zero =>
    refine ⟨⟨⟨0, rfl⟩, h⟩, ?_⟩
    rintro x ⟨-, hx⟩
    exact hpos.trans hx
  | succ i ih =>
    rw [roundupFrom]
    split
    · next hlt =>
      refine ⟨⟨⟨i + 1, rfl⟩, h⟩, ?_⟩
      rintro x ⟨⟨e, rfl⟩, hx⟩
      have hie : i < e := (Nat.pow_lt_pow_iff_right (by decide)).mp (Nat.lt_of_lt_of_le hlt hx)
      exact Nat.pow_le_pow_right (by decide) hie
    · next hle => exact ih (Nat.le_of_not_lt hle)

/-- There are buckets unless the number of entries is over `2^31`: the power of
two is `2^32` then, and does not fit. -/
theorem bucketCount_eq_zero_iff (max_entries : U32) :
    bucketCount max_entries = 0 ↔ 2 ^ 31 < max_entries.toNat := by
  have hmax := max_entries.isLt
  have hskip : roundup_pow_of_two max_entries.toNat = roundupFrom max_entries.toNat 32 :=
    roundupFrom_add max_entries.toNat 32 31 (Nat.le_of_lt hmax)
  have hzero : bucketCount max_entries = 0 ↔ roundupFrom max_entries.toNat 32 % 2 ^ 32 = 0 := by
    rw [← BitVec.toNat_inj, bucketCount, hskip]
    rfl
  rw [hzero, roundupFrom]
  split
  · next hlt => exact ⟨fun _ => hlt, fun _ => Nat.mod_self _⟩
  · next hle =>
    obtain ⟨hlow, hhigh⟩ := roundupFrom_le max_entries.toNat 31 (Nat.le_of_not_lt hle)
    rw [Nat.mod_eq_of_lt (Nat.lt_of_le_of_lt hhigh (by decide))]
    omega

/-- Up to `2^31` entries the number of buckets fits into its 32 bits. -/
theorem isLeast_bucketCount {max_entries : U32} (hpos : 1 ≤ max_entries.toNat)
    (hmax : max_entries.toNat ≤ 2 ^ 31) :
    IsLeast {x | (∃ e, x = 2 ^ e) ∧ max_entries.toNat ≤ x} (bucketCount max_entries).toNat := by
  have hleast : IsLeast {x | (∃ e, x = 2 ^ e) ∧ max_entries.toNat ≤ x}
      (roundup_pow_of_two max_entries.toNat) :=
    isLeast_roundupFrom hpos (hmax.trans (by decide))
  have hfits : roundup_pow_of_two max_entries.toNat ≤ 2 ^ 31 := hleast.2 ⟨⟨31, rfl⟩, hmax⟩
  have heq : (bucketCount max_entries).toNat = roundup_pow_of_two max_entries.toNat := by
    rw [bucketCount, BitVec.toNat_ofNat]
    exact Nat.mod_eq_of_lt (Nat.lt_of_le_of_lt hfits (by decide))
  rw [heq]
  exact hleast

/-- The bytes of an element have their own place in it when the size of an
element is not cut to 32 bits. -/
theorem elem_fits_iff (key_size value_size : U32) :
    (key_size.toNat ≤ (round_up key_size).toNat ∧
      KHASHMAP_ELEM_SIZE.toNat + (round_up key_size).toNat + value_size.toNat ≤
        (elemSize key_size value_size).toNat) ↔
      24 + rounded key_size + rounded value_size < 2 ^ 32 := by
  have hk := key_size.isLt
  have hv := value_size.isLt
  have hbase : KHASHMAP_ELEM_SIZE.toNat = 24 := rfl
  rw [elemSize, BitVec.toNat_add, BitVec.toNat_add, round_up_toNat, round_up_toNat, hbase, rounded,
    rounded]
  omega

/-- An element takes up some bytes. -/
theorem elemSize_pos {key_size value_size : U32}
    (h : 24 + rounded key_size + rounded value_size < 2 ^ 32) :
    0 < (elemSize key_size value_size).toNat := by
  have hfits := ((elem_fits_iff key_size value_size).mpr h).2
  have hbase : KHASHMAP_ELEM_SIZE.toNat = 24 := rfl
  omega

end edge_cookie.khash
