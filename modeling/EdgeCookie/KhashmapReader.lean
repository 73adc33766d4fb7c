-- The operations of the hash map as what they do to the memory, one access after
-- the other: the stores of an update, a delete or a clear, which hold the lock of
-- a bucket, and the reads of a lookup, which holds none.
import EdgeCookie.KhashmapRun
import Mathlib.Data.Set.Insert
import Mathlib.Logic.Function.Iterate

namespace edge_cookie.khash

open bytes chain runs

variable {key_size value_size : U32}

/-! ## The stores of an operation -/

/-- One store to the memory of a map. The bytes of a key go in one by one, as
lookups read them. -/
inductive Store (key_size value_size : U32) where
  | next_free (addr : Nat)
  | pointer (place : Place Nat Nat) (x : Ptr Nat Nat)
  | pprev (elem : Nat) (place : Option (Place Nat Nat))
  | count (n : U32)
  | hash (elem : Nat) (hash : U32)
  | key (elem : Nat) (i : Fin key_size.toNat) (byte : U8)
  | value (elem : Nat) (value : Vector U8 value_size.toNat)

def khashmap.store (m : khashmap key_size value_size) :
    Store key_size value_size → khashmap key_size value_size
  | .next_free addr => { m with next_free := addr }
  | .pointer place x => { m with cells := m.cells.write x place }
  | .pprev elem place => { m with cells := m.cells.setPprev elem place }
  | .count n => { m with count := n }
  | .hash elem hash => m.setElem elem { m.data elem with hash := hash }
  | .key elem i byte =>
    m.setElem elem { m.data elem with key := (m.data elem).key.set i byte i.isLt }
  | .value elem value => m.setElem elem { m.data elem with value := value }

def khashmap.stores (m : khashmap key_size value_size) (ss : List (Store key_size value_size)) :
    khashmap key_size value_size := ss.foldl khashmap.store m

/-- A pointer that is no marker gets the place that points to it. -/
def relinkStores (place : Place Nat Nat) : Ptr Nat Nat → List (Store key_size value_size)
  | .cell a => [.pprev a (some place)]
  | .stop _ => []

def hlist_nulls_add_head (c : Cells Nat Nat Nat) (n h : Nat) : List (Store key_size value_size) :=
  let first := c.first h
  [.pointer (.next n) first, .pprev n (some (.head h)), .pointer (.head h) (.cell n)] ++
    relinkStores (.next n) first

def hlist_nulls_del (c : Cells Nat Nat Nat) (n : Nat) (pprev : Place Nat Nat) :
    List (Store key_size value_size) :=
  let next := c.next n
  .pointer pprev next :: relinkStores pprev next ++ [.pprev n none]

/-- The hash, the bytes of the key and the value of an element. -/
def elemStores (elem : Nat) (hash : U32) (key : Vector U8 key_size.toNat)
    (value : Vector U8 value_size.toNat) : List (Store key_size value_size) :=
  .hash elem hash :: ((List.finRange key_size.toNat).map fun i => .key elem i (key.get i)) ++
    [.value elem value]

variable (jhash : Vector U8 key_size.toNat → U32 → U32) (fuel : Nat)

/-- What an operation stores, in order. The lookup before the stores runs under
the lock, so nothing else is written meanwhile. -/
def storesOf (m : khashmap key_size value_size) :
    Op key_size value_size → Except Fault (List (Store key_size value_size))
  | .update key value => do
    let hash := jhash key m.hashrnd
    let head ← m.select_bucket hash
    let found ← m.lookup_elem_raw fuel head hash key
    match found with
    | some elem => return elemStores elem hash key value
    | none =>
      let elem := m.next_free
      if m.Inside elem then
        return .next_free (elem + m.elem_size.toNat) :: hlist_nulls_add_head m.cells elem head ++
          .count (m.count + 1) :: elemStores elem hash key value
      else throw .bounds
  | .delete key => do
    let hash := jhash key m.hashrnd
    let head ← m.select_bucket hash
    let found ← m.lookup_elem_raw fuel head hash key
    match found with
    | some elem =>
      match m.cells.pprev elem with
      | some pprev => return hlist_nulls_del m.cells elem pprev ++ [.count (m.count - 1)]
      | none => throw .bounds
    | none => return []
  | .clear =>
    return (List.range m.n_buckets.toNat).map
      (fun i => .pointer (.head i) (nullsPtr (NULLS_MARKER i))) ++ [.next_free m.elems]

section

variable (m : khashmap key_size value_size)

@[simp] theorem stores_nil : m.stores [] = m := rfl

@[simp] theorem stores_cons (s : Store key_size value_size)
    (ss : List (Store key_size value_size)) :
    m.stores (s :: ss) = (m.store s).stores ss := rfl

theorem stores_append (ss ts : List (Store key_size value_size)) :
    m.stores (ss ++ ts) = (m.stores ss).stores ts := List.foldl_append

theorem stores_relink (place : Place Nat Nat) (x : Ptr Nat Nat) :
    m.stores (relinkStores place x) = { m with cells := m.cells.relink place x } := by
  cases x <;> rfl

theorem stores_add_head (n h : Nat) :
    m.stores (hlist_nulls_add_head m.cells n h) = { m with cells := m.cells.insertFirst n h } := by
  unfold hlist_nulls_add_head
  rw [stores_append, stores_relink]
  rfl

theorem stores_del (n : Nat) (pprev : Place Nat Nat) :
    m.stores (hlist_nulls_del m.cells n pprev) = { m with cells := m.cells.unlink n pprev } := by
  unfold hlist_nulls_del
  rw [List.cons_append, stores_cons, stores_append, stores_relink]
  rfl

/-- Some bytes of a key are written. -/
def writeBytes {n : Nat} (key k : Vector U8 n) (is : List (Fin n)) : Vector U8 n :=
  is.foldl (fun k i => k.set i.val (key.get i) i.isLt) k

/-- A byte that is written, or was right before, is right. -/
theorem get_writeBytes {n : Nat} (key k : Vector U8 n) (is : List (Fin n)) (j : Fin n)
    (hj : j ∈ is ∨ k.get j = key.get j) : (writeBytes key k is).get j = key.get j := by
  induction is generalizing k with
  | nil => exact hj.resolve_left List.not_mem_nil
  | cons i is ih =>
    rw [writeBytes, List.foldl_cons, ← writeBytes]
    refine ih _ ?_
    by_cases hji : j = i
    · subst hji
      exact .inr (Vector.getElem_set_self _)
    · rcases hj with hj | hj
      · exact .inl ((List.mem_cons.mp hj).resolve_left hji)
      · exact .inr ((Vector.getElem_set_ne _ _ fun h => hji (Fin.ext h.symm)).trans hj)

theorem writeBytes_all {n : Nat} (key k : Vector U8 n) :
    writeBytes key k (List.finRange n) = key := by
  apply Vector.ext
  intro i hi
  exact get_writeBytes key k (List.finRange n) ⟨i, hi⟩ (.inl (List.mem_finRange _))

theorem stores_key (elem : Nat) (key : Vector U8 key_size.toNat) (is : List (Fin key_size.toNat)) :
    m.stores (is.map fun i => .key elem i (key.get i)) =
      m.setElem elem { m.data elem with key := writeBytes key (m.data elem).key is } := by
  induction is generalizing m with
  | nil => simp [khashmap.setElem, writeBytes]
  | cons i is ih =>
    rw [List.map_cons, stores_cons, ih]
    simp [khashmap.store, khashmap.setElem, writeBytes]

theorem stores_elem (elem : Nat) (hash : U32) (key : Vector U8 key_size.toNat)
    (value : Vector U8 value_size.toNat) :
    m.stores (elemStores elem hash key value) = m.setElem elem ⟨hash, key, value⟩ := by
  unfold elemStores
  rw [List.cons_append, stores_cons, stores_append, stores_key, writeBytes_all]
  simp [khashmap.store, khashmap.setElem]

/-- A new element in front of its bucket. -/
theorem stores_add (head : Nat) (hash : U32) (key : Vector U8 key_size.toNat)
    (value : Vector U8 value_size.toNat) :
    m.stores (.next_free (m.next_free + m.elem_size.toNat) ::
        hlist_nulls_add_head m.cells m.next_free head ++
        .count (m.count + 1) :: elemStores m.next_free hash key value) =
      (m.addElem head).setElem m.next_free ⟨hash, key, value⟩ := by
  have hadd :=
    stores_add_head (m.store (.next_free (m.next_free + m.elem_size.toNat))) m.next_free head
  rw [List.cons_append, stores_cons, stores_append]
  refine (congrArg (khashmap.stores · _) hadd).trans ?_
  rw [stores_cons, stores_elem]
  rfl

/-- An element is taken out of its bucket. -/
theorem stores_delete (elem : Nat) (pprev : Place Nat Nat) :
    m.stores (hlist_nulls_del m.cells elem pprev ++ [.count (m.count - 1)]) =
      { m with cells := m.cells.unlink elem pprev, count := m.count - 1 } := by
  rw [stores_append, stores_del]
  rfl

theorem stores_clear (n : Nat) :
    m.stores ((List.range n).map fun i => .pointer (.head i) (nullsPtr (NULLS_MARKER i))) =
      { m with cells := initHeads m.cells n } := by
  induction n with
  | zero => rfl
  | succ n ih =>
    rw [List.range_succ, List.map_append, stores_append, ih]
    unfold initHeads
    rw [List.range_succ, List.foldl_append]
    rfl

/-- The stores of an operation, one after the other, are the operation. -/
theorem step_eq_stores (op : Op key_size value_size) :
    step jhash fuel m op = (storesOf jhash fuel m op).map m.stores := by
  cases op with
  | clear =>
    change Except.ok m.khashmap_clear.2 = Except.ok (m.stores _)
    rw [stores_append, stores_clear]
    rfl
  | update key value =>
    unfold step storesOf khashmap.khashmap_update_elem
    dsimp only [bind, Except.bind]
    cases m.select_bucket (jhash key m.hashrnd) with
    | error fault => rfl
    | ok head =>
      dsimp only
      cases m.lookup_elem_raw fuel head (jhash key m.hashrnd) key with
      | error fault => rfl
      | ok found =>
        cases found with
        | some elem => exact congrArg Except.ok (stores_elem m elem _ key value).symm
        | none =>
          dsimp only
          by_cases hinside : m.Inside m.next_free
          · rw [if_pos hinside, if_pos hinside]
            exact congrArg Except.ok (stores_add m head _ key value).symm
          · rw [if_neg hinside, if_neg hinside]
            rfl
  | delete key =>
    unfold step storesOf khashmap.khashmap_delete_elem
    dsimp only [bind, Except.bind]
    cases m.select_bucket (jhash key m.hashrnd) with
    | error fault => rfl
    | ok head =>
      dsimp only
      cases m.lookup_elem_raw fuel head (jhash key m.hashrnd) key with
      | error fault => rfl
      | ok found =>
        cases found with
        | none => rfl
        | some elem =>
          dsimp only [Cells.remove]
          cases m.cells.pprev elem with
          | none => rfl
          | some pprev =>
            exact congrArg Except.ok (stores_delete m elem pprev).symm

end

/-! ## The reader -/

/-- Where a lookup is: before it reads the head of the bucket, with a pointer,
before a byte of a key, before it goes on, or at its end. -/
inductive Reader where
  | start
  | at (pos : Ptr Nat Nat)
  | compare (elem i : Nat)
  | next (elem : Nat)
  | found (elem : Nat)
  | missing
  deriving DecidableEq, Repr

/-- The bytes before the given one are equal. -/
def Reader.compared (key_size : U32) (elem i : Nat) : Reader :=
  if i < key_size.toNat then .compare elem i else .found elem

/-- One access of `lookup_nulls_elem_raw` to the memory. -/
def readStep (key : Vector U8 key_size.toNat) (m : khashmap key_size value_size) : Reader → Reader
  | .start => .at (m.cells.first (m.bucketIndex (jhash key m.hashrnd)))
  | .at (.cell elem) =>
    if (m.data elem).hash == jhash key m.hashrnd then .compared key_size elem 0 else .next elem
  | .at (.stop nulls) => if nulls != m.bucketIndex (jhash key m.hashrnd) then .start else .missing
  | .compare elem i =>
    if (m.data elem).key[i]? == key[i]? then .compared key_size elem (i + 1) else .next elem
  | .next elem => .at (m.cells.next elem)
  | .found elem => .found elem
  | .missing => .missing

section

variable (key : Vector U8 key_size.toNat) (m : khashmap key_size value_size)

/-- The bytes of two keys are compared up to the first difference. -/
theorem reads_compare (elem i : Nat) : ∃ n,
    (readStep jhash key m)^[n] (.compared key_size elem i) = .found elem ∧
        (∀ j, i ≤ j → (m.data elem).key[j]? = key[j]?) ∨
      (readStep jhash key m)^[n] (.compared key_size elem i) = .next elem ∧
        ¬ ∀ j, i ≤ j → (m.data elem).key[j]? = key[j]? := by
  induction hd : key_size.toNat - i generalizing i with
  | zero =>
    refine ⟨0, .inl ⟨if_neg (by omega), fun j hj => ?_⟩⟩
    rw [Vector.getElem?_eq_none (by omega), Vector.getElem?_eq_none (by omega)]
  | succ d ih =>
    have hlt : i < key_size.toNat := by omega
    rw [Reader.compared, if_pos hlt]
    by_cases hbyte : (m.data elem).key[i]? = key[i]?
    · have hfirst : readStep jhash key m (.compare elem i) = .compared key_size elem (i + 1) :=
        if_pos (beq_iff_eq.mpr hbyte)
      obtain ⟨n, ⟨hn, hsame⟩ | ⟨hn, hother⟩⟩ := ih (i + 1) (by omega)
      · refine ⟨n + 1, .inl ⟨by rw [Function.iterate_succ_apply, hfirst, hn], fun j hj => ?_⟩⟩
        rcases Nat.eq_or_lt_of_le hj with rfl | hj
        · exact hbyte
        · exact hsame j hj
      · refine ⟨n + 1,
          .inr ⟨by rw [Function.iterate_succ_apply, hfirst, hn], fun hsame => hother fun j hj =>
            ?_⟩⟩
        exact hsame j (Nat.le_of_succ_le hj)
    · refine ⟨1, .inr ⟨?_, fun hsame => hbyte (hsame i (Nat.le_refl i))⟩⟩
      exact if_neg fun h => hbyte (beq_iff_eq.mp h)

theorem forall_getElem?_iff {n : Nat} (k l : Vector U8 n) :
    (∀ j, 0 ≤ j → k[j]? = l[j]?) ↔ k = l := by
  constructor
  · intro h
    ext i hi
    have hi' := h i (Nat.zero_le i)
    rw [Vector.getElem?_eq_getElem hi, Vector.getElem?_eq_getElem hi] at hi'
    rw [Option.some.inj hi']
  · rintro rfl j -
    rfl

/-- In a map that nobody writes, the reads go where the walk goes. -/
theorem reads_walk {fuel : Nat} {x : Ptr Nat Nat} {y : Nat ⊕ Nat}
    (h : m.cells.walk (m.matchesKey (jhash key m.hashrnd) key) fuel x = some y) :
    ∃ n, (readStep jhash key m)^[n] (.at x) = y.elim .found fun nulls => .at (.stop nulls) := by
  induction fuel generalizing x with
  | zero => cases h
  | succ fuel ih =>
    cases x with
    | stop nulls =>
      cases h
      exact ⟨0, rfl⟩
    | cell elem =>
      rw [Cells.walk] at h
      by_cases hhash : (m.data elem).hash == jhash key m.hashrnd
      · have hfirst : readStep jhash key m (.at (.cell elem)) = .compared key_size elem 0 :=
          if_pos hhash
        obtain ⟨n, ⟨hn, hsame⟩ | ⟨hn, hother⟩⟩ := reads_compare jhash key m elem 0
        · have hmatch : m.matchesKey (jhash key m.hashrnd) key elem = true := by
            rw [khashmap.matchesKey, hhash, beq_iff_eq.mpr ((forall_getElem?_iff _ _).mp hsame)]
            rfl
          rw [if_pos hmatch] at h
          cases h
          exact ⟨n + 1, by rw [Function.iterate_succ_apply, hfirst, hn]; rfl⟩
        · have hmatch : ¬ m.matchesKey (jhash key m.hashrnd) key elem = true := by
            simp only [khashmap.matchesKey, Bool.and_eq_true, not_and, beq_iff_eq]
            exact fun _ hkey => hother ((forall_getElem?_iff _ _).mpr hkey)
          rw [if_neg hmatch] at h
          obtain ⟨k, hk⟩ := ih h
          refine ⟨k + (1 + (n + 1)), ?_⟩
          rw [Function.iterate_add_apply, Function.iterate_add_apply,
            Function.iterate_succ_apply (n := n), hfirst, hn, Function.iterate_one, readStep, hk]
      · have hmatch : ¬ m.matchesKey (jhash key m.hashrnd) key elem = true := by
          simp only [khashmap.matchesKey, Bool.and_eq_true, not_and]
          exact fun hh => absurd hh hhash
        rw [if_neg hmatch] at h
        obtain ⟨n, hn⟩ := ih h
        refine ⟨n + 1 + 1, ?_⟩
        rw [Function.iterate_succ_apply, Function.iterate_succ_apply, readStep, if_neg hhash,
          readStep, hn]

/-- The accesses of the reader, in a row, are the lookup. -/
theorem reads_lookup {fuel again : Nat} {found : Option Nat}
    (h : m.lookup_nulls_elem_raw fuel (m.bucketIndex (jhash key m.hashrnd))
      (jhash key m.hashrnd) key again =
        .ok found) :
    ∃ n, (readStep jhash key m)^[n] .start = found.elim .missing .found := by
  induction again with
  | zero => cases h
  | succ again ih =>
    rw [khashmap.lookup_nulls_elem_raw] at h
    cases hwalk : m.cells.walk (m.matchesKey (jhash key m.hashrnd) key) fuel
        (m.cells.first (m.bucketIndex (jhash key m.hashrnd))) with
    | none =>
      rw [hwalk] at h
      cases h
    | some y =>
      obtain ⟨n, hn⟩ := reads_walk jhash key m hwalk
      rw [hwalk] at h
      cases y with
      | inl elem =>
        cases h
        exact ⟨n + 1, hn⟩
      | inr nulls =>
        have hhead : (readStep jhash key m)^[n + 1] .start = .at (.stop nulls) := hn
        dsimp only at h
        by_cases hnulls : (nulls != m.bucketIndex (jhash key m.hashrnd)) = true
        · rw [if_pos hnulls] at h
          obtain ⟨k, hk⟩ := ih h
          refine ⟨k + (1 + (n + 1)), ?_⟩
          rw [Function.iterate_add_apply, Function.iterate_add_apply, hhead, Function.iterate_one,
            readStep, if_pos hnulls, hk]
        · rw [if_neg hnulls] at h
          cases h
          refine ⟨1 + (n + 1), ?_⟩
          rw [Function.iterate_add_apply, hhead, Function.iterate_one, readStep, if_neg hnulls]
          rfl

end

end edge_cookie.khash
