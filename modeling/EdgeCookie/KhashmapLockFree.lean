-- Lookups of the hash map take no lock. While one thread looks for a key,
-- another one updates and deletes, store by store. A key that stays in the map
-- is found all the same: an element that is taken out still points to the
-- elements behind it, and none is used again before a clear. What a lookup has to
-- fear is a new element, which is in its list before its key is: the bytes that
-- stood there, and those of the new key, must tell it from the one looked for.
import EdgeCookie.KhashmapReader

namespace edge_cookie.khash

open bytes chain runs

variable {key_size value_size : U32} (jhash : Vector U8 key_size.toNat → U32 → U32) (fuel : Nat)

/-! ## A writer and a reader -/

/-- The map, the stores that the writer has still to make, and the reader. -/
structure Shared (key_size value_size : U32) where
  m : khashmap key_size value_size
  pending : List (Store key_size value_size)
  reader : Reader

/-- What happens next: the writer begins an operation, the writer makes a store,
or the reader reads. -/
inductive Access (key_size value_size : U32) where
  | op (op : Op key_size value_size)
  | store
  | read

/-- There is one writer at a time, and an operation begins when the one before it
is done. The locks are for one bucket each: two writers in two buckets could take
the same `next_free`. -/
def Shared.step (key : Vector U8 key_size.toNat) (s : Shared key_size value_size) :
    Access key_size value_size → Option (Shared key_size value_size)
  | .op op =>
    match s.pending, storesOf jhash fuel s.m op with
    | [], .ok pending => some { s with pending := pending }
    | _, _ => none
  | .store =>
    match s.pending with
    | [] => none
    | st :: pending => some { s with m := s.m.store st, pending := pending }
  | .read => some { s with reader := readStep jhash key s.m s.reader }

def Access.isRead : Access key_size value_size → Bool
  | .read => true
  | _ => false

/-! ## Stores that a reader can bear -/

section

variable (key : Vector U8 key_size.toNat) (hash : U32) (target bound : Nat)

/-- The reader of the key comes to its element from the pointer on, over at most
`len` elements. For each of the others `seen` has a byte in which its key differs
from the key. -/
def Leads (seen : Nat → Option Nat) (m : khashmap key_size value_size) (x : Ptr Nat Nat)
    (len : Nat) : Prop :=
  ∃ l, Spine m.cells x l ∧ target ∈ l ∧ l.length ≤ len ∧
    ∀ a ∈ l, ∃ i, seen a = some i ∧ (a ≠ target → (m.data a).key[i]? ≠ key[i]?)

/-- The store does not hide the element of the key. `seen` has the elements that
have been in a list, before the store and behind it. -/
inductive Harmless (seen : Nat → Option Nat) (m : khashmap key_size value_size) :
    Store key_size value_size → (Nat → Option Nat) → Prop where
  | next_free (addr : Nat) : Harmless seen m (.next_free addr) seen
  | pprev (elem : Nat) (place : Option (Place Nat Nat)) : Harmless seen m (.pprev elem place) seen
  | count (n : U32) : Harmless seen m (.count n) seen
  | value (elem : Nat) (v : Vector U8 value_size.toNat) : Harmless seen m (.value elem v) seen
  | link {n : Nat} (x : Ptr Nat Nat)
      (hnew : seen n = none) : Harmless seen m (.pointer (.next n) x) seen
  | publish {h n i : Nat} (hnew : seen n = none) (hnext : m.cells.next n = m.cells.first h)
      (hkey : (m.data n).key[i]? ≠ key[i]?)
      (hlen : ∀ l, Spine m.cells (m.cells.first h) l → l.length < bound) :
      Harmless seen m (.pointer (.head h) (.cell n)) (Function.update seen n (some i))
  | skip {place : Place Nat Nat} {n : Nat} (hplace : m.cells.read place = .cell n)
      (hne : n ≠ target) :
      Harmless seen m (.pointer place (m.cells.next n)) seen
  | hash {elem : Nat} {v : U32}
      (hsame : elem = target → v = hash) : Harmless seen m (.hash elem v) seen
  | key {elem : Nat} {i : Fin key_size.toNat} {byte : U8} (hsame : elem = target → byte = key.get i)
      (hother : elem ≠ target → seen elem = some i.val → byte ≠ key.get i) :
      Harmless seen m (.key elem i byte) seen

/-- So are all of them, one after the other. -/
inductive AllHarmless :
    (Nat → Option Nat) → khashmap key_size value_size → List (Store key_size value_size) →
    (Nat → Option Nat) → Prop where
  | nil (seen : Nat → Option Nat) (m : khashmap key_size value_size) : AllHarmless seen m [] seen
  | cons {seen seen' seen'' : Nat → Option Nat} {m : khashmap key_size value_size}
      {st : Store key_size value_size} {ss : List (Store key_size value_size)}
      (hst : Harmless key hash target bound seen m st seen')
      (hss : AllHarmless seen' (m.store st) ss seen'') : AllHarmless seen m (st :: ss) seen''

end

section

variable {key : Vector U8 key_size.toNat} {hash : U32} {target bound : Nat}
  {seen seen' : Nat → Option Nat}
  {m : khashmap key_size value_size} {st : Store key_size value_size} {x : Ptr Nat Nat} {len : Nat}

/-- A map with the same pointers, and the same bytes where they matter. -/
theorem Leads.congr {m' : khashmap key_size value_size} (h : Leads key target seen m x len)
    (hnext : m'.cells.next = m.cells.next)
    (hkeys : ∀ a i, seen a = some i → a ≠ target → (m.data a).key[i]? ≠ key[i]? →
      (m'.data a).key[i]? ≠ key[i]?) :
    Leads key target seen m' x len := by
  obtain ⟨l, hspine, hmem, hlen, hseen⟩ := h
  refine ⟨l, hspine.congr fun a _ => congrFun hnext a, hmem, hlen, ?_⟩
  intro a ha
  obtain ⟨i, hi, hbyte⟩ := hseen a ha
  exact ⟨i, hi, fun hne => hkeys a i hi hne (hbyte hne)⟩

theorem data_setElem (m : khashmap key_size value_size) (elem a : Nat)
    (d : khashmap_elem key_size value_size) :
    (m.setElem elem d).data a = if a = elem then d else m.data a := Function.update_apply _ _ _ _

theorem key_setElem (m : khashmap key_size value_size) {elem a : Nat}
    {d : khashmap_elem key_size value_size} (hd : d.key = (m.data elem).key) :
    ((m.setElem elem d).data a).key = (m.data a).key := by
  rw [data_setElem]
  split
  · rename_i ha
    rw [ha, hd]
  · rfl

/-- A byte of a key behind a store to a key. -/
theorem byte_store_key (m : khashmap key_size value_size) (elem a : Nat) (i : Fin key_size.toNat)
    (byte : U8) (j : Nat) :
    ((m.store (.key elem i byte)).data a).key[j]? =
      if a = elem ∧ j = i.val then some byte else (m.data a).key[j]? := by
  rw [khashmap.store, data_setElem]
  by_cases ha : a = elem
  · subst ha
    rw [if_pos rfl, Vector.getElem?_set]
    by_cases hj : i.val = j
    · rw [if_pos hj, if_pos ⟨rfl, hj.symm⟩]
    · rw [if_neg hj, if_neg fun h => hj h.2.symm]
  · rw [if_neg ha, if_neg fun h => ha h.1]

/-- A reader with a pointer still comes to the element. -/
theorem Harmless.leads (hst : Harmless key hash target bound seen m st seen')
    (h : Leads key target seen m x len) : Leads key target seen' (m.store st) x len := by
  cases hst with
  | next_free addr => exact h.congr rfl fun _ _ _ _ hbyte => hbyte
  | pprev elem place => exact h.congr rfl fun _ _ _ _ hbyte => hbyte
  | count n => exact h.congr rfl fun _ _ _ _ hbyte => hbyte
  | value elem v =>
    refine h.congr rfl fun a i _ _ hbyte => ?_
    have hkey : ((m.store (.value elem v)).data a).key = (m.data a).key := key_setElem m rfl
    rw [hkey]
    exact hbyte
  | @hash elem v hsame =>
    refine h.congr rfl fun a i _ _ hbyte => ?_
    have hkey : ((m.store (.hash elem v)).data a).key = (m.data a).key := key_setElem m rfl
    rw [hkey]
    exact hbyte
  | @key elem i byte hsame hother =>
    refine h.congr rfl fun a j hj hne hbyte => ?_
    rw [byte_store_key]
    split
    · rename_i hat
      obtain ⟨rfl, rfl⟩ := hat
      rw [Vector.getElem?_eq_getElem i.isLt]
      exact fun heq => hother hne hj (Option.some.inj heq)
    · exact hbyte
  | @link n y hnew =>
    obtain ⟨l, hspine, hmem, hlen, hseen⟩ := h
    have hplace : ∀ a ∈ l, Place.next (H := Nat) n ≠ .next a := by
      rintro a ha ⟨⟩
      obtain ⟨i, hi, -⟩ := hseen n ha
      rw [hnew] at hi
      cases hi
    exact ⟨l, hspine.write y hplace, hmem, hlen, hseen⟩
  | @publish h' n i hnew hnext hkey hbound =>
    obtain ⟨l, hspine, hmem, hlen, hseen⟩ := h
    have hplace : ∀ a ∈ l, Place.head (A := Nat) h' ≠ .next a := fun a _ => nofun
    refine ⟨l, hspine.write (.cell n) hplace, hmem, hlen, ?_⟩
    intro a ha
    obtain ⟨j, hj, hbyte⟩ := hseen a ha
    have hne : a ≠ n := by
      rintro rfl
      rw [hnew] at hj
      cases hj
    exact ⟨j, by rw [Function.update_of_ne hne, hj], hbyte⟩
  | @skip place n hplace hne =>
    obtain ⟨l, hspine, hmem, hlen, hseen⟩ := h
    obtain ⟨l', hspine', hsub, hkeep⟩ := hspine.skip hplace
    exact ⟨l', hspine', hkeep target hmem (Ne.symm hne), hsub.length_le.trans hlen,
      fun a ha => hseen a (hsub.subset ha)⟩

theorem first_store_pointer (m : khashmap key_size value_size) (place : Place Nat Nat)
    (y : Ptr Nat Nat) (b : Nat) :
    (m.store (.pointer place y)).cells.first b =
      if place = .head b then y else m.cells.first b := by
  change (m.cells.write y place).read (.head b) =
    if place = .head b then y else m.cells.read (.head b)
  rw [Cells.read_write]
  simp only [eq_comm]

/-- A reader that begins behind the store comes to the element, too. -/
theorem Harmless.leads_head {b : Nat} (hst : Harmless key hash target bound seen m st seen')
    (h : Leads key target seen m (m.cells.first b) bound) :
    Leads key target seen' (m.store st) ((m.store st).cells.first b) bound := by
  have hkeep := hst.leads h
  cases hst with
  | next_free addr => exact hkeep
  | pprev elem place => exact hkeep
  | count n => exact hkeep
  | value elem v => exact hkeep
  | hash hsame => exact hkeep
  | key hsame hother => exact hkeep
  | @link n y hnew =>
    rw [first_store_pointer, if_neg nofun]
    exact hkeep
  | @publish h' n i hnew hnext hkey hbound =>
    rw [first_store_pointer]
    split
    · -- the new element comes first, and then the others
      rename_i hb
      obtain rfl := Place.head.inj hb
      obtain ⟨l, hspine, hmem, -, -⟩ := h
      obtain ⟨l', hspine', -, -, hseen'⟩ := hkeep
      have hplace : ∀ a ∈ n :: l, Place.head (A := Nat) h' ≠ .next a := fun a _ => nofun
      have hcons : Spine m.cells (.cell n) (n :: l) := ⟨rfl, hnext ▸ hspine⟩
      obtain rfl :=
        hspine'.unique (hspine.write (.cell n) fun a ha => hplace a (List.mem_cons_of_mem n ha))
      refine ⟨n :: l', hcons.write (.cell n) hplace, List.mem_cons_of_mem n hmem, hbound l' hspine,
        ?_⟩
      intro a ha
      rcases List.mem_cons.mp ha with rfl | ha
      · exact ⟨i, Function.update_self .., fun _ => hkey⟩
      · exact hseen' a ha
    · exact hkeep
  | @skip place n hplace hne =>
    rw [first_store_pointer]
    split
    · -- the first element is taken out
      rename_i hb
      subst hb
      obtain ⟨l, hspine, hmem, hlen, hseen⟩ := h
      rw [show m.cells.first b = .cell n from hplace] at hspine
      cases l with
      | nil => exact absurd hspine id
      | cons a l =>
        obtain ⟨rfl, hspine⟩ := hspine
        have hother : ∀ a ∈ l, Place.head (A := Nat) b ≠ .next a := fun a _ => nofun
        exact ⟨l, hspine.write _ hother, (List.mem_cons.mp hmem).resolve_left (Ne.symm hne),
          (Nat.le_succ _).trans hlen, fun a ha => hseen a (List.mem_cons_of_mem n ha)⟩
    · exact hkeep

/-- The element of the key keeps its hash and its key. -/
theorem Harmless.target_data (hst : Harmless key hash target bound seen m st seen')
    (h : (m.data target).hash = hash ∧ (m.data target).key = key) :
    ((m.store st).data target).hash = hash ∧ ((m.store st).data target).key = key := by
  cases hst with
  | next_free addr => exact h
  | pprev elem place => exact h
  | count n => exact h
  | link y hnew => exact h
  | publish hnew hnext hkey hbound => exact h
  | skip hplace hne => exact h
  | @value elem v =>
    rw [khashmap.store, data_setElem]
    split
    · rename_i heq
      rw [← heq]
      exact h
    · exact h
  | @hash elem v hsame =>
    rw [khashmap.store, data_setElem]
    split
    · rename_i heq
      refine ⟨hsame heq.symm, ?_⟩
      rw [← heq]
      exact h.2
    · exact h
  | @key elem i byte hsame hother =>
    rw [khashmap.store, data_setElem]
    split
    · rename_i heq
      subst heq
      refine ⟨h.1, ?_⟩
      rw [hsame rfl, h.2]
      exact Vector.set_getElem_self _
    · exact h

/-- The sizes and the random number stay, so the bucket of a key does. -/
theorem store_sizes (m : khashmap key_size value_size) (st : Store key_size value_size) :
    (m.store st).hashrnd = m.hashrnd ∧ (m.store st).n_buckets = m.n_buckets := by
  cases st <;> exact ⟨rfl, rfl⟩

end

/-! ## The reader among the stores -/

/-- How many accesses the reader makes for one element: the hash, the key and the
pointer to the next one. -/
def perElem (key_size : U32) : Nat := key_size.toNat + 2

section

variable (key : Vector U8 key_size.toNat) (target bound : Nat)

/-- The reader is on its way to the element: `left` accesses are enough. In the
key of another element it has not come past the byte that differs. -/
def OnTheWay (seen : Nat → Option Nat) (m : khashmap key_size value_size) (left : Nat) :
    Reader → Prop
  | .start => perElem key_size * bound + 1 ≤ left
  | .at x => ∃ len, Leads key target seen m x len ∧ perElem key_size * len ≤ left
  | .compare elem i => ∃ len, Leads key target seen m (.cell elem) (len + 1) ∧
      (elem ≠ target → ∃ j, seen elem = some j ∧ i ≤ j) ∧ i < key_size.toNat ∧
      perElem key_size * len + (key_size.toNat - i) + 1 ≤ left
  | .next elem => ∃ len, elem ≠ target ∧ Leads key target seen m (.cell elem) (len + 1) ∧
      perElem key_size * len + 1 ≤ left
  | .found elem => elem = target
  | .missing => False

end

section

variable {jhash} {key : Vector U8 key_size.toNat} {hash : U32} {target bound : Nat}
  {seen seen' : Nat → Option Nat} {m : khashmap key_size value_size}
    {st : Store key_size value_size}
  {left : Nat} {r : Reader}

theorem Harmless.seen_mono (hst : Harmless key hash target bound seen m st seen') {a i : Nat}
    (h : seen a = some i) : seen' a = some i := by
  cases hst with
  | @publish b n j hnew hnext hkey hbound =>
    have hne : a ≠ n := by
      rintro rfl
      rw [hnew] at h
      cases h
    rw [Function.update_of_ne hne, h]
  | _ => exact h

theorem OnTheWay.store (h : OnTheWay key target bound seen m left r)
    (hst : Harmless key hash target bound seen m st seen') :
    OnTheWay key target bound seen' (m.store st) left r := by
  cases r with
  | start => exact h
  | «at» x =>
    obtain ⟨len, hleads, hleft⟩ := h
    exact ⟨len, hst.leads hleads, hleft⟩
  | compare elem i =>
    obtain ⟨len, hleads, hbyte, hleft⟩ := h
    refine ⟨len, hst.leads hleads, fun hne => ?_, hleft⟩
    obtain ⟨j, hj, hle⟩ := hbyte hne
    exact ⟨j, hst.seen_mono hj, hle⟩
  | next elem =>
    obtain ⟨len, hne, hleads, hleft⟩ := h
    exact ⟨len, hne, hst.leads hleads, hleft⟩
  | found elem => exact h
  | missing => exact h

theorem not_leads_stop {nulls len : Nat} : ¬ Leads key target seen m (.stop nulls) len := by
  rintro ⟨l, hspine, hmem, -⟩
  cases l with
  | nil => exact absurd hmem List.not_mem_nil
  | cons a l => exact hspine

/-- An element of the way that is not the one of the key has a byte that differs. -/
theorem Leads.byte_ne {elem len : Nat} (h : Leads key target seen m (.cell elem) len)
    (hne : elem ≠ target) :
    ∃ i, seen elem = some i ∧ (m.data elem).key[i]? ≠ key[i]? := by
  obtain ⟨l, hspine, -, -, hseen⟩ := h
  cases l with
  | nil => exact absurd hspine id
  | cons a l =>
    obtain ⟨rfl, -⟩ := hspine
    obtain ⟨i, hi, hbyte⟩ := hseen elem List.mem_cons_self
    exact ⟨i, hi, hbyte hne⟩

/-- Behind it the way goes on. -/
theorem Leads.tail {elem len : Nat} (h : Leads key target seen m (.cell elem) (len + 1))
    (hne : elem ≠ target) :
    Leads key target seen m (m.cells.next elem) len := by
  obtain ⟨l, hspine, hmem, hlen, hseen⟩ := h
  cases l with
  | nil => exact absurd hspine id
  | cons a l =>
    obtain ⟨rfl, hspine⟩ := hspine
    exact ⟨l, hspine, (List.mem_cons.mp hmem).resolve_left (Ne.symm hne),
      Nat.le_of_succ_le_succ hlen, fun a ha => hseen a (List.mem_cons_of_mem elem ha)⟩

theorem Leads.pos {x : Ptr Nat Nat} {len : Nat} (h : Leads key target seen m x len) : 0 < len := by
  obtain ⟨l, -, hmem, hlen, -⟩ := h
  exact (List.length_pos_of_mem hmem).trans_le hlen

/-- The bytes before `i` are compared, and the ones of another element are not all. -/
theorem OnTheWay.compared {elem i len : Nat}
    (hleads : Leads key target seen m (.cell elem) (len + 1))
    (hbyte : elem ≠ target → ∃ j, seen elem = some j ∧ i ≤ j)
    (hleft : perElem key_size * len + (key_size.toNat - i) + 1 ≤ left) :
    OnTheWay key target bound seen m left (.compared key_size elem i) := by
  unfold Reader.compared
  split
  · rename_i hi
    exact ⟨len, hleads, hbyte, hi, hleft⟩
  · rename_i hi
    by_contra hne
    obtain ⟨j, hj, hle⟩ := hbyte hne
    obtain ⟨j', hj', hdiffers⟩ := hleads.byte_ne hne
    cases hj.symm.trans hj'
    refine hdiffers ?_
    rw [Vector.getElem?_eq_none (by omega), Vector.getElem?_eq_none (by omega)]

/-- Each access of the reader takes one of those that are left. -/
theorem OnTheWay.read (h : OnTheWay key target bound seen m left r)
    (htarget : (m.data target).hash = jhash key m.hashrnd ∧ (m.data target).key = key)
    (hhead : Leads key target seen m (m.cells.first (m.bucketIndex (jhash key m.hashrnd))) bound) :
    OnTheWay key target bound seen m (left - 1) (readStep jhash key m r) := by
  cases r with
  | start =>
    have hleft : perElem key_size * bound + 1 ≤ left := h
    exact ⟨bound, hhead, Nat.le_sub_one_of_lt hleft⟩
  | found elem => exact h
  | missing => exact h
  | next elem =>
    obtain ⟨len, hne, hleads, hleft⟩ := h
    exact ⟨len, hleads.tail hne, Nat.le_sub_one_of_lt hleft⟩
  | compare elem i =>
    obtain ⟨len, hleads, hbyte, hi, hleft⟩ := h
    rw [readStep]
    split
    · rename_i hsame
      refine OnTheWay.compared hleads (fun hne => ?_) (by omega)
      obtain ⟨j, hj, hle⟩ := hbyte hne
      obtain ⟨j', hj', hdiffers⟩ := hleads.byte_ne hne
      cases hj.symm.trans hj'
      refine ⟨j, hj, Nat.lt_of_le_of_ne hle ?_⟩
      rintro rfl
      exact hdiffers (beq_iff_eq.mp hsame)
    · rename_i hdiffers
      refine ⟨len, ?_, hleads, by omega⟩
      rintro rfl
      exact hdiffers (beq_iff_eq.mpr (by rw [htarget.2]))
  | «at» x =>
    obtain ⟨len, hleads, hleft⟩ := h
    cases x with
    | stop nulls => exact absurd hleads not_leads_stop
    | cell elem =>
      obtain ⟨len, rfl⟩ := Nat.exists_eq_succ_of_ne_zero (Nat.ne_of_gt hleads.pos)
      have hone : perElem key_size * len + key_size.toNat + 2 ≤ left := by
        rw [Nat.mul_succ] at hleft
        exact hleft
      rw [readStep]
      split
      · refine OnTheWay.compared hleads (fun hne => ?_) (by omega)
        obtain ⟨j, hj, -⟩ := hleads.byte_ne hne
        exact ⟨j, hj, Nat.zero_le j⟩
      · rename_i hhash
        refine ⟨len, ?_, hleads, by omega⟩
        rintro rfl
        exact hhash (beq_iff_eq.mpr htarget.1)

/-- No access is left only when the reader has the element. -/
theorem OnTheWay.done (h : OnTheWay key target bound seen m 0 r) : r = .found target := by
  cases r with
  | start => exact absurd h (Nat.not_succ_le_zero _)
  | found elem => exact congrArg Reader.found h
  | missing => exact absurd h id
  | next elem =>
    obtain ⟨len, -, -, hleft⟩ := h
    exact absurd hleft (Nat.not_succ_le_zero _)
  | compare elem i =>
    obtain ⟨len, -, -, -, hleft⟩ := h
    exact absurd hleft (Nat.not_succ_le_zero _)
  | «at» x =>
    obtain ⟨len, hleads, hleft⟩ := h
    have hpos : 0 < perElem key_size * len := Nat.mul_pos (Nat.succ_pos _) hleads.pos
    exact absurd hleft (Nat.not_le_of_lt hpos)

end

/-! ## The stores of an operation -/

section

variable {key : Vector U8 key_size.toNat} {hash : U32} {target bound : Nat}
  {seen seen' seen'' : Nat → Option Nat}
  {m : khashmap key_size value_size} {ss ts : List (Store key_size value_size)}

theorem AllHarmless.append (hss : AllHarmless key hash target bound seen m ss seen')
    (hts : AllHarmless key hash target bound seen' (m.stores ss) ts seen'') :
    AllHarmless key hash target bound seen m (ss ++ ts) seen'' := by
  induction hss with
  | nil seen m => exact hts
  | cons hst _ ih => exact .cons hst (ih hts)

theorem relink_harmless (m : khashmap key_size value_size) (place : Place Nat Nat)
    (x : Ptr Nat Nat) :
    AllHarmless key hash target bound seen m (relinkStores place x) seen := by
  cases x with
  | cell a => exact .cons (.pprev a (some place)) (.nil seen _)
  | stop e => exact .nil seen m

/-- The element of the key gets what it has, and the key of another one differs
from the key in its byte. -/
theorem elem_harmless (m : khashmap key_size value_size) {elem : Nat} {v : U32}
    {k : Vector U8 key_size.toNat} (value : Vector U8 value_size.toNat)
    (hsame : elem = target → v = hash ∧ k = key)
    (hother : elem ≠ target → ∀ i, seen elem = some i → k[i]? ≠ key[i]?) :
    AllHarmless key hash target bound seen m (elemStores elem v k value) seen := by
  have hkeys : ∀ (is : List (Fin key_size.toNat)) (m : khashmap key_size value_size),
      AllHarmless key hash target bound seen m (is.map fun i => .key elem i (k.get i)) seen := by
    intro is
    induction is with
    | nil => exact fun m => .nil seen m
    | cons i is ih =>
      intro m
      refine .cons (.key ?_ ?_) (ih _)
      · intro heq
        rw [(hsame heq).2]
      · intro hne hi heq
        refine hother hne i hi ?_
        rw [Vector.getElem?_eq_getElem i.isLt, Vector.getElem?_eq_getElem i.isLt]
        exact congrArg some heq
  exact .cons (.hash fun heq => (hsame heq).1)
    ((hkeys _ _).append (.cons (.value elem value) (.nil seen _)))

/-- A new element comes in front of its list when it points to it already. -/
theorem add_head_harmless {n h i : Nat} {l : List Nat} (hl : Spine m.cells (m.cells.first h) l)
    (hnl : n ∉ l) (hlen : l.length < bound) (hnew : seen n = none)
    (hkey : (m.data n).key[i]? ≠ key[i]?) :
    AllHarmless key hash target bound seen m (hlist_nulls_add_head m.cells n h)
      (Function.update seen n (some i)) := by
  have hplace : ∀ a ∈ l, Place.next (H := Nat) n ≠ .next a := by
    rintro a ha ⟨⟩
    exact hnl ha
  have hnext : (m.cells.write (m.cells.first h) (.next n)).next n = m.cells.first h :=
    Function.update_self ..
  have hbound : ∀ k, Spine (m.cells.write (m.cells.first h) (.next n)) (m.cells.first h) k →
      k.length < bound := by
    intro k hk
    rw [hk.unique (hl.write _ hplace)]
    exact hlen
  refine .cons (.link _ hnew)
    (.cons (.pprev n _) (.cons (.publish hnew hnext hkey ?_) (relink_harmless _ _ _)))
  intro k hk
  exact hbound k (hk.congr fun _ _ => rfl)

/-- An element of another key is skipped. -/
theorem del_harmless {n : Nat} {place : Place Nat Nat} (hplace : m.cells.read place = .cell n)
    (hne : n ≠ target) :
    AllHarmless key hash target bound seen m (hlist_nulls_del m.cells n place) seen :=
  .cons (.skip hplace hne) ((relink_harmless _ _ _).append (.cons (.pprev n none) (.nil seen _)))

end

/-! ## Between two operations -/

section

variable (max_entries : U32) (key : Vector U8 key_size.toNat) (target : Nat)
  (m₀ : khashmap key_size value_size)

/-- No operation is under way. The elements that were not handed out since `m₀`
are as they were. -/
structure Settled (seen : Nat → Option Nat) (m : khashmap key_size value_size)
    (g : History key_size value_size) (chains : Nat → List Nat) : Prop where
  holds : Holds jhash max_entries m g chains
  here : ∃ b, target ∈ chains b
  bytes : ∀ b, ∀ a ∈ chains b, ∃ i, seen a = some i ∧ (a ≠ target → (m.data a).key[i]? ≠ key[i]?)
  key : (m.data target).key = key
  below : ∀ a, seen a ≠ none → a < m.next_free
  free : m₀.next_free ≤ m.next_free ∧ ∀ a, m.next_free ≤ a → m.data a = m₀.data a

/-- The operation leaves the key in the map. A new key differs from it in a byte in
which the free elements do, too. -/
def Spares : Op key_size value_size → Prop
  | .update k _ =>
    k = key ∨ ∀ a, m₀.next_free ≤ a → ∃ i : Nat, (m₀.data a).key[i]? ≠ key[i]? ∧ k[i]? ≠ key[i]?
  | .delete k => k ≠ key
  | .clear => False

end

section

variable {jhash fuel} {m m₀ : khashmap key_size value_size} {g : History key_size value_size}
  {chains : Nat → List Nat} {max_entries : U32} {key : Vector U8 key_size.toNat} {target : Nat}
  {seen : Nat → Option Nat} {ss : List (Store key_size value_size)}

/-- The stores of an update: those of the element of its key, or of a new one. -/
theorem Holds.storesOf_update (h : Holds jhash max_entries m g chains)
    (hmax : max_entries.toNat ≤ 2 ^ 31) (hfuel : max_entries.toNat < fuel)
    {k : Vector U8 key_size.toNat} {value : Vector U8 value_size.toNat}
    (hss : storesOf jhash fuel m (.update k value) = .ok ss) :
    let v := jhash k m.hashrnd
    let b := m.bucketIndex v
    (∃ a ∈ chains b, (m.data a).key = k ∧ ss = elemStores a v k value) ∨
      (k ∉ g.present ∧ m.Inside m.next_free ∧
        ss = .next_free (m.next_free + m.elem_size.toNat) :: hlist_nulls_add_head m.cells
          m.next_free b ++ .count (m.count + 1) :: elemStores m.next_free v k value) := by
  intro v b
  obtain ⟨found, hfound, -, hcase⟩ := h.find hmax hfuel k
  rw [storesOf, h.select_bucket_ok hmax] at hss
  dsimp only [bind, Except.bind] at hss
  rw [hfound] at hss
  rcases hcase with ⟨a, ha, rfl, hkey⟩ | ⟨rfl, hnot⟩
  · exact .inl ⟨a, ha, hkey, (Except.ok.inj hss).symm⟩
  · dsimp only at hss
    split at hss
    · rename_i hinside
      exact .inr ⟨hnot, hinside, (Except.ok.inj hss).symm⟩
    · cases hss

/-- The stores of a delete: those that take the element of its key out, or none. -/
theorem Holds.storesOf_delete (h : Holds jhash max_entries m g chains)
    (hmax : max_entries.toNat ≤ 2 ^ 31) (hfuel : max_entries.toNat < fuel)
    {k : Vector U8 key_size.toNat} (hss : storesOf jhash fuel m (.delete k) = .ok ss) :
    let b := m.bucketIndex (jhash k m.hashrnd)
    (∃ a ∈ chains b, (m.data a).key = k ∧ ∃ p, m.cells.pprev a = some p ∧ m.cells.read p = .cell a ∧
      ss = hlist_nulls_del m.cells a p ++ [.count (m.count - 1)]) ∨ ss = [] := by
  intro b
  obtain ⟨found, hfound, -, hcase⟩ := h.find hmax hfuel k
  rw [storesOf, h.select_bucket_ok hmax] at hss
  dsimp only [bind, Except.bind] at hss
  rw [hfound] at hss
  rcases hcase with ⟨a, ha, rfl, hkey⟩ | ⟨rfl, hnot⟩
  · obtain ⟨p, hp, hread⟩ := (h.lists.linked b (h.bucketIndex_lt hmax _)).read_pprev ha
    dsimp only at hss
    rw [hp] at hss
    exact .inl ⟨a, ha, hkey, p, hp, hread, (Except.ok.inj hss).symm⟩
  · exact .inr (Except.ok.inj hss).symm

theorem Settled.overwrite (h : Settled jhash max_entries key target m₀ seen m g chains) {a b : Nat}
    (ha : a ∈ chains b) (value : Vector U8 value_size.toNat) :
    let ss := elemStores a (jhash (m.data a).key m.hashrnd) (m.data a).key value
    AllHarmless key (jhash key m.hashrnd) target max_entries.toNat seen m ss seen ∧
      Settled jhash max_entries key target m₀ seen (m.stores ss)
        (g.step (.update (m.data a).key value)) chains := by
  intro ss
  have hkeys : ∀ x, ((m.stores ss).data x).key = (m.data x).key := by
    intro x
    rw [stores_elem]
    exact key_setElem m rfl
  obtain ⟨i, hi, hbyte⟩ := h.bytes b a ha
  constructor
  · refine elem_harmless m value ?_ ?_
    · rintro rfl
      rw [h.key]
      exact ⟨rfl, rfl⟩
    · intro hne j hj
      cases hi.symm.trans hj
      exact hbyte hne
  · refine ⟨?_, h.here, ?_, (hkeys target).trans h.key, ?_, ?_⟩
    · exact (stores_elem m a _ _ value).symm ▸ h.holds.overwrite ha rfl
    · intro c x hx
      rw [hkeys x]
      exact h.bytes c x hx
    · rw [stores_elem]
      exact h.below
    · rw [stores_elem]
      refine ⟨h.free.1, fun x hx => ?_⟩
      have hxa : x ≠ a := by
        rintro rfl
        have hlt := h.below x (by rw [hi]; nofun)
        exact absurd hlt (Nat.not_lt_of_le hx)
      rw [data_setElem, if_neg hxa]
      exact h.free.2 x hx

theorem Settled.add (h : Settled jhash max_entries key target m₀ seen m g chains)
    (hmax : max_entries.toNat ≤ 2 ^ 31) {k : Vector U8 key_size.toNat} (hnot : k ∉ g.present)
    (hinside : m.Inside m.next_free) (value : Vector U8 value_size.toNat) {i : Nat}
    (hfree : (m.data m.next_free).key[i]? ≠ key[i]?) (hbyte : k[i]? ≠ key[i]?) :
    let b := m.bucketIndex (jhash k m.hashrnd)
    let ss :=
      .next_free (m.next_free + m.elem_size.toNat) :: hlist_nulls_add_head m.cells m.next_free b ++
      .count (m.count + 1) :: elemStores m.next_free (jhash k m.hashrnd) k value
    let seen' := Function.update seen m.next_free (some i)
    AllHarmless key (jhash key m.hashrnd) target max_entries.toNat seen m ss seen' ∧
      Settled jhash max_entries key target m₀ seen' (m.stores ss) (g.step (.update k value))
        (Function.update chains b (m.next_free :: chains b)) := by
  intro b ss seen'
  obtain ⟨bt, htarget⟩ := h.here
  have hsize : 0 < m.elem_size.toNat := by
    rw [h.holds.sizes.2.2]
    exact elemSize_pos (h.holds.inside_next_free_iff.mp hinside).1
  have hout := h.holds.next_free_new hsize
  have hchains := mem_cons_chains (h := b) hout
  have hne : m.next_free ≠ target := by
    rintro heq
    exact hout bt (heq ▸ htarget)
  have hnew : seen m.next_free = none := by
    by_contra hsome
    exact Nat.lt_irrefl _ (h.below _ hsome)
  have hadded :
      Holds jhash max_entries ((m.addElem b).setElem m.next_free ⟨jhash k m.hashrnd, k, value⟩)
        _ _ :=
    h.holds.add hmax hnot hinside
  have hdata : ∀ x, x ≠ m.next_free → (m.stores ss).data x = m.data x := by
    intro x hx
    rw [stores_add, data_setElem, if_neg hx]
    rfl
  have hseen' : ∀ x, x ≠ m.next_free → seen' x = seen x := fun x hx => Function.update_of_ne hx ..
  have hself : seen' m.next_free = some i := Function.update_self ..
  have hnext : (m.stores ss).next_free = m.next_free + m.elem_size.toNat := by
    rw [stores_add]
    rfl
  constructor
  · have hspine := (h.holds.lists.linked b (h.holds.bucketIndex_lt hmax _)).spine
    have hlen : (chains b).length < max_entries.toNat := by
      have hle := hadded.length_le b
      rwa [Function.update_self] at hle
    refine .cons (.next_free _) (.append (add_head_harmless hspine (hout b) hlen hnew hfree)
      (.cons (.count _) (elem_harmless _ value ?_ ?_)))
    · exact fun heq => absurd heq hne
    · intro _ j hj
      cases hself.symm.trans hj
      exact hbyte
  · refine ⟨(stores_add m b _ k value).symm ▸ hadded, ?_, ?_, ?_, ?_, ?_⟩
    · exact ⟨bt, (hchains bt target).mpr (.inr ⟨htarget, Ne.symm hne⟩)⟩
    · intro c x hx
      rcases (hchains c x).mp hx with ⟨-, rfl⟩ | ⟨hx, hxn⟩
      · refine ⟨i, hself, fun _ => ?_⟩
        rw [stores_add, data_setElem, if_pos rfl]
        exact hbyte
      · rw [hdata x hxn, hseen' x hxn]
        exact h.bytes c x hx
    · rw [hdata target (Ne.symm hne)]
      exact h.key
    · intro x hx
      rw [hnext]
      by_cases hxn : x = m.next_free
      · omega
      · rw [hseen' x hxn] at hx
        exact Nat.lt_add_right _ (h.below x hx)
    · rw [hnext]
      refine ⟨Nat.le_add_right_of_le h.free.1, fun x hx => ?_⟩
      rw [hdata x (by omega)]
      exact h.free.2 x (Nat.le_of_add_right_le hx)

theorem Settled.delete (h : Settled jhash max_entries key target m₀ seen m g chains)
    (hmax : max_entries.toNat ≤ 2 ^ 31) {k : Vector U8 key_size.toNat} (hne : k ≠ key) {a : Nat}
    (ha : a ∈ chains (m.bucketIndex (jhash k m.hashrnd))) (hkey : (m.data a).key = k)
    {p : Place Nat Nat} (hp : m.cells.pprev a = some p) (hread : m.cells.read p = .cell a) :
    let ss := hlist_nulls_del m.cells a p ++ [.count (m.count - 1)]
    AllHarmless key (jhash key m.hashrnd) target max_entries.toNat seen m ss seen ∧
      ∃ chains',
        Settled jhash max_entries key target m₀ seen (m.stores ss) (g.step (.delete k))
          chains' := by
  intro ss
  obtain ⟨bt, htarget⟩ := h.here
  have hat : a ≠ target := by
    rintro rfl
    exact hne (hkey.symm.trans h.key)
  constructor
  · exact (del_harmless hread hat).append (.cons (.count _) (.nil seen _))
  · obtain ⟨cells, hcells, hdeleted⟩ := h.holds.delete ha (h.holds.bucketIndex_lt hmax _) hkey
    rw [Cells.remove, hp] at hcells
    cases hcells
    rw [stores_delete]
    refine ⟨_, hdeleted, ⟨bt, ?_⟩, ?_, h.key, h.below, h.free⟩
    · rw [mem_update_chains]
      by_cases hb : bt = m.bucketIndex (jhash k m.hashrnd)
      · exact .inl ⟨hb, (List.mem_erase_of_ne (Ne.symm hat)).mpr (hb ▸ htarget)⟩
      · exact .inr ⟨hb, htarget⟩
    · intro c x hx
      rcases mem_update_chains.mp hx with ⟨hc, hx⟩ | ⟨-, hx⟩
      · exact h.bytes _ x (List.mem_of_mem_erase hx)
      · exact h.bytes c x hx

/-- The stores of an operation that spares the key are harmless, and behind them
the map is settled again. -/
theorem Settled.op (h : Settled jhash max_entries key target m₀ seen m g chains)
    (hmax : max_entries.toNat ≤ 2 ^ 31) (hfuel : max_entries.toNat < fuel)
    {op : Op key_size value_size} (hop : Spares key m₀ op)
    (hss : storesOf jhash fuel m op = .ok ss) :
    ∃ seen', AllHarmless key (jhash key m.hashrnd) target max_entries.toNat seen m ss seen' ∧
      ∃ g' chains', Settled jhash max_entries key target m₀ seen' (m.stores ss) g' chains' := by
  cases op with
  | clear => exact absurd hop id
  | update k value =>
    rcases h.holds.storesOf_update hmax hfuel hss with ⟨a, ha, rfl, rfl⟩ | ⟨hnot, hinside, rfl⟩
    · obtain ⟨hharmless, hsettled⟩ := h.overwrite ha value
      exact ⟨seen, hharmless, _, chains, hsettled⟩
    · obtain ⟨bt, htarget⟩ := h.here
      have hne : k ≠ key := by
        rintro rfl
        exact hnot (h.key ▸ h.holds.stored.mem_present htarget)
      obtain ⟨i, hfree, hbyte⟩ := hop.resolve_left hne m.next_free h.free.1
      rw [← h.free.2 m.next_free (Nat.le_refl _)] at hfree
      obtain ⟨hharmless, hsettled⟩ := h.add hmax hnot hinside value hfree hbyte
      exact ⟨_, hharmless, _, _, hsettled⟩
  | delete k =>
    rcases h.holds.storesOf_delete hmax hfuel hss with ⟨a, ha, hkey, p, hp, hread, rfl⟩ | rfl
    · obtain ⟨hharmless, chains', hsettled⟩ := h.delete hmax hop ha hkey hp hread
      exact ⟨seen, hharmless, _, chains', hsettled⟩
    · exact ⟨seen, .nil seen m, g, chains, h⟩

end

/-! ## Every interleaving -/

section

variable (max_entries : U32) (key : Vector U8 key_size.toNat) (target : Nat)
  (m₀ : khashmap key_size value_size)

/-- The stores to come are harmless, the head of the bucket leads to the element,
and so does the way of the reader. -/
structure Safe (left : Nat) (s : Shared key_size value_size) : Prop where
  sizes : s.m.hashrnd = m₀.hashrnd ∧ s.m.n_buckets = m₀.n_buckets
  data : (s.m.data target).hash = jhash key m₀.hashrnd ∧ (s.m.data target).key = key
  way : ∃ seen seen',
    AllHarmless key (jhash key m₀.hashrnd) target max_entries.toNat seen s.m s.pending seen' ∧
    (∃ g chains, Settled jhash max_entries key target m₀ seen' (s.m.stores s.pending) g chains) ∧
    Leads key target seen s.m (s.m.cells.first (m₀.bucketIndex (jhash key m₀.hashrnd)))
      max_entries.toNat ∧
    OnTheWay key target max_entries.toNat seen s.m left s.reader

/-- An operation of the writer spares the key. -/
def Access.Spares : Access key_size value_size → Prop
  | .op o => khash.Spares key m₀ o
  | _ => True

end

section

variable {jhash fuel} {m m₀ : khashmap key_size value_size} {max_entries : U32}
  {key : Vector U8 key_size.toNat} {target left : Nat} {s s' : Shared key_size value_size}
  {e : Access key_size value_size}

theorem Safe.step (h : Safe jhash max_entries key target m₀ left s)
    (hmax : max_entries.toNat ≤ 2 ^ 31) (hfuel : max_entries.toNat < fuel) (he : e.Spares key m₀)
    (hstep : s.step jhash fuel key e = some s') :
    Safe jhash max_entries key target m₀ (left - if e.isRead then 1 else 0) s' := by
  obtain ⟨m, pending, reader⟩ := s
  obtain ⟨seen, seen', hpending, ⟨g, chains, hsettled⟩, hhead, hway⟩ := h.way
  have hrnd : m.hashrnd = m₀.hashrnd := h.sizes.1
  cases e with
  | read =>
    cases hstep
    have hbucket : m.bucketIndex (jhash key m.hashrnd) = m₀.bucketIndex (jhash key m₀.hashrnd) := by
      rw [khashmap.bucketIndex, khashmap.bucketIndex, hrnd, h.sizes.2]
    refine ⟨h.sizes, h.data, seen, seen', hpending, ⟨g, chains, hsettled⟩, hhead, ?_⟩
    exact hway.read (hrnd ▸ h.data) (hbucket ▸ hhead)
  | store =>
    cases hpending with
    | nil => cases hstep
    | cons hst hss =>
      cases hstep
      obtain ⟨hrnd', hbuckets⟩ := store_sizes m _
      refine ⟨⟨hrnd'.trans h.sizes.1, hbuckets.trans h.sizes.2⟩, hst.target_data h.data, _, seen',
        hss, ⟨g, chains, hsettled⟩, hst.leads_head hhead, hway.store hst⟩
  | op op =>
    rw [Shared.step] at hstep
    split at hstep
    · rename_i ss hnil hss
      cases hstep
      have hnil : pending = [] := hnil
      subst hnil
      cases hpending
      obtain ⟨seen', hharmless, hsettled'⟩ := hsettled.op hmax hfuel he hss
      exact ⟨h.sizes, h.data, seen, seen', hrnd ▸ hharmless, hsettled', hhead, hway⟩
    · cases hstep

theorem Safe.run {events : List (Access key_size value_size)}
    (h : Safe jhash max_entries key target m₀ left s) (hmax : max_entries.toNat ≤ 2 ^ 31)
    (hfuel : max_entries.toNat < fuel) (hspares : ∀ e ∈ events, e.Spares key m₀)
    (hrun : runM (Shared.step jhash fuel key) s events = some s') :
    Safe jhash max_entries key target m₀ (left - events.countP Access.isRead) s' := by
  induction events generalizing s left with
  | nil =>
    cases hrun
    exact h
  | cons e events ih =>
    rw [runM] at hrun
    cases hstep : s.step jhash fuel key e with
    | none =>
      rw [hstep] at hrun
      cases hrun
    | some s₁ =>
      rw [hstep] at hrun
      have hsafe := h.step hmax hfuel (hspares e List.mem_cons_self) hstep
      have hrest := ih hsafe (fun e' he' => hspares e' (List.mem_cons_of_mem e he')) hrun
      rwa [Nat.sub_sub, Nat.add_comm, ← List.countP_cons] at hrest

/-- A byte in which two keys differ. -/
theorem exists_byte_ne {n : Nat} {k l : Vector U8 n} (h : k ≠ l) : ∃ i : Nat, k[i]? ≠ l[i]? := by
  by_contra hall
  refine h ((forall_getElem?_iff k l).mp fun j _ => ?_)
  by_contra hne
  exact hall ⟨j, hne⟩

/-- The lookup of a key that is present begins safely. -/
theorem safe_start {g : History key_size value_size} {chains : Nat → List Nat}
    (h : Holds jhash max_entries m g chains) (hmax : max_entries.toNat ≤ 2 ^ 31)
    (hfits : 24 + rounded key_size + rounded value_size < 2 ^ 32) (hkey : (m.data target).key = key)
    (htarget : target ∈ chains (m.bucketIndex (jhash key m.hashrnd))) :
    Safe jhash max_entries key target m (perElem key_size * max_entries.toNat + 1)
      ⟨m, [], .start⟩ := by
  classical
  have hother : ∀ b, ∀ a ∈ chains b, a ≠ target → (m.data a).key ≠ key := by
    intro b a ha hne hkeya
    exact hne (h.stored.elem_unique htarget ha (hkeya.trans hkey.symm))
  have hbyte : ∀ a, ∃ i : Nat, (m.data a).key ≠ key → (m.data a).key[i]? ≠ key[i]? := by
    intro a
    by_cases hne : (m.data a).key ≠ key
    · obtain ⟨i, hi⟩ := exists_byte_ne hne
      exact ⟨i, fun _ => hi⟩
    · exact ⟨0, fun hne' => absurd hne' hne⟩
  choose byte hbyte using hbyte
  let seen : Nat → Option Nat := fun a => if ∃ b, a ∈ chains b then some (byte a) else none
  have hseen : ∀ b, ∀ a ∈ chains b, ∃ i, seen a = some i ∧
      (a ≠ target → (m.data a).key[i]? ≠ key[i]?) := by
    intro b a ha
    exact ⟨byte a, if_pos ⟨b, ha⟩, fun hne => hbyte a (hother b a ha hne)⟩
  have hlinked := h.lists.linked _ (h.bucketIndex_lt hmax (jhash key m.hashrnd))
  refine ⟨⟨rfl, rfl⟩, ⟨?_, hkey⟩, seen, seen, .nil seen m,
    ⟨g, chains, h, ⟨_, htarget⟩, hseen, hkey, ?_, ?_⟩, ?_, ?_⟩
  · rw [h.stored.hashed _ target htarget, hkey]
  · intro a ha
    obtain ⟨b, hb⟩ : ∃ b, a ∈ chains b := by
      by_contra hnone
      exact ha (if_neg hnone)
    obtain ⟨i, hi, rfl⟩ := h.slots b a hb
    have hsize : 0 < m.elem_size.toNat := h.sizes.2.2 ▸ elemSize_pos hfits
    change _ < m.next_free
    rw [h.next_free]
    exact Nat.add_lt_add_left (Nat.mul_lt_mul_of_pos_right hi hsize) _
  · exact ⟨Nat.le_refl _, fun _ _ => rfl⟩
  · exact ⟨_, hlinked.spine, htarget, h.length_le _, hseen _⟩
  · exact Nat.le_refl _

theorem OnTheWay.answer {seen : Nat → Option Nat} {bound : Nat} {r : Reader}
    (h : OnTheWay key target bound seen m left r) :
    r ≠ .missing ∧ ∀ a, r = .found a → a = target := by
  constructor
  · rintro rfl
    exact h
  · rintro a rfl
    exact h

/-- A map that has a key has buckets for all hashes, and elements that are as long
as their size says: the update that stored the key has gone through. -/
theorem sizes_of_mem {ops : List (Op key_size value_size)}
    (hops : Along History.step (Allowed max_entries) (History.start key_size value_size) ops)
    (hkey : key ∈ (History.of ops).present) :
    max_entries.toNat ≤ 2 ^ 31 ∧ 24 + rounded key_size + rounded value_size < 2 ^ 32 := by
  refine run_invariant_along (fun g => ∀ key ∈ g.present, max_entries.toNat ≤ 2 ^ 31 ∧
    24 + rounded key_size + rounded value_size < 2 ^ 32) ?_ hops
    (fun _ hnone => absurd hnone Finmap.notMem_empty) key hkey
  intro g op hop hg key hkey
  cases op with
  | update key' value =>
    rcases hop.2 with hmem | ⟨hfits, -⟩
    · exact hg key' hmem
    · exact ⟨hop.1, hfits⟩
  | delete key' => exact hg key (Finmap.mem_erase.mp hkey).2
  | clear => exact absurd hkey Finmap.notMem_empty

/-- A lookup without the lock finds a key that stays in the map, in the element
where the lookup with the lock finds it, whatever another thread does meanwhile. It
ends after the accesses that a bucket with all elements takes. -/
theorem lookups_find_a_key_that_stays (elems : Nat) (hfuel : max_entries.toNat < fuel)
    {ops : List (Op key_size value_size)}
    (hops : runOps jhash fuel (khashmap_init key_size value_size elems max_entries) ops = .ok m)
    (hkey : key ∈ (History.of ops).present) {events : List (Access key_size value_size)}
    (hspares : ∀ e ∈ events, e.Spares key m)
    (hrun : runM (Shared.step jhash fuel key) ⟨m, [], .start⟩ events = some s) :
    ∃ elem, m.lookup_elem_raw fuel (m.bucketIndex (jhash key m.hashrnd)) (jhash key m.hashrnd) key =
        .ok (some elem) ∧ (s.m.data elem).key = key ∧
      s.reader ≠ .missing ∧ (∀ a, s.reader = .found a → a = elem) ∧
      (perElem key_size * max_entries.toNat < events.countP Access.isRead →
        s.reader = .found elem) := by
  have hinit : Holds jhash max_entries (khashmap_init key_size value_size elems max_entries) _ _ :=
    khashmap_init_holds jhash elems max_entries
  have hallowed :
      Along History.step (Allowed max_entries) (History.start key_size value_size) ops := by
    by_contra hnot
    rw [runOps_error hfuel hinit hnot] at hops
    cases hops
  obtain ⟨hmax, hfits⟩ := sizes_of_mem hallowed hkey
  obtain ⟨m', chains, hops', hholds⟩ := runOps_ok hfuel hinit hallowed
  cases hops.symm.trans hops'
  obtain ⟨found, hfound, -, ⟨elem, helem, rfl, hkeyelem⟩ | ⟨-, hnot⟩⟩ := hholds.find hmax hfuel key
  · have hsafe := (safe_start hholds hmax hfits hkeyelem helem).run hmax hfuel hspares hrun
    obtain ⟨seen, -, -, -, -, hway⟩ := hsafe.way
    refine ⟨elem, hfound, hsafe.data.2, hway.answer.1, hway.answer.2, fun hreads => ?_⟩
    rw [Nat.sub_eq_zero_of_le hreads] at hway
    exact hway.done
  · exact absurd hkey hnot

end

/-- Two keys in one bucket. -/
def twoKeys : List (Op 1 1) :=
  [.update (.replicate 1 5) (.replicate 1 1), .update (.replicate 1 6) (.replicate 1 2)]

/-- The first key is looked up, and when the reader stands at the element of the
second key, in front of it, this is deleted. -/
def deletedMeanwhile : List (Access 1 1) :=
  [.read, .op (.delete (.replicate 1 6)), .store, .read, .store, .read, .store, .read, .store,
    .read, .read, .read]

theorem lookups_find_a_key_during_a_delete :
    ∃ m s, runOps (fun _ _ => 7) 3 (khashmap_init 1 1 4096 2) twoKeys = .ok m ∧
      runM (Shared.step (fun _ _ => 7) 3 (.replicate 1 5)) ⟨m, [], .start⟩ deletedMeanwhile =
        some s ∧
      ∃ elem, s.reader = .found elem ∧ (s.m.data elem).key = (.replicate 1 5) := by
  have hspares : ∀ m₀, ∀ e ∈ deletedMeanwhile, e.Spares (.replicate 1 5) m₀ := by
    intro m₀ e he
    simp only [deletedMeanwhile, List.mem_cons, List.not_mem_nil, or_false] at he
    rcases he with rfl | rfl | rfl | rfl | rfl | rfl | rfl | rfl | rfl | rfl | rfl | rfl
    all_goals first | trivial | exact (by decide : Vector.replicate 1 (6 : U8) ≠ .replicate 1 5)
  have hends : ((runOps (fun _ _ => 7) 3 (khashmap_init 1 1 4096 2) twoKeys).toOption.bind fun m =>
      runM (Shared.step (fun _ _ => 7) 3 (.replicate 1 5)) ⟨m, [], .start⟩
        deletedMeanwhile).isSome = true := by
    decide +kernel
  obtain ⟨s, hs⟩ := Option.isSome_iff_exists.mp hends
  obtain ⟨m, hm, hrun⟩ := Option.bind_eq_some_iff.mp hs
  have hops : runOps (fun _ _ => 7) 3 (khashmap_init 1 1 4096 2) twoKeys = .ok m := by
    cases hres : runOps (fun _ _ => 7) 3 (khashmap_init 1 1 4096 2) twoKeys with
    | error fault =>
      rw [hres] at hm
      cases hm
    | ok m' =>
      rw [hres] at hm
      exact congrArg Except.ok (Option.some.inj hm)
  have hkey : Vector.replicate 1 5 ∈ (History.of twoKeys).present := by decide
  obtain ⟨elem, -, helem, -, -, hfound⟩ := lookups_find_a_key_that_stays 4096 (by decide) hops hkey
    (hspares m) hrun
  exact ⟨m, s, hops, hrun, elem, hfound (by decide), helem⟩

end edge_cookie.khash
