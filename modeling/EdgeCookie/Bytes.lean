-- Byte buffers: numbers of a fixed width that lie in a memory with the low
-- byte first, as a little-endian host loads and stores them. A load after a
-- store gives the stored number back, and a store changes no other bytes.
import Mathlib.Algebra.Group.Int.Defs
import Mathlib.Algebra.Group.Nat.Defs
import Mathlib.Tactic.Common

namespace bytes

abbrev U8 := BitVec 8
abbrev U16 := BitVec 16
abbrev U32 := BitVec 32
abbrev U64 := BitVec 64

/-- A memory gives the byte at each address. -/
abbrev Mem := Nat → U8

/-! ## Numbers in a memory -/

/-- The number that the `n` bytes from `a` hold, low byte first. -/
def load (m : Mem) (a : Nat) : Nat → Nat
  | 0 => 0
  | n + 1 => (m a).toNat + 256 * load m (a + 1) n

/-- The memory after the low `n` bytes of `v` are put at `a`, low byte first. -/
def store (m : Mem) (a n v : Nat) : Mem := fun i =>
  if a ≤ i ∧ i < a + n then BitVec.ofNat 8 (v / 256 ^ (i - a)) else m i

/-- The memory after the bytes of a list are put at `a`, as `memcpy` does. -/
def copy (m : Mem) (a : Nat) (bs : List U8) : Mem := fun i =>
  if a ≤ i ∧ i < a + bs.length then bs.getD (i - a) 0 else m i

theorem load_lt (m : Mem) (a n : Nat) : load m a n < 256 ^ n := by
  induction n generalizing a with
  | zero => simp [load]
  | succ n ih =>
    have h1 := ih (a + 1)
    have h2 := (m a).isLt
    rw [load, Nat.pow_succ]
    omega

theorem load_congr {m m' : Mem} {a n : Nat} (h : ∀ i, a ≤ i → i < a + n → m i = m' i) :
    load m a n = load m' a n := by
  induction n generalizing a with
  | zero => rfl
  | succ n ih =>
    rw [load, load, h a (by omega) (by omega), ih (fun i h1 h2 => h i (by omega) (by omega))]

theorem store_out (m : Mem) (a n v i : Nat) (h : i < a ∨ a + n ≤ i) : store m a n v i = m i := by
  unfold store
  rw [if_neg (by omega)]

theorem copy_out (m : Mem) (a i : Nat) (bs : List U8) (h : i < a ∨ a + bs.length ≤ i) :
    copy m a bs i = m i := by
  unfold copy
  rw [if_neg (by omega)]

/-- The `n` bytes from `a` on. -/
def read (m : Mem) (a n : Nat) : List U8 := (List.range n).map fun i => m (a + i)

@[simp] theorem length_read (m : Mem) (a n : Nat) : (read m a n).length = n := by
  unfold read
  rw [List.length_map, List.length_range]

theorem read_congr {m m' : Mem} {a n : Nat} (h : ∀ i, a ≤ i → i < a + n → m i = m' i) :
    read m a n = read m' a n := by
  unfold read
  apply List.map_congr_left
  intro i hi
  exact h (a + i) (by omega) (by have := List.mem_range.mp hi; omega)

theorem take_read (m : Mem) (a : Nat) {n k : Nat} (h : k ≤ n) :
    (read m a n).take k = read m a k := by
  unfold read
  rw [← List.map_take, List.take_range, Nat.min_eq_left h]

/-- A read of what a copy put there gives its first bytes. -/
theorem read_copy (m : Mem) (a : Nat) {n : Nat} {bs : List U8} (h : n ≤ bs.length) :
    read (copy m a bs) a n = bs.take n := by
  apply List.ext_getElem
  · rw [length_read, List.length_take, Nat.min_eq_left h]
  · intro i hi hi'
    rw [length_read] at hi
    simp only [read, copy, List.getElem_map, List.getElem_range, List.getElem_take]
    rw [if_pos (by omega), Nat.add_sub_cancel_left, List.getD_eq_getElem?_getD,
      List.getElem?_eq_getElem (by omega), Option.getD_some]

theorem load_store_ne (m : Mem) (a n b k v : Nat) (h : a + n ≤ b ∨ b + k ≤ a) :
    load (store m b k v) a n = load m a n :=
  load_congr (fun i h1 h2 => store_out m b k v i (by omega))

/-- A load of what a store put there gives its low `n` bytes. -/
theorem load_store (m : Mem) (a n v : Nat) : load (store m a n v) a n = v % 256 ^ n := by
  -- The induction is on the bytes from `b` to the end of the store.
  suffices h : ∀ k b, b + k = a + n → a ≤ b →
      load (store m a n v) b k = v / 256 ^ (b - a) % 256 ^ k by
    simpa using h n a rfl (Nat.le_refl a)
  intro k
  induction k with
  | zero => intro b _ _; simp [load, Nat.mod_one]
  | succ k ih =>
    intro b hb hab
    have hin : store m a n v b = BitVec.ofNat 8 (v / 256 ^ (b - a)) := by
      unfold store
      rw [if_pos (by omega)]
    have hs : b + 1 - a = (b - a) + 1 := by omega
    have hd : v / 256 ^ (b - a + 1) = v / 256 ^ (b - a) / 256 := by
      rw [Nat.pow_succ, Nat.div_div_eq_div_mul]
    have hm : v / 256 ^ (b - a) % 256 ^ (k + 1) =
        v / 256 ^ (b - a) % 256 + 256 * (v / 256 ^ (b - a) / 256 % 256 ^ k) := by
      rw [Nat.pow_succ, Nat.mul_comm, Nat.mod_mul]
    rw [load, ih (b + 1) (by omega) (by omega), hin, hs, hd, hm, BitVec.toNat_ofNat]

/-! ## Buffers -/

/-- A frame in a buffer: its bytes, and how many of them are the frame. A
reader that does not check the length reads what lies behind the frame. -/
structure Pkt where
  mem : Mem
  len : Nat

namespace Pkt

/-- The frame of a list of bytes, with zeros behind it. -/
def ofBytes (bs : List U8) : Pkt := ⟨fun i => bs.getD i 0, bs.length⟩

def u8 (p : Pkt) (a : Nat) : U8 := p.mem a
def u16 (p : Pkt) (a : Nat) : U16 := BitVec.ofNat 16 (load p.mem a 2)
def u32 (p : Pkt) (a : Nat) : U32 := BitVec.ofNat 32 (load p.mem a 4)
def u64 (p : Pkt) (a : Nat) : U64 := BitVec.ofNat 64 (load p.mem a 8)

/-- The frame with the low `n` bytes of `v` put at `a`. -/
def put (p : Pkt) (a n v : Nat) : Pkt := { p with mem := store p.mem a n v }

abbrev put8 (p : Pkt) (a : Nat) (v : U8) : Pkt := p.put a 1 v.toNat
abbrev put16 (p : Pkt) (a : Nat) (v : U16) : Pkt := p.put a 2 v.toNat
abbrev put32 (p : Pkt) (a : Nat) (v : U32) : Pkt := p.put a 4 v.toNat

/-- `memcpy` of a list of bytes into the frame. -/
def memcpy (p : Pkt) (a : Nat) (bs : List U8) : Pkt := { p with mem := copy p.mem a bs }

/-- `*len += delta`, with the unsigned 32-bit sum of C. -/
def add_len (p : Pkt) (delta : Int) : Pkt :=
  { p with len := ((p.len + delta) % 2 ^ 32).toNat }

@[simp] theorem put_len (p : Pkt) (a n v : Nat) : (p.put a n v).len = p.len := rfl
@[simp] theorem memcpy_len (p : Pkt) (a : Nat) (bs : List U8) : (p.memcpy a bs).len = p.len := rfl
@[simp] theorem add_len_len (p : Pkt) (d : Int) :
    (p.add_len d).len = ((p.len + d) % 2 ^ 32).toNat := rfl

/-! ## A load after a store -/

theorem u8_put (p : Pkt) (a v : Nat) : (p.put a 1 v).u8 a = BitVec.ofNat 8 v := by
  simp [u8, put, store]

theorem u16_put (p : Pkt) (a v : Nat) : (p.put a 2 v).u16 a = BitVec.ofNat 16 v := by
  apply BitVec.eq_of_toNat_eq
  simp only [u16, put, load_store, BitVec.toNat_ofNat]
  omega

theorem u32_put (p : Pkt) (a v : Nat) : (p.put a 4 v).u32 a = BitVec.ofNat 32 v := by
  apply BitVec.eq_of_toNat_eq
  simp only [u32, put, load_store, BitVec.toNat_ofNat]
  omega

@[simp] theorem u8_put_same (p : Pkt) (a : Nat) (v : U8) : (p.put8 a v).u8 a = v := by
  simp [u8_put]

@[simp] theorem u16_put_same (p : Pkt) (a : Nat) (v : U16) : (p.put16 a v).u16 a = v := by
  simp [u16_put]

@[simp] theorem u32_put_same (p : Pkt) (a : Nat) (v : U32) : (p.put32 a v).u32 a = v := by
  simp [u32_put]

theorem u8_put_ne (p : Pkt) (a b k v : Nat) (h : a + 1 ≤ b ∨ b + k ≤ a) :
    (p.put b k v).u8 a = p.u8 a := by
  simp only [u8, put, store_out _ _ _ _ _ (by omega : a < b ∨ b + k ≤ a)]

theorem u16_put_ne (p : Pkt) (a b k v : Nat) (h : a + 2 ≤ b ∨ b + k ≤ a) :
    (p.put b k v).u16 a = p.u16 a := by
  simp only [u16, put, load_store_ne _ _ _ _ _ _ h]

theorem u32_put_ne (p : Pkt) (a b k v : Nat) (h : a + 4 ≤ b ∨ b + k ≤ a) :
    (p.put b k v).u32 a = p.u32 a := by
  simp only [u32, put, load_store_ne _ _ _ _ _ _ h]

theorem u64_put_ne (p : Pkt) (a b k v : Nat) (h : a + 8 ≤ b ∨ b + k ≤ a) :
    (p.put b k v).u64 a = p.u64 a := by
  simp only [u64, put, load_store_ne _ _ _ _ _ _ h]

theorem put_put_same (p : Pkt) (a n v w : Nat) : (p.put a n v).put a n w = p.put a n w := by
  simp only [put, Pkt.mk.injEq, and_true]
  funext i
  simp only [store]
  split <;> rfl

theorem put_comm (p : Pkt) (a n v b k w : Nat) (h : a + n ≤ b ∨ b + k ≤ a) :
    (p.put a n v).put b k w = (p.put b k w).put a n v := by
  simp only [put, Pkt.mk.injEq, and_true]
  funext i
  simp only [store]
  split_ifs <;> first | rfl | omega

/-! ## Exchange in place -/

/-- `a ^= b; b ^= a; a ^= b;` on two numbers of `n` bytes. -/
def xor_swap (p : Pkt) (n a b : Nat) : Pkt :=
  let p := p.put a n (load p.mem a n ^^^ load p.mem b n)
  let p := p.put b n (load p.mem b n ^^^ load p.mem a n)
  p.put a n (load p.mem a n ^^^ load p.mem b n)

theorem load_xor_lt (m : Mem) (a b n : Nat) : load m a n ^^^ load m b n < 256 ^ n := by
  have h : (256 : Nat) ^ n = 2 ^ (8 * n) := by rw [Nat.pow_mul]
  have ha := load_lt m a n
  have hb := load_lt m b n
  rw [h] at ha hb ⊢
  exact Nat.xor_lt_two_pow ha hb

/-- The three exclusive-or steps exchange the numbers when they do not overlap. -/
theorem xor_swap_eq (p : Pkt) (n a b : Nat) (h : a + n ≤ b ∨ b + n ≤ a) :
    p.xor_swap n a b = (p.put a n (load p.mem b n)).put b n (load p.mem a n) := by
  have hx : ∀ x y : Nat, y ^^^ (x ^^^ y) = x := by
    intro x y
    rw [Nat.xor_comm x y, ← Nat.xor_assoc, Nat.xor_self, Nat.zero_xor]
  have hy : ∀ x y : Nat, (x ^^^ y) ^^^ x = y := by
    intro x y
    rw [Nat.xor_comm, ← Nat.xor_assoc, Nat.xor_self, Nat.zero_xor]
  have hne : ∀ (q : Pkt) v, load (q.put a n v).mem b n = load q.mem b n := fun q v =>
    load_store_ne q.mem b n a n v h.symm
  have hne' : ∀ (q : Pkt) v, load (q.put b n v).mem a n = load q.mem a n := fun q v =>
    load_store_ne q.mem a n b n v h
  have hsame : ∀ (q : Pkt) c v, load (q.put c n v).mem c n = v % 256 ^ n := fun q c v =>
    load_store q.mem c n v
  simp only [xor_swap, hne, hne', hsame, Nat.mod_eq_of_lt (load_xor_lt _ _ _ _), hx, hy,
    Nat.mod_eq_of_lt (load_lt _ _ _)]
  rw [put_comm _ b _ _ a _ _ h.symm, put_put_same]

@[simp] theorem xor_swap_len (p : Pkt) (n a b : Nat) : (p.xor_swap n a b).len = p.len := rfl

theorem u32_xor_swap_left (p : Pkt) (a b : Nat) (h : a + 4 ≤ b ∨ b + 4 ≤ a) :
    (p.xor_swap 4 a b).u32 a = p.u32 b := by
  rw [xor_swap_eq p 4 a b h, u32_put_ne _ _ _ _ _ h, u32_put]
  rfl

theorem u32_xor_swap_right (p : Pkt) (a b : Nat) (h : a + 4 ≤ b ∨ b + 4 ≤ a) :
    (p.xor_swap 4 a b).u32 b = p.u32 a := by
  rw [xor_swap_eq p 4 a b h, u32_put]
  rfl

theorem u16_xor_swap_left (p : Pkt) (a b : Nat) (h : a + 2 ≤ b ∨ b + 2 ≤ a) :
    (p.xor_swap 2 a b).u16 a = p.u16 b := by
  rw [xor_swap_eq p 2 a b h, u16_put_ne _ _ _ _ _ h, u16_put]
  rfl

theorem u16_xor_swap_right (p : Pkt) (a b : Nat) (h : a + 2 ≤ b ∨ b + 2 ≤ a) :
    (p.xor_swap 2 a b).u16 b = p.u16 a := by
  rw [xor_swap_eq p 2 a b h, u16_put]
  rfl

/-! ## Frames that agree on some bytes -/

/-- The two frames have the same bytes from `lo` up to `hi`. -/
def SameOn (lo hi : Nat) (p q : Pkt) : Prop := ∀ i, lo ≤ i → i < hi → q.mem i = p.mem i

namespace SameOn

variable {lo hi a : Nat} {p q r : Pkt}

theorem refl (lo hi : Nat) (p : Pkt) : SameOn lo hi p p := fun _ _ _ => rfl

theorem trans (h1 : SameOn lo hi p q) (h2 : SameOn lo hi q r) : SameOn lo hi p r :=
  fun i hl hh => (h2 i hl hh).trans (h1 i hl hh)

theorem u8 (h : SameOn lo hi p q) (hl : lo ≤ a) (hh : a + 1 ≤ hi) : q.u8 a = p.u8 a := h a hl hh

theorem u16 (h : SameOn lo hi p q) (hl : lo ≤ a) (hh : a + 2 ≤ hi) : q.u16 a = p.u16 a := by
  have hload : load q.mem a 2 = load p.mem a 2 :=
    load_congr (fun i h1 h2 => h i (by omega) (by omega))
  simp only [Pkt.u16, hload]

theorem u32 (h : SameOn lo hi p q) (hl : lo ≤ a) (hh : a + 4 ≤ hi) : q.u32 a = p.u32 a := by
  have hload : load q.mem a 4 = load p.mem a 4 :=
    load_congr (fun i h1 h2 => h i (by omega) (by omega))
  simp only [Pkt.u32, hload]

theorem put (h : SameOn lo hi p q) {b n v : Nat} (hb : hi ≤ b ∨ b + n ≤ lo) :
    SameOn lo hi p (q.put b n v) := fun i hl hh =>
  (store_out q.mem b n v i (by omega)).trans (h i hl hh)

theorem memcpy (h : SameOn lo hi p q) {b : Nat} {bs : List U8} (hb : hi ≤ b ∨ b + bs.length ≤ lo) :
    SameOn lo hi p (q.memcpy b bs) := fun i hl hh =>
  (copy_out q.mem b i bs (by omega)).trans (h i hl hh)

theorem add_len (h : SameOn lo hi p q) (d : Int) : SameOn lo hi p (q.add_len d) := h

/-- The same write in both frames keeps them the same. -/
theorem put_both (h : SameOn lo hi p q) (b n v : Nat) :
    SameOn lo hi (p.put b n v) (q.put b n v) := by
  intro i hl hh
  simp only [Pkt.put, store]
  rw [h i hl hh]

/-- The same exchange in both frames keeps them the same, when they have the same
numbers to exchange. -/
theorem xor_swap_both (h : SameOn lo hi p q) {b c n : Nat} (hbc : b + n ≤ c ∨ c + n ≤ b)
    (hb : lo ≤ b) (hb' : b + n ≤ hi) (hc : lo ≤ c) (hc' : c + n ≤ hi) :
    SameOn lo hi (p.xor_swap n b c) (q.xor_swap n b c) := by
  have hloadb : load q.mem b n = load p.mem b n :=
    load_congr fun i h1 h2 => h i (by omega) (by omega)
  have hloadc : load q.mem c n = load p.mem c n :=
    load_congr fun i h1 h2 => h i (by omega) (by omega)
  rw [xor_swap_eq p n b c hbc, xor_swap_eq q n b c hbc, hloadb, hloadc]
  exact (h.put_both _ _ _).put_both _ _ _

theorem xor_swap (h : SameOn lo hi p q) {b c n : Nat} (hb : hi ≤ b ∨ b + n ≤ lo)
    (hc : hi ≤ c ∨ c + n ≤ lo) : SameOn lo hi p (q.xor_swap n b c) :=
  ((h.put hb).put hc).put hb

end SameOn

/-! ## Frames that agree from a byte on -/

/-- The two frames have the same length and the same bytes from `n` on. -/
structure SameFrom (n : Nat) (p q : Pkt) : Prop where
  len : q.len = p.len
  mem : ∀ i, n ≤ i → q.mem i = p.mem i

namespace SameFrom

variable {n a : Nat} {p q : Pkt}

theorem u8 (h : SameFrom n p q) (ha : n ≤ a) : q.u8 a = p.u8 a := h.mem a ha

theorem u16 (h : SameFrom n p q) (ha : n ≤ a) : q.u16 a = p.u16 a := by
  simp only [Pkt.u16, load_congr (fun i h1 _ => h.mem i (Nat.le_trans ha h1))]

theorem u32 (h : SameFrom n p q) (ha : n ≤ a) : q.u32 a = p.u32 a := by
  simp only [Pkt.u32, load_congr (fun i h1 _ => h.mem i (Nat.le_trans ha h1))]

theorem u64 (h : SameFrom n p q) (ha : n ≤ a) : q.u64 a = p.u64 a := by
  simp only [Pkt.u64, load_congr (fun i h1 _ => h.mem i (Nat.le_trans ha h1))]

theorem memcpy (p : Pkt) (a n : Nat) (bs : List U8) (h : a + bs.length ≤ n) :
    SameFrom n p (p.memcpy a bs) :=
  ⟨rfl, fun i hi => copy_out p.mem a i bs (by omega)⟩

theorem trans {r : Pkt} (h1 : SameFrom n p q) (h2 : SameFrom n q r) : SameFrom n p r :=
  ⟨h2.len.trans h1.len, fun i hi => (h2.mem i hi).trans (h1.mem i hi)⟩

end SameFrom

end Pkt

end bytes
