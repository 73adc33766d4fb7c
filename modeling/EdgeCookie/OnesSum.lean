-- Sums of 16-bit words in ones' complement, which are sums modulo 65535. Since
-- 256 * 256 is 1 modulo 65535, the number that some bytes of a memory hold is,
-- modulo 65535, the sum of their 16-bit words.
import EdgeCookie.Bytes
import Mathlib.Data.ZMod.Basic
import Mathlib.Tactic.LinearCombination
import Mathlib.Tactic.Ring

namespace ones_sum

open bytes

/-- Ones' complement sums of 16-bit words, where 0 and 65535 are the same. -/
abbrev Sum := ZMod 65535

theorem cast_eq_iff (x y : Nat) : (x : Sum) = (y : Sum) ↔ x % 65535 = y % 65535 :=
  ZMod.natCast_eq_natCast_iff' x y 65535

theorem base_mul_base : (256 : Sum) * 256 = 1 := by
  have h := (cast_eq_iff (256 * 256) 1).mpr (by decide)
  push_cast at h
  exact h

theorem base_pow_even {n : Nat} (h : n % 2 = 0) : (256 : Sum) ^ n = 1 := by
  obtain ⟨k, rfl⟩ : ∃ k, n = 2 * k := ⟨n / 2, by omega⟩
  rw [pow_mul, pow_two, base_mul_base, one_pow]

/-- A product with 256 exchanges the two bytes of each word, so it is 0 for 0 only. -/
theorem base_mul_eq_zero {x : Sum} : 256 * x = 0 ↔ x = 0 := by
  constructor
  · intro h
    linear_combination 256 * h - x * base_mul_base
  · rintro rfl
    exact mul_zero _

/-! ## The value of a machine word -/

/-- What a word adds to a sum. -/
def val {w : Nat} (x : BitVec w) : Sum := (x.toNat : Sum)

theorem val_ofNat {w n : Nat} (h : n < 2 ^ w) : val (BitVec.ofNat w n) = (n : Sum) := by
  rw [val, BitVec.toNat_ofNat, Nat.mod_eq_of_lt h]

theorem val_zero (w : Nat) : val (0 : BitVec w) = 0 := by simp [val]

theorem val_setWidth {w v : Nat} (x : BitVec w) (h : w ≤ v) : val (x.setWidth v) = val x := by
  rw [val, val, BitVec.toNat_setWidth_of_le h]

/-- The complement of a word of 16 or 32 bits is its negative. -/
theorem val_not {w : Nat} (x : BitVec w) (h : (2 ^ w - 1) % 65535 = 0) : val (~~~x) = -val x := by
  have hlt := x.isLt
  have hsum : (~~~x).toNat + x.toNat = 2 ^ w - 1 := by
    rw [BitVec.toNat_not]
    omega
  have hcast := congrArg (Nat.cast : Nat → Sum) hsum
  have hzero : ((2 ^ w - 1 : Nat) : Sum) = 0 := by
    rw [← Nat.cast_zero, cast_eq_iff, h]
  rw [hzero, Nat.cast_add] at hcast
  exact eq_neg_of_add_eq_zero_left hcast

theorem val_not16 (x : U16) : val (~~~x) = -val x := val_not x (by decide)
theorem val_not32 (x : U32) : val (~~~x) = -val x := val_not x (by decide)

/-! ## The sum of some bytes -/

/-- The sum of the 16-bit words in the `n` bytes from `a`, low byte first. -/
def sum (m : Mem) (a n : Nat) : Sum := (load m a n : Sum)

theorem load_append (m : Mem) (a n k : Nat) :
    load m a (n + k) = load m a n + 256 ^ n * load m (a + n) k := by
  induction n generalizing a with
  | zero => simp [load]
  | succ n ih =>
    have hat : a + 1 + n = a + (n + 1) := by omega
    rw [Nat.succ_add, load, ih, load, hat, Nat.pow_succ]
    ring

theorem sum_append {n : Nat} (m : Mem) (a k : Nat) (h : n % 2 = 0) :
    sum m a (n + k) = sum m a n + sum m (a + n) k := by
  unfold sum
  rw [load_append]
  push_cast
  rw [base_pow_even h, one_mul]

/-- The sum of the first bytes of a number. -/
theorem sum_low (m : Mem) (a : Nat) {k n : Nat} (h : k ≤ n) :
    sum m a k = (load m a n % 256 ^ k : Nat) := by
  obtain ⟨d, rfl⟩ := Nat.exists_eq_add_of_le h
  rw [load_append, Nat.add_mul_mod_self_left, Nat.mod_eq_of_lt (load_lt m a k)]
  rfl

theorem sum_congr {m m' : Mem} {a n : Nat} (h : ∀ i, a ≤ i → i < a + n → m' i = m i) :
    sum m' a n = sum m a n := congrArg Nat.cast (load_congr h)

/-- A change of the `k` bytes from `b` on changes the sum by what it changes there,
with a factor of 256 at an odd place. -/
theorem sum_change_at {m m' : Mem} {a n b k : Nat} (hab : a ≤ b) (hbn : b + k ≤ a + n)
    (h : ∀ i, a ≤ i → i < a + n → i < b ∨ b + k ≤ i → m' i = m i) :
    sum m' a n = sum m a n + 256 ^ (b - a) * (sum m' b k - sum m b k) := by
  have hsplit : ∀ q : Mem, sum q a n =
      sum q a (b - a) + 256 ^ (b - a) *
        (sum q b k + 256 ^ k * sum q (b + k) (a + n - (b + k))) := by
    intro q
    have hb : a + (b - a) = b := by omega
    have hn : n = (b - a) + (k + (a + n - (b + k))) := by omega
    have hcut := load_append q a (b - a) (k + (a + n - (b + k)))
    rw [← hn, hb, load_append q b] at hcut
    unfold sum
    rw [hcut]
    push_cast
    rfl
  have hlow : sum m' a (b - a) = sum m a (b - a) :=
    sum_congr fun i h1 h2 => h i h1 (by omega) (.inl (by omega))
  have hhigh : sum m' (b + k) (a + n - (b + k)) = sum m (b + k) (a + n - (b + k)) :=
    sum_congr fun i h1 h2 => h i (by omega) (by omega) (.inr h1)
  rw [hsplit m', hsplit m, hlow, hhigh]
  ring

/-- At an even place it changes the sum by what it changes there. -/
theorem sum_change {m m' : Mem} {a n b k : Nat} (hab : a ≤ b) (hbn : b + k ≤ a + n)
    (heven : (b - a) % 2 = 0)
    (h : ∀ i, a ≤ i → i < a + n → i < b ∨ b + k ≤ i → m' i = m i) :
    sum m' a n = sum m a n - sum m b k + sum m' b k := by
  rw [sum_change_at hab hbn h, base_pow_even heven]
  ring

/-- A number that is put at an even place takes the place of the number that was there. -/
theorem sum_put (p : Pkt) {a n b k v : Nat} (hab : a ≤ b) (hbn : b + k ≤ a + n)
    (heven : (b - a) % 2 = 0) (hv : v < 256 ^ k) :
    sum (p.put b k v).mem a n = sum p.mem a n - sum p.mem b k + (v : Sum) := by
  have hload : sum (p.put b k v).mem b k = (v : Sum) := by
    rw [sum, Pkt.put, load_store, Nat.mod_eq_of_lt hv]
  have hchange : sum (p.put b k v).mem a n =
      sum p.mem a n - sum p.mem b k + sum (p.put b k v).mem b k :=
    sum_change hab hbn heven fun i _ _ hi => store_out _ _ _ _ _ hi
  rw [hchange, hload]

/-- The exchange of two numbers at even places keeps the sum. -/
theorem sum_xor_swap (p : Pkt) {a n b c k : Nat} (hbc : b + k ≤ c) (hab : a ≤ b)
    (hcn : c + k ≤ a + n) (hb : (b - a) % 2 = 0) (hc : (c - a) % 2 = 0) :
    sum (p.xor_swap k b c).mem a n = sum p.mem a n := by
  have hkeep : sum (p.put b k (load p.mem c k)).mem c k = sum p.mem c k :=
    sum_congr fun i hi _ => store_out _ _ _ _ _ (.inr (by omega))
  rw [Pkt.xor_swap_eq p k b c (.inl hbc), sum_put _ (by omega) hcn hc (load_lt _ _ _),
    sum_put _ hab (by omega) hb (load_lt _ _ _), hkeep]
  unfold sum
  ring

theorem val_load16 (p : Pkt) (a : Nat) : val (p.u16 a) = sum p.mem a 2 :=
  val_ofNat (load_lt p.mem a 2)

theorem val_load32 (p : Pkt) (a : Nat) : val (p.u32 a) = sum p.mem a 4 :=
  val_ofNat (load_lt p.mem a 4)

/-! ## The sum with the high byte first -/

/-- The sum of the 16-bit words in the `n` bytes from `a`, high byte first; a
zero byte stands behind an odd number of bytes. -/
def wordSum (m : Mem) (a : Nat) : Nat → Nat
  | 0 => 0
  | 1 => 256 * (m a).toNat
  | n + 2 => 256 * (m a).toNat + (m (a + 1)).toNat + wordSum m (a + 2) n

theorem wordSum_le (m : Mem) (a n : Nat) : wordSum m a n ≤ 65535 * ((n + 1) / 2) := by
  induction n using Nat.strongRecOn generalizing a with
  | ind n ih =>
    match n with
    | 0 => simp [wordSum]
    | 1 =>
      have := (m a).isLt
      rw [wordSum]
      omega
    | n + 2 =>
      have h0 := (m a).isLt
      have h1 := (m (a + 1)).isLt
      have hrest := ih n (by omega) (a + 2)
      rw [wordSum]
      omega

theorem wordSum_congr {m m' : Mem} {a n : Nat} (h : ∀ i, a ≤ i → i < a + n → m' i = m i) :
    wordSum m' a n = wordSum m a n := by
  induction n using Nat.strongRecOn generalizing a with
  | ind n ih =>
    match n with
    | 0 => rfl
    | 1 => rw [wordSum, wordSum, h a (by omega) (by omega)]
    | n + 2 =>
      rw [wordSum, wordSum, h a (by omega) (by omega), h (a + 1) (by omega) (by omega),
        ih n (by omega) fun i h1 h2 => h i (by omega) (by omega)]

/-- The order of the bytes counts for a factor of 256. -/
theorem wordSum_cast (m : Mem) (a n : Nat) : (wordSum m a n : Sum) = 256 * sum m a n := by
  induction n using Nat.strongRecOn generalizing a with
  | ind n ih =>
    unfold sum
    match n with
    | 0 => simp [wordSum, load]
    | 1 => simp [wordSum, load]
    | n + 2 =>
      have hrest := ih n (by omega) (a + 2)
      unfold sum at hrest
      rw [wordSum, load, load]
      push_cast
      rw [hrest]
      linear_combination (-((m (a + 1)).toNat : Sum) - 256 * (load m (a + 2) n : Sum)) *
        base_mul_base

theorem wordSum_mod_iff (m : Mem) (a n : Nat) : wordSum m a n % 65535 = 0 ↔ sum m a n = 0 := by
  have h := cast_eq_iff (wordSum m a n) 0
  rw [Nat.cast_zero, Nat.zero_mod] at h
  rw [← base_mul_eq_zero, ← wordSum_cast, h]

/-! ## The sum of a list of bytes -/

/-- The number that the bytes of a list make, low byte first. -/
def listNum : List U8 → Nat
  | [] => 0
  | b :: bs => b.toNat + 256 * listNum bs

/-- The sum of the 16-bit words in a list of bytes, low byte first. -/
def listSum (bs : List U8) : Sum := (listNum bs : Sum)

theorem load_list (m : Mem) (a : Nat) (bs : List U8)
    (h : ∀ i < bs.length, m (a + i) = bs.getD i 0) :
    load m a bs.length = listNum bs := by
  induction bs generalizing a with
  | nil => rfl
  | cons b bs ih =>
    have hb : m a = b := h 0 (Nat.succ_pos _)
    have hbs : ∀ i < bs.length, m (a + 1 + i) = bs.getD i 0 := by
      intro i hi
      rw [Nat.add_assoc, Nat.add_comm 1 i]
      exact h (i + 1) (Nat.succ_lt_succ hi)
    rw [List.length_cons, load, hb, ih (a + 1) hbs, listNum]

theorem listNum_append (as bs : List U8) :
    listNum (as ++ bs) = listNum as + 256 ^ as.length * listNum bs := by
  induction as with
  | nil => simp [listNum]
  | cons a as ih =>
    rw [List.cons_append, listNum, ih, listNum, List.length_cons, Nat.pow_succ]
    ring

theorem listSum_append (as bs : List U8) (h : as.length % 2 = 0) :
    listSum (as ++ bs) = listSum as + listSum bs := by
  unfold listSum
  rw [listNum_append]
  push_cast
  rw [base_pow_even h, one_mul]

/-! ## Folded sums -/

/-- What a sum folds to: the number up to 65535 that is the same modulo 65535,
and 0 for 0 only. -/
def fold (n : Nat) : Nat := if n = 0 then 0 else (n - 1) % 65535 + 1

/-- A sum that is not 0 folds to 65535 just when it is 0 modulo 65535. -/
theorem fold_eq_ones_iff {n : Nat} (h : 0 < n) : fold n = 65535 ↔ (n : Sum) = 0 := by
  rw [← Nat.cast_zero, cast_eq_iff, fold, if_neg (by omega)]
  omega

theorem toNat_and_low16 {w : Nat} (x m : BitVec w) (h : m.toNat = 65535) :
    (x &&& m).toNat = x.toNat % 65536 := by
  rw [BitVec.toNat_and, h]
  exact Nat.and_two_pow_sub_one_eq_mod x.toNat 16

theorem toNat_shift16 {w : Nat} (x : BitVec w) : (x >>> 16).toNat = x.toNat / 65536 := by
  rw [BitVec.toNat_ushiftRight, Nat.shiftRight_eq_div_pow]

/-- The low half and the high half of a number are not more than the number, so
one turn of a fold does not overflow. -/
theorem toNat_halves {w : Nat} (x m : BitVec w) (h : m.toNat = 65535) :
    ((x &&& m) + x >>> 16).toNat = x.toNat % 65536 + x.toNat / 65536 := by
  have hlt := x.isLt
  rw [BitVec.toNat_add, toNat_and_low16 x m h, toNat_shift16]
  exact Nat.mod_eq_of_lt (by omega)

/-- One turn of a fold does not change what a number folds to. -/
theorem fold_halves (n : Nat) : fold (n % 65536 + n / 65536) = fold n := by
  unfold fold
  split <;> split <;> omega

theorem fold_eq_self {n : Nat} (h : n ≤ 65535) : fold n = n := by
  unfold fold
  split <;> omega

theorem fold_cast (n : Nat) : (fold n : Sum) = (n : Sum) := by
  rw [cast_eq_iff]
  unfold fold
  split <;> omega

/-- The number up to 65535 that is the same modulo 65535, and 0 for 0 only. -/
structure FoldsTo (n y : Nat) : Prop where
  le : y ≤ 65535
  mod : y % 65535 = n % 65535
  zero : y = 0 ↔ n = 0

/-- There is one such number. -/
theorem foldsTo_iff {n y : Nat} : FoldsTo n y ↔ y = fold n := by
  unfold fold
  constructor
  · rintro ⟨hle, hmod, hzero⟩
    split <;> omega
  · rintro rfl
    refine ⟨?_, ?_, ?_⟩
    · split <;> omega
    · split <;> omega
    · split <;> omega

/-- The complement of a word of 16 bits. -/
theorem toNat_not_setWidth16 {w : Nat} (x : BitVec w) (hw : 16 ≤ w) :
    (~~~((~~~x).setWidth 16)).toNat = x.toNat % 65536 := by
  have hnot : ~~~((~~~x).setWidth 16) = x.setWidth 16 := by
    ext i hi
    simp [show i < w by omega]
  rw [hnot, BitVec.toNat_setWidth]

end ones_sum
