-- The bits of a hybrid cookie: two bits of a counter, 14 bits of the folded
-- SYN cookie and 16 bits of the map cookie, from the high end to the low end.
import EdgeCookie.ServerIn
import Mathlib.Tactic.IntervalCases

namespace edge_cookie

open bytes headers server server_in

/-! ## The parts of a cookie in host order -/

/-- Bits 16 to 29: the part of the SYN cookie. -/
def hashBits (x : U32) : BitVec 14 := x.extractLsb' 16 14

/-- Bits 0 to 15: the map cookie. -/
def mapBits (x : U32) : U16 := x.setWidth 16

/-- What a cookie holds of a SYN cookie: the low 14 bits of its fold. -/
def foldBits (hash_cookie : U32) : BitVec 14 := (fold16 hash_cookie).setWidth 14

theorem extract_low30 (x : U32) : hashBits x = (x.setWidth 30).extractLsb' 16 14 := by
  unfold hashBits
  ext i hi
  simp
  omega

theorem low30_count (x : U32) : (x + 0x40000000#32).setWidth 30 = x.setWidth 30 := by
  rw [BitVec.setWidth_add _ _ (by decide)]
  simp

/-- The counter does not reach the lower bits. -/
theorem hashBits_count (x : U32) : hashBits (x + 0x40000000#32) = hashBits x := by
  rw [extract_low30, extract_low30 x, low30_count]

theorem mapBits_count (x : U32) : mapBits (x + 0x40000000#32) = mapBits x := by
  unfold mapBits
  rw [BitVec.setWidth_add _ _ (by decide)]
  simp

theorem hashBits_mask (x : U32) : hashBits (x &&& 0x3fffffff#32) = hashBits x := by
  apply BitVec.eq_of_getLsbD_eq
  intro i hi
  simp only [hashBits, BitVec.getLsbD_extractLsb', BitVec.getLsbD_and, hi, decide_true,
    Bool.true_and]
  interval_cases i <;> simp

theorem mapBits_mask (x : U32) : mapBits (x &&& 0x3fffffff#32) = mapBits x := by
  apply BitVec.eq_of_getLsbD_eq
  intro i hi
  simp only [mapBits, BitVec.getLsbD_setWidth, BitVec.getLsbD_and, hi, decide_true, Bool.true_and]
  interval_cases i <;> simp

theorem hashBits_or (h : U32) (m : U16) :
    hashBits ((h <<< 16) ||| m.setWidth 32) = h.setWidth 14 := by
  apply BitVec.eq_of_getLsbD_eq
  intro i hi
  simp only [hashBits, BitVec.getLsbD_extractLsb', BitVec.getLsbD_or, BitVec.getLsbD_shiftLeft,
    BitVec.getLsbD_setWidth, hi, decide_true, Bool.true_and]
  simp
  grind

theorem mapBits_or (h : U32) (m : U16) : mapBits ((h <<< 16) ||| m.setWidth 32) = m := by
  apply BitVec.eq_of_getLsbD_eq
  intro i hi
  simp [mapBits, hi]

theorem hashBits_replace (x : U32) (m : U16) :
    hashBits ((x &&& 0xffff0000#32) ||| m.setWidth 32) = hashBits x := by
  apply BitVec.eq_of_getLsbD_eq
  intro i hi
  simp only [hashBits, BitVec.getLsbD_extractLsb', BitVec.getLsbD_or, BitVec.getLsbD_and,
    BitVec.getLsbD_setWidth, hi, decide_true, Bool.true_and]
  interval_cases i <;> simp

theorem mapBits_replace (x : U32) (m : U16) :
    mapBits ((x &&& 0xffff0000#32) ||| m.setWidth 32) = m := by
  apply BitVec.eq_of_getLsbD_eq
  intro i hi
  simp only [mapBits, BitVec.getLsbD_or, BitVec.getLsbD_and, BitVec.getLsbD_setWidth, hi,
    decide_true, Bool.true_and]
  interval_cases i <;> simp

/-- The test of the gateway agent on 14 bits compares those bits. -/
theorem hashBits_eq_iff (x y : U32) :
    (x >>> 16) &&& 0x3fff#32 = y &&& 0x3fff#32 ↔ hashBits x = y.setWidth 14 := by
  constructor
  · intro h
    apply BitVec.eq_of_getLsbD_eq
    intro i hi
    have hb := congrArg (fun z => z.getLsbD i) h
    simp only [BitVec.getLsbD_and, BitVec.getLsbD_ushiftRight] at hb
    simp only [hashBits, BitVec.getLsbD_extractLsb', BitVec.getLsbD_setWidth, hi, decide_true,
      Bool.true_and]
    interval_cases i <;> simpa using hb
  · intro h
    apply BitVec.eq_of_getLsbD_eq
    intro i hi
    have hb := congrArg (fun z => z.getLsbD i) h
    simp only [hashBits, BitVec.getLsbD_extractLsb', BitVec.getLsbD_setWidth] at hb
    simp only [BitVec.getLsbD_and, BitVec.getLsbD_ushiftRight]
    interval_cases i <;> simp at hb ⊢ <;> exact hb

/-! ## The cookies that the server agent makes -/

/-- The map cookie of the server agent is that of the gateway agent. -/
theorem get_map_cookie_eq (map_seeds : U16 → U32) (ip : U32) :
    get_map_cookie map_seeds ip = mapCookie ip (map_seeds (seedKey ip)) := rfl

/-- The first cookie of an entry, in host order: the counter is 1. -/
def firstCookie (hash_cookie ip seed : U32) : U32 :=
  ((((get_hash_cookie hash_cookie).setWidth 32 <<< 16) ||| (mapCookie ip seed).setWidth 32) &&&
    0x3fffffff#32) + 0x40000000#32

/-- The cookie after `old`, in host order: `new_map_cookie` replaces the map
cookie of `old`, and the counter grows. -/
def nextCookie (old : U32) (new_map_cookie : U16) : U32 :=
  ((old &&& 0xffff0000#32) ||| new_map_cookie.setWidth 32) + 0x40000000#32

theorem hashBits_firstCookie (hash_cookie ip seed : U32) :
    hashBits (firstCookie hash_cookie ip seed) = foldBits hash_cookie := by
  unfold firstCookie
  rw [hashBits_count, hashBits_mask, hashBits_or]
  unfold get_hash_cookie foldBits
  rw [BitVec.setWidth_setWidth_of_le _ (by decide), BitVec.setWidth_setWidth_of_le _ (by decide)]

theorem mapBits_firstCookie (hash_cookie ip seed : U32) :
    mapBits (firstCookie hash_cookie ip seed) = mapCookie ip seed := by
  unfold firstCookie
  rw [mapBits_count, mapBits_mask, mapBits_or]

theorem hashBits_nextCookie (old : U32) (m : U16) : hashBits (nextCookie old m) = hashBits old := by
  unfold nextCookie
  rw [hashBits_count, hashBits_replace]

theorem mapBits_nextCookie (old : U32) (m : U16) : mapBits (nextCookie old m) = m := by
  unfold nextCookie
  rw [mapBits_count, mapBits_replace]

/-! ## Cookies as timestamps -/

/-- Bits 30 and 31: the counter. -/
def counter (x : U32) : Nat := x.toNat / 2 ^ 30

/-- A cookie as a number, from its three parts. -/
theorem toNat_parts (x : U32) :
    x.toNat = counter x * 2 ^ 30 + (hashBits x).toNat * 2 ^ 16 + (mapBits x).toNat := by
  have := x.isLt
  unfold counter hashBits mapBits
  simp only [BitVec.extractLsb'_toNat, BitVec.toNat_setWidth, Nat.shiftRight_eq_div_pow]
  omega

theorem toNat_count (x : U32) : (x &&& 0x3fffffff#32).toNat = x.toNat % 2 ^ 30 := by
  rw [BitVec.toNat_and]
  exact Nat.and_two_pow_sub_one_eq_mod x.toNat 30

theorem counter_firstCookie (hash_cookie ip seed : U32) :
    counter (firstCookie hash_cookie ip seed) = 1 := by
  unfold firstCookie
  generalize (_ ||| _ : U32) = y
  unfold counter
  rw [BitVec.toNat_add, toNat_count, BitVec.toNat_ofNat]
  omega

theorem toNat_replace (old : U32) (m : U16) :
    ((old &&& 0xffff0000#32) ||| m.setWidth 32).toNat = old.toNat / 2 ^ 16 * 2 ^ 16 + m.toNat := by
  have hsplit : (old &&& 0xffff0000#32) ||| m.setWidth 32 = old.extractLsb' 16 16 ++ m := by
    apply BitVec.eq_of_getLsbD_eq
    intro i hi
    simp only [BitVec.getLsbD_or, BitVec.getLsbD_and, BitVec.getLsbD_setWidth,
      BitVec.getLsbD_append, BitVec.getLsbD_extractLsb', hi, decide_true, Bool.true_and]
    interval_cases i <;> simp
  rw [hsplit, BitVec.toNat_append, ← Nat.shiftLeft_add_eq_or_of_lt m.isLt, Nat.shiftLeft_eq,
    BitVec.extractLsb'_toNat, Nat.shiftRight_eq_div_pow]
  have := old.isLt
  omega

theorem counter_nextCookie (old : U32) (m : U16) :
    counter (nextCookie old m) = (counter old + 1) % 4 := by
  have h1 := old.isLt
  have h2 := m.isLt
  unfold nextCookie counter
  rw [BitVec.toNat_add, toNat_replace, BitVec.toNat_ofNat]
  omega

theorem toInt_pos_iff (x : U32) : 0 < x.toInt ↔ 0 < x.toNat ∧ x.toNat < 2 ^ 31 := by
  have := x.isLt
  rw [BitVec.toInt_eq_toNat_cond]
  split <;> omega

/-- A cookie that follows another one is a later timestamp. -/
theorem nextCookie_later (old : U32) (m : U16) : 0 < (nextCookie old m - old).toInt := by
  have h1 := old.isLt
  have h2 := m.isLt
  rw [toInt_pos_iff, nextCookie, BitVec.toNat_sub, BitVec.toNat_add, toNat_replace,
    BitVec.toNat_ofNat]
  omega

theorem firstCookie_later (hash_cookie ip seed : U32) :
    0 < (firstCookie hash_cookie ip seed - 0x01010000#32).toInt := by
  have h1 := (foldBits hash_cookie).isLt
  have h2 := (mapCookie ip seed).isLt
  rw [toInt_pos_iff, BitVec.toNat_sub, toNat_parts (firstCookie _ _ _), counter_firstCookie,
    hashBits_firstCookie, mapBits_firstCookie, BitVec.toNat_ofNat]
  omega

/-- When is a first cookie later than an old cookie of the same SYN cookie. -/
theorem firstCookie_later_iff (old hash_cookie ip seed : U32)
    (h : hashBits old = foldBits hash_cookie) :
    0 < (firstCookie hash_cookie ip seed - old).toInt ↔
      counter old = 0 ∨ (counter old = 1 ∧ mapBits old < mapCookie ip seed) ∨
        (counter old = 3 ∧ mapCookie ip seed < mapBits old) := by
  have h1 := (foldBits hash_cookie).isLt
  have h2 := (mapCookie ip seed).isLt
  have h3 := (mapBits old).isLt
  have h4 : counter old < 4 := by
    have := old.isLt
    unfold counter
    omega
  rw [toInt_pos_iff, BitVec.toNat_sub, toNat_parts (firstCookie _ _ _), counter_firstCookie,
    hashBits_firstCookie, mapBits_firstCookie, toNat_parts old, h, BitVec.lt_def, BitVec.lt_def]
  omega

/-! ## The cookie of an entry -/

/-- The entry with a new cookie, made under `seed`. -/
def withCookie (val : map_val_t) (cookie seed : U32) : map_val_t :=
  { val with hybrid_cookie := htonl cookie, cur_hash_seed := seed }

section

variable (val : map_val_t) (cookie seed : U32)

@[simp] theorem withCookie_hybrid : ntohl (withCookie val cookie seed).hybrid_cookie = cookie :=
  bswap32_bswap32 cookie

@[simp] theorem withCookie_hash : (withCookie val cookie seed).hash_cookie = val.hash_cookie := rfl
@[simp] theorem withCookie_seed : (withCookie val cookie seed).cur_hash_seed = seed := rfl
@[simp] theorem withCookie_delta : (withCookie val cookie seed).delta = val.delta := rfl
@[simp] theorem withCookie_ts_val_s : (withCookie val cookie seed).ts_val_s = val.ts_val_s := rfl

end

/-- The entry after a data ACK that finds `seed` in the table. -/
def refresh (ip seed : U32) (val : map_val_t) : map_val_t :=
  if val.cur_hash_seed = seed then val
  else if val.cur_hash_seed = 0 then withCookie val (firstCookie val.hash_cookie ip seed) seed
  else withCookie val (nextCookie (ntohl val.hybrid_cookie) (mapCookie ip seed)) seed

theorem refresh_same {seed : U32} {val : map_val_t} (ip : U32) (h : val.cur_hash_seed = seed) :
    refresh ip seed val = val := if_pos h

theorem refresh_first {seed : U32} {val : map_val_t} (ip : U32) (hs : seed ≠ 0)
    (h0 : val.cur_hash_seed = 0) :
    refresh ip seed val = withCookie val (firstCookie val.hash_cookie ip seed) seed := by
  unfold refresh
  rw [if_neg (fun h => hs (h.symm.trans h0)), if_pos h0]

theorem refresh_next {seed : U32} {val : map_val_t} (ip : U32) (hs : val.cur_hash_seed ≠ seed)
    (h0 : val.cur_hash_seed ≠ 0) :
    refresh ip seed val =
      withCookie val (nextCookie (ntohl val.hybrid_cookie) (mapCookie ip seed)) seed := by
  unfold refresh
  rw [if_neg hs, if_neg h0]

/-- A refresh writes the cookie and the seed, and no other field. -/
theorem refresh_withCookie (ip seed : U32) (val : map_val_t) :
    ∃ cookie, refresh ip seed val = withCookie val cookie seed := by
  by_cases hs : val.cur_hash_seed = seed
  · refine ⟨ntohl val.hybrid_cookie, ?_⟩
    have hcookie : htonl (ntohl val.hybrid_cookie) = val.hybrid_cookie := bswap32_bswap32 _
    rw [refresh_same ip hs, withCookie, hcookie, ← hs]
  · unfold refresh
    rw [if_neg hs]
    split
    · exact ⟨_, rfl⟩
    · exact ⟨_, rfl⟩

theorem refresh_delta (ip seed : U32) (val : map_val_t) :
    (refresh ip seed val).delta = val.delta := by
  obtain ⟨cookie, h⟩ := refresh_withCookie ip seed val
  rw [h, withCookie_delta]

theorem refresh_ts_val_s (ip seed : U32) (val : map_val_t) :
    (refresh ip seed val).ts_val_s = val.ts_val_s := by
  obtain ⟨cookie, h⟩ := refresh_withCookie ip seed val
  rw [h, withCookie_ts_val_s]

theorem refresh_hash (ip seed : U32) (val : map_val_t) :
    (refresh ip seed val).hash_cookie = val.hash_cookie := by
  obtain ⟨cookie, h⟩ := refresh_withCookie ip seed val
  rw [h, withCookie_hash]

theorem synVal_eq (map_seeds : U16 → U32) (ip tsecr : U32) :
    synVal map_seeds ip tsecr =
      withCookie { hash_cookie := tsecr } (firstCookie tsecr ip (map_seeds (seedKey ip)))
        (map_seeds (seedKey ip)) := by
  unfold synVal withCookie firstCookie get_hybrid_cookie
  rw [BitVec.add_comm, BitVec.and_comm, get_map_cookie_eq]

/-- The refresh of the source reads one seed, and writes the entry back when
the seed is new. -/
theorem refreshVal_eq (map_seeds : U16 → U32) (ip : U32) (val : map_val_t) :
    refreshVal map_seeds ip val =
      (refresh ip (map_seeds (seedKey ip)) val,
        decide (val.cur_hash_seed ≠ map_seeds (seedKey ip))) := by
  unfold refreshVal refresh
  by_cases hc : val.cur_hash_seed = map_seeds (seedKey ip)
  · rw [if_neg (not_not_intro hc), if_pos hc, decide_eq_false (not_not_intro hc)]
  · rw [if_pos hc, if_neg hc, decide_eq_true hc]
    dsimp only
    by_cases h0 : val.cur_hash_seed = 0
    · rw [if_pos h0, if_pos h0]
      unfold withCookie firstCookie get_hybrid_cookie
      rw [get_map_cookie_eq]
    · rw [if_neg h0, if_neg h0]
      unfold withCookie nextCookie
      rw [get_map_cookie_eq]

/-- The cookie of an entry belongs to its SYN cookie, and to the address under
the seed that the entry names. -/
structure CookieOk (ip : U32) (val : map_val_t) : Prop where
  hash : hashBits (ntohl val.hybrid_cookie) = foldBits val.hash_cookie
  map : mapBits (ntohl val.hybrid_cookie) = mapCookie ip val.cur_hash_seed

theorem cookieOk_first (ip seed : U32) (val : map_val_t) :
    CookieOk ip (withCookie val (firstCookie val.hash_cookie ip seed) seed) := by
  refine ⟨?_, ?_⟩
  · rw [withCookie_hybrid, withCookie_hash, hashBits_firstCookie]
  · rw [withCookie_hybrid, withCookie_seed, mapBits_firstCookie]

theorem cookieOk_next {ip : U32} {val : map_val_t} (seed : U32) (h : CookieOk ip val) :
    CookieOk ip
      (withCookie val (nextCookie (ntohl val.hybrid_cookie) (mapCookie ip seed)) seed) := by
  refine ⟨?_, ?_⟩
  · rw [withCookie_hybrid, withCookie_hash, hashBits_nextCookie, h.hash]
  · rw [withCookie_hybrid, withCookie_seed, mapBits_nextCookie]

end edge_cookie
