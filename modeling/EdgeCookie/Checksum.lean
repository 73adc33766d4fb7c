-- The checksums of the two agents as sums modulo 65535: what the updates word
-- by word, the full sums and the differences of the kernel do to the sum over a
-- header or a segment, and when a checksum is right.
import EdgeCookie.OnesSum
import EdgeCookie.Server

namespace edge_cookie

open bytes headers ones_sum

/-! ## Words -/

theorem toNat_bswap16 (x : U16) : (bswap16 x).toNat = 256 * (x.toNat % 256) + x.toNat / 256 := by
  have hlt := x.isLt
  have hlow : (x.extractLsb' 0 8).toNat = x.toNat % 256 := by simp
  have hhigh : (x.extractLsb' 8 8).toNat = x.toNat / 256 := by
    rw [BitVec.extractLsb'_toNat, Nat.shiftRight_eq_div_pow]
    omega
  rw [bswap16, BitVec.toNat_append, hlow, hhigh, ← Nat.shiftLeft_add_eq_or_of_lt (by omega),
    Nat.shiftLeft_eq]
  omega

/-- The exchange of its two bytes multiplies a word by 256. -/
theorem val_bswap16 (x : U16) : val (bswap16 x) = 256 * val x := by
  unfold val
  rw [toNat_bswap16]
  have h : ((256 * (x.toNat % 256) + x.toNat / 256 : Nat) : Sum) =
      ((256 * x.toNat : Nat) : Sum) := by
    rw [cast_eq_iff]
    omega
  rw [h, Nat.cast_mul]
  rfl

theorem val_not16_word (x : U16) : val (not16 x) = -val x := by
  rw [not16, val_not32, val_setWidth _ (by decide)]

/-! ## Updates word by word -/

theorem val_csum_add (csum addend : U32) : val (csum_add csum addend) = val csum + val addend := by
  unfold val csum_add
  dsimp only
  have h1 := csum.isLt
  have h2 := addend.isLt
  rw [← Nat.cast_add, cast_eq_iff]
  by_cases hc : csum + addend < addend
  · rw [if_pos hc]
    have hc' := BitVec.lt_def.mp hc
    rw [BitVec.toNat_add] at hc' ⊢
    rw [BitVec.toNat_add]
    have hone : (1 : U32).toNat = 1 := rfl
    omega
  · rw [if_neg hc]
    have hc' := mt BitVec.lt_def.mpr hc
    rw [BitVec.toNat_add] at hc' ⊢
    rw [BitVec.toNat_add]
    have hzero : (0 : U32).toNat = 0 := rfl
    omega

theorem val_foldl_csum_add (words : List U32) (csum : U32) :
    val (words.foldl csum_add csum) = val csum + (words.map val).sum := by
  induction words generalizing csum with
  | nil => simp
  | cons word words ih =>
    rw [List.foldl_cons, ih, val_csum_add, List.map_cons, List.sum_cons, add_assoc]

/-- Two turns bring every sum of 32 bits to 16 bits. -/
theorem toNat_csum_fold (csum : U32) : (csum_fold csum).toNat = fold csum.toNat := by
  have hlt := csum.isLt
  unfold csum_fold
  dsimp only
  rw [BitVec.toNat_setWidth, toNat_halves _ _ (by rfl), toNat_halves _ _ (by rfl),
    Nat.mod_eq_of_lt (by omega), ← fold_halves csum.toNat, ← fold_halves (csum.toNat % 65536 + _),
    fold_eq_self (by omega)]

theorem val_csum_fold (csum : U32) : val (csum_fold csum) = val csum := by
  rw [val, toNat_csum_fold, fold_cast, val]

/-- The new checksum takes the words off the sum in the old one. -/
theorem val_csumUpdate (check : U16) (words : List U32) :
    val (csumUpdate check words) = val check - (words.map val).sum := by
  rw [csumUpdate, val_not16, val_csum_fold, val_foldl_csum_add, val_not32, csum_unfold,
    val_setWidth _ (by decide)]
  ring

/-! ## Full sums -/

/-- The loop of `CalSum` adds up the words when the sum fits 32 bits. -/
theorem toNat_calSumLoop (buf : Mem) (p n : Nat) (csum : U32)
    (h : csum.toNat + wordSum buf p n < 2 ^ 32) :
    (calSumLoop buf p csum n).toNat = csum.toNat + wordSum buf p n := by
  induction n using Nat.strongRecOn generalizing p csum with
  | ind n ih =>
    have hbyte : ∀ b : U8, (b.setWidth 32 <<< 8).toNat = 256 * b.toNat := by
      intro b
      have := b.isLt
      rw [BitVec.toNat_shiftLeft, BitVec.toNat_setWidth, Nat.shiftLeft_eq]
      omega
    match n with
    | 0 => rfl
    | 1 =>
      rw [wordSum] at h ⊢
      rw [calSumLoop, BitVec.toNat_add, hbyte]
      omega
    | n + 2 =>
      have h1 := (buf (p + 1)).isLt
      rw [wordSum] at h ⊢
      have hnext : (csum + ((buf p).setWidth 32 <<< 8 + (buf (p + 1)).setWidth 32)).toNat =
          csum.toNat + (256 * (buf p).toNat + (buf (p + 1)).toNat) := by
        rw [BitVec.toNat_add, BitVec.toNat_add, hbyte, BitVec.toNat_setWidth]
        omega
      rw [calSumLoop, ih n (by omega) _ _ (by rw [hnext]; omega), hnext]
      omega

theorem toNat_CalSum (buf : Mem) (p n : Nat) (h : n ≤ 65536) :
    (CalSum buf p n).toNat = wordSum buf p n := by
  have hle := wordSum_le buf p n
  have hzero : (0 : U32).toNat = 0 := rfl
  rw [CalSum, toNat_calSumLoop buf p n 0 (by rw [hzero]; omega), hzero, Nat.zero_add]

namespace server

/-- The first fold leaves at most one carry, which the second adds to the low half. -/
theorem toNat_not_csum_fold_helper (csum : U32) :
    (~~~csum_fold_helper csum).toNat = fold csum.toNat := by
  have hlt := csum.isLt
  have hfirst : (csum >>> 16 + (csum &&& 0xffff)).toNat =
      csum.toNat % 65536 + csum.toNat / 65536 := by
    rw [BitVec.add_comm, toNat_halves _ _ (by rfl)]
  unfold csum_fold_helper
  dsimp only
  rw [toNat_not_setWidth16 _ (by decide), BitVec.toNat_add, toNat_shift16, hfirst,
    ← fold_halves csum.toNat, ← fold_halves (csum.toNat % 65536 + _), fold_eq_self (by omega)]
  omega

theorem val_csum_fold_helper (csum : U32) : val (csum_fold_helper csum) = -val csum := by
  have hnot : val (~~~csum_fold_helper csum) = val csum := by
    rw [val, toNat_not_csum_fold_helper, fold_cast, val]
  rw [← hnot, val_not16, neg_neg]

end server

/-- The fold of the full sums is the one of the server programs, in network order. -/
theorem val_ckFold (ckSum : U32) : val (ckFold ckSum) = -(256 * val ckSum) := by
  have hfold : ckFold ckSum = htons (server.csum_fold_helper ckSum) := rfl
  rw [hfold, val_bswap16, server.val_csum_fold_helper]
  exact mul_neg _ _

/-! ## The checksum of a TCP segment -/

/-- The length of the TCP segment. -/
def tcpLen (p : Pkt) : Nat := (ntohs p.tot_len).toNat - p.ihl * 4

/-- The checksum of the IP header is right: its words add up to 65535. -/
def IpOk (p : Pkt) : Prop := fold (wordSum p.mem 14 (p.ihl * 4)) = 0xffff

/-- The checksum of the TCP segment is right: the words of the segment and of
the pseudo header (the addresses, the protocol and the length) add up to 65535. -/
def TcpOk (p : Pkt) (tcp : Nat) : Prop :=
  fold (wordSum p.mem 26 8 + 6 + tcpLen p + wordSum p.mem tcp (tcpLen p)) = 0xffff

/-- The sum over the pseudo header and the first `n` bytes of the segment. -/
def tcpSum (p : Pkt) (tcp n : Nat) : Sum :=
  sum p.mem 26 8 + 256 * (6 + (n : Sum)) + sum p.mem tcp n

theorem tcpOk_iff (p : Pkt) (tcp : Nat) : TcpOk p tcp ↔ tcpSum p tcp (tcpLen p) = 0 := by
  unfold TcpOk tcpSum
  rw [fold_eq_ones_iff (by omega), ← base_mul_eq_zero]
  push_cast
  rw [wordSum_cast, wordSum_cast]
  constructor
  · intro h
    linear_combination h - (sum p.mem 26 8 + sum p.mem tcp (tcpLen p)) * base_mul_base
  · intro h
    linear_combination h + (sum p.mem 26 8 + sum p.mem tcp (tcpLen p)) * base_mul_base

theorem ipOk_iff_sum {p : Pkt} (h : 1 ≤ p.ihl) : IpOk p ↔ sum p.mem 14 (p.ihl * 4) = 0 := by
  have hpos : 0 < wordSum p.mem 14 (p.ihl * 4) := by
    have hbyte : (p.mem 14).toNat % 16 = p.ihl := rfl
    obtain ⟨n, hn⟩ : ∃ n, p.ihl * 4 = n + 2 := ⟨p.ihl * 4 - 2, by omega⟩
    rw [hn, wordSum]
    omega
  unfold IpOk
  rw [fold_eq_ones_iff hpos, wordSum_cast, base_mul_eq_zero]

theorem ipOk_iff {p : Pkt} (h : p.ihl = 5) : IpOk p ↔ sum p.mem 14 20 = 0 := by
  rw [ipOk_iff_sum (by omega), h]

/-! ## Full sums of a segment -/

theorem listNum_bytes16 (x : U16) : listNum (bytes16 x) = x.toNat := by
  have hlt := x.isLt
  simp only [bytes16, listNum, BitVec.extractLsb'_toNat, Nat.shiftRight_eq_div_pow]
  omega

theorem listNum_bytes32 (x : U32) : listNum (bytes32 x) = x.toNat := by
  have hlt := x.isLt
  simp only [bytes32, byte, listNum, BitVec.extractLsb'_toNat, Nat.shiftRight_eq_div_pow]
  omega

theorem listSum_bytes16 (x : U16) : listSum (bytes16 x) = val x := by
  rw [listSum, listNum_bytes16, val]

theorem listSum_bytes32 (x : U32) : listSum (bytes32 x) = val x := by
  rw [listSum, listNum_bytes32, val]

/-- The pseudo header of `cksumTcp` has the addresses, the protocol and the
length of the segment. -/
theorem val_CalPseudoHeadSum {p : Pkt} (h : p.ihl * 4 ≤ (ntohs p.tot_len).toNat) :
    val (CalPseudoHeadSum p 0x06) = 256 * sum p.mem 26 8 + 6 + tcpLen p := by
  have hlen : val (ntohs p.tot_len - BitVec.ofNat 16 (p.ihl * 4)) = (tcpLen p : Sum) := by
    have hlt := (ntohs p.tot_len).isLt
    rw [val, BitVec.toNat_sub, BitVec.toNat_ofNat, tcpLen]
    refine congrArg _ ?_
    omega
  have haddr : sum p.mem 26 8 = val p.saddr + val p.daddr := by
    rw [Pkt.saddr, Pkt.daddr, val_load32, val_load32]
    exact sum_append p.mem 26 4 (by decide)
  have hhead : listSum (pseudoHead p 0x06) = 256 * 6 + 256 * (tcpLen p : Sum) + sum p.mem 26 8 := by
    have hzero : listSum [0, 0x06] = 256 * 6 := rfl
    rw [pseudoHead, listSum_append _ _ (by simp [bytes16, bytes32]),
      listSum_append _ _ (by simp [bytes16]), listSum_append _ _ (by rfl), listSum_bytes32,
      listSum_bytes32, listSum_bytes16, val_bswap16, hlen, haddr, hzero]
    ring
  have hload := load_list (fun i => (pseudoHead p 0x06).getD i 0) 0 (pseudoHead p 0x06)
    (fun i _ => by rw [Nat.zero_add])
  rw [CalPseudoHeadSum, val, toNat_CalSum _ _ _ (by decide), wordSum_cast, sum]
  rw [listSum, ← hload] at hhead
  rw [show (12 : Nat) = (pseudoHead p 0x06).length from rfl, hhead]
  linear_combination (6 + (tcpLen p : Sum)) * base_mul_base

/-- The addresses and the segment decide. -/
theorem tcpSum_congr {p q : Pkt} {tcp n : Nat} (htcp : 34 ≤ tcp)
    (h : ∀ i, 26 ≤ i → i < tcp + n → q.mem i = p.mem i) : tcpSum q tcp n = tcpSum p tcp n := by
  have haddr : sum q.mem 26 8 = sum p.mem 26 8 := sum_congr fun i hi _ => h i hi (by omega)
  have hseg : sum q.mem tcp n = sum p.mem tcp n := sum_congr fun i hi hlt => h i (by omega) hlt
  rw [tcpSum, tcpSum, haddr, hseg]

/-- A change of some bytes at an even place of the segment changes the sum by
what it changes there. -/
theorem tcpSum_change {p q : Pkt} {tcp n b k : Nat} (htcp : 34 ≤ tcp) (hb : tcp ≤ b)
    (hn : b + k ≤ tcp + n) (heven : (b - tcp) % 2 = 0)
    (h : ∀ i, i < b ∨ b + k ≤ i → q.mem i = p.mem i) :
    tcpSum q tcp n = tcpSum p tcp n - sum p.mem b k + sum q.mem b k := by
  have haddr : sum q.mem 26 8 = sum p.mem 26 8 :=
    sum_congr fun i _ hi => h i (.inl (by omega))
  have hseg : sum q.mem tcp n = sum p.mem tcp n - sum p.mem b k + sum q.mem b k :=
    sum_change hb hn heven fun i _ _ hi => h i hi
  rw [tcpSum, tcpSum, haddr, hseg]
  ring

theorem tcpSum_put16 (p : Pkt) {tcp n b : Nat} (v : U16) (htcp : 34 ≤ tcp) (hb : tcp ≤ b)
    (hn : b + 2 ≤ tcp + n) (heven : (b - tcp) % 2 = 0) :
    tcpSum (p.put16 b v) tcp n = tcpSum p tcp n - val (p.u16 b) + val v := by
  rw [tcpSum_change htcp hb hn heven fun i hi => store_out _ _ _ _ _ hi, val_load16,
    ← val_load16 (p.put16 b v), Pkt.u16_put_same]

theorem tcpSum_put32 (p : Pkt) {tcp n b : Nat} (v : U32) (htcp : 34 ≤ tcp) (hb : tcp ≤ b)
    (hn : b + 4 ≤ tcp + n) (heven : (b - tcp) % 2 = 0) :
    tcpSum (p.put32 b v) tcp n = tcpSum p tcp n - val (p.u32 b) + val v := by
  rw [tcpSum_change htcp hb hn heven fun i hi => store_out _ _ _ _ _ hi, val_load32,
    ← val_load32 (p.put32 b v), Pkt.u32_put_same]

/-- The two ports change places. -/
theorem tcpSum_swap_ports (p : Pkt) {tcp n : Nat} (htcp : 34 ≤ tcp) (hn : 4 ≤ n) :
    tcpSum (p.xor_swap 2 tcp (tcp + 2)) tcp n = tcpSum p tcp n := by
  have haddr : Pkt.SameOn 26 34 p (p.xor_swap 2 tcp (tcp + 2)) :=
    (Pkt.SameOn.refl _ _ _).xor_swap (by omega) (by omega)
  have hsum : sum (p.xor_swap 2 tcp (tcp + 2)).mem 26 8 = sum p.mem 26 8 := sum_congr haddr
  rw [tcpSum, tcpSum, hsum,
    sum_xor_swap p (Nat.le_refl _) (Nat.le_refl _) (by omega) (by omega) (by omega)]

/-- The two addresses change places. -/
theorem tcpSum_swap_addresses (p : Pkt) {tcp n : Nat} (htcp : 34 ≤ tcp) :
    tcpSum (p.xor_swap 4 26 30) tcp n = tcpSum p tcp n := by
  have hseg : Pkt.SameOn tcp (tcp + n) p (p.xor_swap 4 26 30) :=
    (Pkt.SameOn.refl _ _ _).xor_swap (by omega) (by omega)
  have hsum : sum (p.xor_swap 4 26 30).mem tcp n = sum p.mem tcp n := sum_congr hseg
  rw [tcpSum, tcpSum, hsum,
    sum_xor_swap p (by decide) (by decide) (by decide) (by decide) (by decide)]

section

variable {p q : Pkt} {tcp n : Nat}

/-- The flags are changed among the `k` bytes from the data offset on. -/
theorem tcpSum_flagBytes {k : Nat} (htcp : 34 ≤ tcp) (hk : 2 ≤ k) (hn : 12 + k ≤ n)
    (h : ∀ i, i ≠ tcp + 13 → q.mem i = p.mem i) :
    tcpSum q tcp n = tcpSum p tcp n - sum p.mem (tcp + 12) k + sum q.mem (tcp + 12) k :=
  tcpSum_change htcp (by omega) (by omega) (by omega) fun i hi => h i (by omega)

/-- The word that the flags share with the data offset. -/
theorem tcpSum_flagWord (htcp : 34 ≤ tcp) (hn : 14 ≤ n)
    (h : ∀ i, i ≠ tcp + 13 → q.mem i = p.mem i) :
    tcpSum q tcp n = tcpSum p tcp n - val (p.u16 (tcp + 12)) + val (q.u16 (tcp + 12)) := by
  rw [tcpSum_flagBytes htcp (Nat.le_refl 2) hn h, val_load16, val_load16]

/-- The two words with the data offset, the flags and the window. -/
theorem tcpSum_flags (htcp : 34 ≤ tcp) (hn : 16 ≤ n) (h : ∀ i, i ≠ tcp + 13 → q.mem i = p.mem i) :
    tcpSum q tcp n = tcpSum p tcp n - val (p.u32 (tcp + 12)) + val (q.u32 (tcp + 12)) := by
  rw [tcpSum_flagBytes htcp (by decide : 2 ≤ 4) hn h, val_load32, val_load32]

end

/-- A write behind the IP header leaves its lengths alone. -/
theorem tcpLen_put (p : Pkt) {b k v : Nat} (h : 18 ≤ b) : tcpLen (p.put b k v) = tcpLen p := by
  have hihl : (p.put b k v).ihl = p.ihl := by
    rw [Pkt.ihl, Pkt.ihl, Pkt.u8_put_ne _ _ _ _ _ (by omega)]
  have htot : (p.put b k v).tot_len = p.tot_len := Pkt.u16_put_ne _ _ _ _ _ (by omega)
  rw [tcpLen, tcpLen, hihl, htot]

/-- The sum that `cksumTcp` gives makes the sum of the segment 0. -/
theorem tcpSum_cksumTcp {p : Pkt} {tcp : Nat} (htcp : 34 ≤ tcp)
    (h : p.ihl * 4 ≤ (ntohs p.tot_len).toNat) :
    val (cksumTcp p tcp).2 = -tcpSum (cksumTcp p tcp).1 tcp (tcpLen p) := by
  have hlen : tcpLen (p.put16 (tcp + 16) 0) = tcpLen p := tcpLen_put p (by omega)
  have hihl : (p.put16 (tcp + 16) 0).ihl = p.ihl := by
    rw [Pkt.ihl, Pkt.ihl, Pkt.u8_put_ne _ _ _ _ _ (by omega)]
  have htot : (p.put16 (tcp + 16) 0).tot_len = p.tot_len := Pkt.u16_put_ne _ _ _ _ _ (by omega)
  unfold cksumTcp
  dsimp only
  rw [hihl, htot, ← tcpLen, ← hlen]
  have hhead := val_CalPseudoHeadSum (p := p.put16 (tcp + 16) 0) (by rw [hihl, htot]; exact h)
  generalize p.put16 (tcp + 16) 0 = q at hhead ⊢
  have hle : tcpLen q ≤ 65535 := by
    have := (ntohs q.tot_len).isLt
    unfold tcpLen
    omega
  -- Neither sum is large enough to overflow 32 bits.
  have hbig : (CalPseudoHeadSum q 0x06).toNat + (CalSum q.mem tcp (tcpLen q)).toNat < 2 ^ 32 := by
    have h1 := wordSum_le (fun i => (pseudoHead q 0x06).getD i 0) 0 12
    have h2 := wordSum_le q.mem tcp (tcpLen q)
    rw [CalPseudoHeadSum, toNat_CalSum _ _ _ (by decide), toNat_CalSum _ _ _ (by omega)]
    omega
  have hadd : val (CalPseudoHeadSum q 0x06 + CalSum q.mem tcp (tcpLen q)) =
      256 * sum q.mem 26 8 + 6 + tcpLen q + 256 * sum q.mem tcp (tcpLen q) := by
    rw [val, BitVec.toNat_add, Nat.mod_eq_of_lt hbig, Nat.cast_add, toNat_CalSum _ _ _ (by omega),
      wordSum_cast, ← hhead]
    rfl
  rw [val_ckFold, hadd, tcpSum]
  linear_combination (-(sum q.mem 26 8) - sum q.mem tcp (tcpLen q)) * base_mul_base

/-- After the full sum the checksum is right. -/
theorem tcpOk_cksumTcp {p : Pkt} {tcp : Nat} (htcp : 34 ≤ tcp)
    (h : p.ihl * 4 + 18 ≤ (ntohs p.tot_len).toNat) :
    TcpOk ((cksumTcp p tcp).1.put16 (tcp + 16) (cksumTcp p tcp).2) tcp := by
  have hlen : tcpLen ((cksumTcp p tcp).1.put16 (tcp + 16) (cksumTcp p tcp).2) = tcpLen p :=
    (tcpLen_put _ (by omega)).trans (tcpLen_put p (by omega))
  have hzero : (cksumTcp p tcp).1.u16 (tcp + 16) = 0 := Pkt.u16_put_same p (tcp + 16) 0
  have hn : tcp + 16 + 2 ≤ tcp + tcpLen p := by
    unfold tcpLen
    omega
  rw [tcpOk_iff, hlen, tcpSum_put16 _ _ htcp (by omega) hn (by omega), hzero,
    tcpSum_cksumTcp htcp (by omega)]
  simp [val]

/-! ## The differences of the kernel -/

namespace server

theorem toNat_foldOnce64 (csum : U64) :
    (foldOnce64 csum).toNat = csum.toNat % 65536 + csum.toNat / 65536 := by
  unfold foldOnce64
  split
  · exact toNat_halves csum _ (by rfl)
  · rename_i h
    have hzero : csum.toNat / 65536 = 0 := by
      rw [← toNat_shift16, not_not.mp h]
      rfl
    omega

/-- Four turns bring every sum to 16 bits. -/
theorem toNat_not_csum_fold_helper_64 (csum : U64) :
    (~~~csum_fold_helper_64 csum).toNat = fold csum.toNat := by
  have hlt := csum.isLt
  unfold csum_fold_helper_64
  have h1 := toNat_foldOnce64 csum
  generalize foldOnce64 csum = x1 at h1 ⊢
  have h2 := toNat_foldOnce64 x1
  generalize foldOnce64 x1 = x2 at h2 ⊢
  have h3 := toNat_foldOnce64 x2
  generalize foldOnce64 x2 = x3 at h3 ⊢
  have h4 := toNat_foldOnce64 x3
  generalize foldOnce64 x3 = x4 at h4 ⊢
  -- what is left of the carry after each turn
  have hx1 : x1.toNat ≤ 2 ^ 48 + 65534 := by omega
  have hx2 : x2.toNat ≤ 2 ^ 32 + 65534 := by omega
  have hx3 : x3.toNat ≤ 131070 := by omega
  have hx4 : x4.toNat ≤ 65535 := by omega
  have hfold : fold x4.toNat = fold csum.toNat := by
    rw [h4, fold_halves, h3, fold_halves, h2, fold_halves, h1, fold_halves]
  rw [toNat_not_setWidth16 _ (by decide), Nat.mod_eq_of_lt (by omega), ← hfold, fold_eq_self hx4]

theorem val_csum_fold_helper_64 (csum : U64) : val (csum_fold_helper_64 csum) = -val csum := by
  have hnot : val (~~~csum_fold_helper_64 csum) = val csum := by
    rw [val, toNat_not_csum_fold_helper_64, fold_cast, val]
  rw [← hnot, val_not16, neg_neg]

/-- What `bpf_csum_diff` is assumed to give: a sum of 32 bits that is the seed
less the old words and with the new words, modulo 65535. -/
structure CsumDiff (K : Helpers) : Prop where
  lt : ∀ old new seed, (K.bpf_csum_diff old new seed).toNat < 2 ^ 32
  val : ∀ old new seed, old.length % 4 = 0 → new.length % 4 = 0 →
    val (K.bpf_csum_diff old new seed) = val seed - listSum old + listSum new

namespace CsumDiff

variable {K : Helpers} (hK : CsumDiff K)

include hK

theorem val_seed (old new : List U8) (seed : U32) :
    ones_sum.val ((K.bpf_csum_diff old new seed).setWidth 32) =
      ones_sum.val (K.bpf_csum_diff old new seed) := by
  unfold ones_sum.val
  rw [BitVec.toNat_setWidth, Nat.mod_eq_of_lt (hK.lt old new seed)]

theorem val_replace (old new seed : U32) :
    ones_sum.val (K.bpf_csum_diff (bytes32 old) (bytes32 new) seed) =
      ones_sum.val seed - ones_sum.val old + ones_sum.val new := by
  rw [hK.val _ _ _ (by simp [bytes32]) (by simp [bytes32]), listSum_bytes32, listSum_bytes32]

theorem val_remove (old seed : U32) :
    ones_sum.val (K.bpf_csum_diff (bytes32 old) [] seed) =
      ones_sum.val seed - ones_sum.val old := by
  have hnil : listSum [] = 0 := rfl
  rw [hK.val _ _ _ (by simp [bytes32]) (by rfl), listSum_bytes32, hnil, add_zero]

end CsumDiff

/-- The seed of the first difference: the complement of the old checksum. -/
theorem val_seed_check (check : U16) :
    val ((~~~(check.setWidth 64 : U64)).setWidth 32) = -val check := by
  have hlt := check.isLt
  have h : ((~~~(check.setWidth 64 : U64)).setWidth 32).toNat =
      (~~~(check.setWidth 32 : U32)).toNat := by
    rw [BitVec.toNat_setWidth, BitVec.toNat_not, BitVec.toNat_not, BitVec.toNat_setWidth,
      BitVec.toNat_setWidth]
    omega
  rw [val, h, ← val, val_not32, val_setWidth _ (by decide)]

theorem toNat_word (b0 b1 b2 b3 : U8) : (b3 ++ b2 ++ b1 ++ b0).toNat =
    b0.toNat + 256 * (b1.toNat + 256 * (b2.toNat + 256 * b3.toNat)) := by
  have h0 := b0.isLt
  have h1 := b1.isLt
  have h2 := b2.isLt
  rw [BitVec.toNat_append, BitVec.toNat_append, BitVec.toNat_append,
    ← Nat.shiftLeft_add_eq_or_of_lt h2, ← Nat.shiftLeft_add_eq_or_of_lt h1,
    ← Nat.shiftLeft_add_eq_or_of_lt h0, Nat.shiftLeft_eq, Nat.shiftLeft_eq, Nat.shiftLeft_eq]
  omega

theorem listSum_words {bs : List U8} (h : bs.length % 4 = 0) :
    ((words bs).map val).sum = listSum bs := by
  induction bs using words.induct with
  | case1 b0 b1 b2 b3 bs ih =>
    have hbs : bs.length % 4 = 0 := by
      simp only [List.length_cons] at h
      omega
    have hword : val (b3 ++ b2 ++ b1 ++ b0) = listSum [b0, b1, b2, b3] := by
      rw [val, toNat_word]
      rfl
    rw [words, List.map_cons, List.sum_cons, ih hbs]
    exact (congrArg (· + listSum bs) hword).trans
      (listSum_append [b0, b1, b2, b3] bs (by simp)).symm
  | case2 bs hshort =>
    -- A shorter list than four bytes has a right length only when it is empty.
    rcases bs with _ | ⟨b0, _ | ⟨b1, _ | ⟨b2, _ | ⟨b3, bs⟩⟩⟩⟩
    · rfl
    · simp at h
    · simp at h
    · simp at h
    · exact absurd rfl (hshort b0 b1 b2 b3 bs)

/-- The exchange of its four bytes multiplies a number by 256. -/
theorem val_bswap32 (x : U32) : val (bswap32 x) = 256 * val x := by
  have hx := listNum_bytes32 x
  have hswap : (bswap32 x).toNat = (byte x 3).toNat +
      256 * ((byte x 2).toNat + 256 * ((byte x 1).toNat + 256 * (byte x 0).toNat)) :=
    toNat_word (byte x 3) (byte x 2) (byte x 1) (byte x 0)
  unfold val
  rw [hswap, ← hx]
  simp only [bytes32, listNum]
  push_cast
  linear_combination (256 * (byte x 0).toNat - 256 * (byte x 2).toNat - (byte x 3).toNat *
    (256 * 256 + 1) : Sum) *
    base_mul_base

theorem listSum_bytesAt (p : Pkt) (a n : Nat) : listSum (bytesAt p a n) = sum p.mem a n := by
  have hlen : (bytesAt p a n).length = n := by simp [bytesAt]
  have hload := load_list p.mem a (bytesAt p a n) fun i hi => by
    rw [hlen] at hi
    simp [bytesAt, Pkt.u8, hi]
  rw [hlen] at hload
  rw [listSum, ← hload, sum]

theorem csumDiff_kernel : CsumDiff kernelHelpers where
  lt old new seed := by
    have := (((words old).map (~~~·) ++ words new).foldl csum_add seed).isLt
    unfold kernelHelpers
    dsimp only
    rw [BitVec.toNat_setWidth]
    omega
  val old new seed hold hnew := by
    have hneg : ∀ ws : List U32, ((ws.map (~~~·)).map ones_sum.val).sum =
        -(ws.map ones_sum.val).sum := by
      intro ws
      induction ws with
      | nil => simp
      | cons word ws ih =>
        simp only [List.map_cons, List.sum_cons, ih, val_not32, neg_add]
    unfold kernelHelpers
    dsimp only
    rw [val_setWidth _ (by decide), val_foldl_csum_add, List.map_append, List.sum_append, hneg,
      listSum_words hold, listSum_words hnew]
    ring

end server

end edge_cookie
