-- The SYN-ACK of the server that `server_en` sends back to it as the last ACK of
-- the handshake. All fields are right. The checksum is taken over 36 bytes and a
-- length of 36, whatever the length of the header is.
import EdgeCookie.Checksum
import EdgeCookie.ServerEn

namespace edge_cookie

open bytes headers server ones_sum
open server_en (enView SERVER_IF convertSynack)
open switch_agent (client_ip server_ip)

/-! ## The sum of `ipv4_l4_csum` -/

/-- The sum is that over the pseudo header and the bytes, with their number as the length. -/
theorem val_ipv4_l4_csum {K : Helpers} (hK : CsumDiff K) {p : Pkt} {start size : Nat}
    (hproto : p.protocol = IPPROTO_TCP) (hsize : size % 4 = 0) (hlt : size < 2 ^ 32) :
    val (ipv4_l4_csum K p start size) = -tcpSum p start size := by
  have hnil : listSum [] = 0 := rfl
  have hadd : ∀ x seed, val (K.bpf_csum_diff [] (bytes32 x) seed) = val seed + val x := by
    intro x seed
    rw [hK.val _ _ _ (by rfl) (by simp [bytes32]), listSum_bytes32, hnil, sub_zero]
  have hbytes : ∀ seed, val (K.bpf_csum_diff [] (bytesAt p start size) seed) =
      val seed + sum p.mem start size := by
    intro seed
    rw [hK.val _ _ _ (by rfl) (by simp [bytesAt, hsize]), listSum_bytesAt, hnil, sub_zero]
  have haddr : sum p.mem 26 8 = val p.saddr + val p.daddr := by
    rw [Pkt.saddr, Pkt.daddr, val_load32, val_load32]
    exact sum_append p.mem 26 4 (by decide)
  have hsix : val (p.protocol.setWidth 32) = 6 := by
    rw [hproto, val_setWidth _ (by decide)]
    rfl
  unfold ipv4_l4_csum
  dsimp only
  rw [val_csum_fold_helper_64, hbytes, hK.val_seed, hadd, hK.val_seed, hadd, hK.val_seed, hadd,
    hK.val_seed, hadd, val_bswap32, val_bswap32, val_ofNat hlt, hsix, val_zero, tcpSum, haddr]
  ring

/-! ## The frame that is sent back -/

/-- The SYN-ACK with the window, the addresses, the ports and the numbers of the ACK. -/
def turnedHeader (p : Pkt) (tcp : Nat) : Pkt :=
  let p := p.put16 (tcp + 14) (htons 0x1F6)
  let p := p.xor_swap 4 26 30
  let p := p.xor_swap 2 tcp (tcp + 2)
  let p := p.xor_swap 4 (tcp + 4) (tcp + 8)
  p.put32 (tcp + 8) (htonl (ntohl (p.ack_seq tcp) + 1))

/-- The last writes: no SYN, no checksum yet, and the hardware addresses. -/
def turnedBack (p : Pkt) (tcp : Nat) : Pkt :=
  let p := p.clear_flag tcp 1
  let p := p.put16 (tcp + 16) 0
  (p.memcpy 6 (bytesAt p 0 6)).memcpy 0 (bytesAt p 6 6)

/-- The ACK without its checksum. -/
def turned (p : Pkt) (tcp ts : Nat) : Pkt :=
  turnedBack ((turnedHeader p tcp).xor_swap 4 (ts + 2) (ts + 6)) tcp

/-- The last ACK of the handshake for the SYN-ACK `p`. -/
structure FinalAck (p q : Pkt) (tcp ts : Nat) : Prop where
  h_dest : ∀ i < 6, q.u8 i = p.u8 (6 + i)
  h_source : ∀ i < 6, q.u8 (6 + i) = p.u8 i
  saddr : q.saddr = p.daddr
  daddr : q.daddr = p.saddr
  source : q.source tcp = p.dest tcp
  dest : q.dest tcp = p.source tcp
  seq : q.seq tcp = p.ack_seq tcp
  ack_seq : ntohl (q.ack_seq tcp) = ntohl (p.seq tcp) + 1
  tsval : q.tsval ts = p.tsecr ts
  tsecr : q.tsecr ts = p.tsval ts
  syn : q.syn tcp = false
  ack : q.ack tcp = true
  doff : q.doff tcp = p.doff tcp
  length : tcpLen q = tcpLen p

section

variable {K : Helpers} {s : Server} {p q : Pkt} {tcp ts lo hi : Nat}

theorem convertSynack_eq (hlen : tcp + 36 ≤ p.len) :
    convertSynack K s p tcp ts = (.redirect SERVER_IF, s,
      (turned p tcp ts).put16 (tcp + 16) (ipv4_l4_csum K (turned p tcp ts) tcp 36)) := by
  unfold convertSynack
  dsimp only
  exact if_neg (Nat.not_lt.mpr hlen)

theorem length_bytesAt (p : Pkt) (a n : Nat) : (bytesAt p a n).length = n := by simp [bytesAt]

theorem turnedBack_copies (h : 12 ≤ lo) :
    Pkt.SameOn lo hi ((q.clear_flag tcp 1).put16 (tcp + 16) 0) (turnedBack q tcp) := by
  refine ((Pkt.SameOn.refl _ _ _).memcpy ?_).memcpy ?_
  · rw [length_bytesAt]
    omega
  · rw [length_bytesAt]
    omega

theorem turnedBack_sameOn (h : 12 ≤ lo) (hflag : hi ≤ tcp + 13 ∨ tcp + 14 ≤ lo)
    (hcheck : hi ≤ tcp + 16 ∨ tcp + 18 ≤ lo) : Pkt.SameOn lo hi q (turnedBack q tcp) :=
  (((Pkt.SameOn.refl _ _ _).put hflag).put hcheck).trans (turnedBack_copies h)

theorem getD_bytesAt (r : Pkt) (a : Nat) {i : Nat} (h : i < 6) :
    (bytesAt r a 6).getD i 0 = r.u8 (a + i) := by
  simp [bytesAt, h]

/-- The hardware addresses change places. -/
theorem turnedBack_hardware (htcp : 34 ≤ tcp) {i : Nat} (hi : i < 6) :
    (turnedBack q tcp).u8 i = q.u8 (6 + i) ∧ (turnedBack q tcp).u8 (6 + i) = q.u8 i := by
  have hkeep : Pkt.SameOn 0 12 q ((q.clear_flag tcp 1).put16 (tcp + 16) 0) :=
    ((Pkt.SameOn.refl _ _ _).put (by omega)).put (by omega)
  unfold turnedBack
  dsimp only [Pkt.u8, Pkt.memcpy, copy]
  rw [length_bytesAt, length_bytesAt]
  constructor
  · rw [if_pos (by omega), Nat.sub_zero, getD_bytesAt _ _ hi]
    exact hkeep.u8 (by omega) (by omega)
  · rw [if_neg (by omega), if_pos (by omega), Nat.add_sub_cancel_left, getD_bytesAt _ _ hi,
      Nat.zero_add]
    exact hkeep.u8 (by omega) (by omega)

theorem turnedHeader_sameOn
    (h : hi ≤ 26 ∨ (34 ≤ lo ∧ hi ≤ tcp) ∨ (tcp + 12 ≤ lo ∧ hi ≤ tcp + 14) ∨ tcp + 16 ≤ lo)
    (htcp : 34 ≤ tcp) :
    Pkt.SameOn lo hi p (turnedHeader p tcp) :=
  (((((Pkt.SameOn.refl _ _ _).put (by omega)).xor_swap (by omega) (by omega)).xor_swap (by omega)
    (by omega)).xor_swap (by omega) (by omega)).put (by omega)

theorem turnedHeader_fields (htcp : 34 ≤ tcp) :
    (turnedHeader p tcp).saddr = p.daddr ∧ (turnedHeader p tcp).daddr = p.saddr ∧
      (turnedHeader p tcp).source tcp = p.dest tcp ∧ (turnedHeader p tcp).dest tcp = p.source tcp ∧
      (turnedHeader p tcp).seq tcp = p.ack_seq tcp ∧
      (turnedHeader p tcp).ack_seq tcp = htonl (ntohl (p.seq tcp) + 1) := by
  -- each field is read in the frame where it was exchanged
  have hwindow : Pkt.SameOn 26 (tcp + 12) p (p.put16 (tcp + 14) (htons 0x1F6)) :=
    (Pkt.SameOn.refl _ _ _).put (by omega)
  unfold turnedHeader
  dsimp only
  generalize p.put16 (tcp + 14) (htons 0x1F6) = p1 at hwindow ⊢
  have haddr : Pkt.SameOn 34 (tcp + 12) p1 (p1.xor_swap 4 26 30) :=
    (Pkt.SameOn.refl _ _ _).xor_swap (by omega) (by omega)
  have hports : Pkt.SameOn (tcp + 4) (tcp + 12) (p1.xor_swap 4 26 30)
      ((p1.xor_swap 4 26 30).xor_swap 2 tcp (tcp + 2)) :=
    (Pkt.SameOn.refl _ _ _).xor_swap (by omega) (by omega)
  have hlow : ∀ {r : Pkt} {v : U32},
      Pkt.SameOn 26 (tcp + 4) r ((r.xor_swap 4 (tcp + 4) (tcp + 8)).put32 (tcp + 8) v) :=
    ((Pkt.SameOn.refl _ _ _).xor_swap (by omega) (by omega)).put (by omega)
  have hnums : ∀ r : Pkt, (r.xor_swap 2 tcp (tcp + 2)).saddr = r.saddr ∧
      (r.xor_swap 2 tcp (tcp + 2)).daddr = r.daddr := by
    intro r
    have hkeep : Pkt.SameOn 26 34 r (r.xor_swap 2 tcp (tcp + 2)) :=
      (Pkt.SameOn.refl _ _ _).xor_swap (by omega) (by omega)
    exact ⟨hkeep.u32 (by omega) (by omega), hkeep.u32 (by omega) (by omega)⟩
  refine ⟨?_, ?_, ?_, ?_, ?_, ?_⟩
  · exact (hlow.u32 (by omega) (by omega)).trans ((hnums _).1.trans
      ((p1.u32_xor_swap_left 26 30 (by omega)).trans (hwindow.u32 (by omega) (by omega))))
  · exact (hlow.u32 (by omega) (by omega)).trans ((hnums _).2.trans
      ((p1.u32_xor_swap_right 26 30 (by omega)).trans (hwindow.u32 (by omega) (by omega))))
  · exact (hlow.u16 (by omega) (by omega)).trans
      ((Pkt.u16_xor_swap_left _ tcp (tcp + 2) (by omega)).trans
        ((haddr.u16 (by omega) (by omega)).trans (hwindow.u16 (by omega) (by omega))))
  · exact (hlow.u16 (by omega) (by omega)).trans
      ((Pkt.u16_xor_swap_right _ tcp (tcp + 2) (by omega)).trans
        ((haddr.u16 (by omega) (by omega)).trans (hwindow.u16 (by omega) (by omega))))
  · rw [Pkt.seq, Pkt.u32_put_ne _ _ _ _ _ (by omega), Pkt.u32_xor_swap_left _ _ _ (by omega)]
    exact (hports.u32 (by omega) (by omega)).trans
      ((haddr.u32 (by omega) (by omega)).trans (hwindow.u32 (by omega) (by omega)))
  · rw [Pkt.ack_seq, Pkt.u32_put_same, Pkt.ack_seq, Pkt.u32_xor_swap_right _ _ _ (by omega)]
    refine congrArg (fun x => htonl (ntohl x + 1)) ?_
    exact (hports.u32 (by omega) (by omega)).trans
      ((haddr.u32 (by omega) (by omega)).trans (hwindow.u32 (by omega) (by omega)))

theorem turned_header (hts : tcp + 20 ≤ ts) :
    Pkt.SameOn 12 (tcp + 13) (turnedHeader p tcp) (turned p tcp ts) :=
  ((Pkt.SameOn.refl _ _ _).xor_swap (by omega) (by omega)).trans
    (turnedBack_sameOn (by omega) (by omega) (by omega))

/-- Behind the fixed header only the two timestamps change places. -/
theorem turned_options (htcp : 34 ≤ tcp) (hts : tcp + 20 ≤ ts) (hhi : ts + 10 ≤ hi) :
    Pkt.SameOn (tcp + 18) hi (p.xor_swap 4 (ts + 2) (ts + 6)) (turned p tcp ts) :=
  ((turnedHeader_sameOn (by omega) htcp).xor_swap_both (by omega) (by omega) (by omega) (by omega)
    (by omega)).trans (turnedBack_sameOn (by omega) (by omega) (by omega))

theorem turned_flag (htcp : 34 ≤ tcp) (hts : tcp + 20 ≤ ts) {i : Nat} (hi : i < 8) :
    (turned p tcp ts).flag tcp i = (p.flag tcp i && !decide (1 = i)) := by
  have hback : ∀ r : Pkt, (turnedBack r tcp).flag tcp i = (r.flag tcp i && !decide (1 = i)) := by
    intro r
    have hcopy : Pkt.SameOn (tcp + 13) (tcp + 14) ((r.clear_flag tcp 1).put16 (tcp + 16) 0)
        (turnedBack r tcp) :=
      turnedBack_copies (by omega)
    rw [← Pkt.flag_clear_flag r tcp 1 i hi,
      ← Pkt.flag_put_ne (r.clear_flag tcp 1) (b := tcp + 16) (by omega)]
    exact hcopy.flag (by omega) (by omega) i
  have hkeep :
      Pkt.SameOn (tcp + 13) (tcp + 14) p ((turnedHeader p tcp).xor_swap 4 (ts + 2) (ts + 6)) :=
    (turnedHeader_sameOn (by omega) htcp).xor_swap (by omega) (by omega)
  rw [turned, hback, hkeep.flag (by omega) (by omega) i]

theorem tcpLen_turned (htcp : 34 ≤ tcp) (hts : tcp + 20 ≤ ts) :
    tcpLen (turned p tcp ts) = tcpLen p := by
  have hkeep : Pkt.SameOn 12 26 p (turned p tcp ts) := fun i h1 h2 =>
    ((turned_header hts) i h1 (by omega)).trans
      (turnedHeader_sameOn (by omega : 26 ≤ 26 ∨ _) htcp i h1 h2)
  have htot : (turned p tcp ts).tot_len = p.tot_len := hkeep.u16 (by omega) (by omega)
  have hihl : (turned p tcp ts).ihl = p.ihl := hkeep.ihl (by decide) (by decide)
  rw [tcpLen, tcpLen, htot, hihl]

/-- All that is left to write is the checksum. -/
theorem turned_finalAck (htcp : 34 ≤ tcp) (hts : tcp + 20 ≤ ts) (hack : p.ack tcp = true)
    (ck : U16) :
    FinalAck p ((turned p tcp ts).put16 (tcp + 16) ck) tcp ts := by
  obtain ⟨hsaddr, hdaddr, hsource, hdest, hseq, hackseq⟩ := turnedHeader_fields (p := p) htcp
  have hcheck : Pkt.SameOn 0 (tcp + 16) (turned p tcp ts) ((turned p tcp ts).put16 (tcp + 16) ck) :=
    (Pkt.SameOn.refl _ _ _).put (by omega)
  have hheader :
      Pkt.SameOn 12 (tcp + 13) (turnedHeader p tcp) ((turned p tcp ts).put16 (tcp + 16) ck) :=
    (turned_header hts).put (by omega)
  have hoptions : Pkt.SameOn (tcp + 18) (ts + 10) (p.xor_swap 4 (ts + 2) (ts + 6))
      ((turned p tcp ts).put16 (tcp + 16) ck) :=
    (turned_options htcp hts (Nat.le_refl _)).put (by omega)
  have hmac : Pkt.SameOn 0 12 p ((turnedHeader p tcp).xor_swap 4 (ts + 2) (ts + 6)) :=
    (turnedHeader_sameOn (by omega) htcp).xor_swap (by omega) (by omega)
  have hflag : ∀ i < 8, ((turned p tcp ts).put16 (tcp + 16) ck).flag tcp i =
      (p.flag tcp i && !decide (1 = i)) := by
    intro i hi
    rw [Pkt.flag_put_ne _ (by omega), turned_flag htcp hts hi]
  constructor
  · intro i hi
    exact (hcheck.u8 (by omega) (by omega)).trans
      ((turnedBack_hardware htcp hi).1.trans (hmac.u8 (by omega) (by omega)))
  · intro i hi
    exact (hcheck.u8 (by omega) (by omega)).trans
      ((turnedBack_hardware htcp hi).2.trans (hmac.u8 (by omega) (by omega)))
  · exact (hheader.u32 (by omega) (by omega)).trans hsaddr
  · exact (hheader.u32 (by omega) (by omega)).trans hdaddr
  · exact (hheader.u16 (by omega) (by omega)).trans hsource
  · exact (hheader.u16 (by omega) (by omega)).trans hdest
  · exact (hheader.u32 (by omega) (by omega)).trans hseq
  · have hnum := (hheader.u32 (a := tcp + 8) (by omega) (by omega)).trans hackseq
    rw [Pkt.ack_seq, hnum, ntohl_htonl]
  · exact (hoptions.u32 (by omega) (by omega)).trans (p.u32_xor_swap_left _ _ (by omega))
  · exact (hoptions.u32 (by omega) (by omega)).trans (p.u32_xor_swap_right _ _ (by omega))
  · exact (hflag 1 (by decide)).trans (Bool.and_false _)
  · exact (hflag 4 (by decide)).trans (by rw [Bool.and_eq_true]; exact ⟨hack, rfl⟩)
  · have hkeep : Pkt.SameOn (tcp + 12) (tcp + 13) p (turnedHeader p tcp) :=
      turnedHeader_sameOn (by omega) htcp
    exact (hheader.doff (by omega) (by omega)).trans (hkeep.doff (by omega) (by omega))
  · rw [tcpLen_put _ (by omega), tcpLen_turned htcp hts]

/-- The checksum of 36 bytes leaves out what lies behind them, and the rest of the length. -/
theorem tcpOk_turned (hK : CsumDiff K) (htcp : 34 ≤ tcp) (hts : tcp + 20 ≤ ts)
    (hproto : p.protocol = IPPROTO_TCP) (hlen : 36 ≤ tcpLen p) :
    TcpOk ((turned p tcp ts).put16 (tcp + 16) (ipv4_l4_csum K (turned p tcp ts) tcp 36)) tcp ↔
      256 * ((tcpLen p - 36 : Nat) : Sum) +
        sum (p.xor_swap 4 (ts + 2) (ts + 6)).mem (tcp + 36) (tcpLen p - 36) = 0 := by
  have hlow : Pkt.SameOn 12 26 p (turnedHeader p tcp) := turnedHeader_sameOn (by omega) htcp
  have hturned : (turned p tcp ts).protocol = IPPROTO_TCP :=
    ((turned_header hts).u8 (by omega) (by omega)).trans
      ((hlow.u8 (by omega) (by omega)).trans hproto)
  have hzero : (turned p tcp ts).u16 (tcp + 16) = 0 := by
    have hcopy : ∀ r : Pkt,
        Pkt.SameOn (tcp + 16) (tcp + 18) ((r.clear_flag tcp 1).put16 (tcp + 16) 0)
        (turnedBack r tcp) := fun r => turnedBack_copies (by omega)
    exact ((hcopy _).u16 (by omega) (by omega)).trans (Pkt.u16_put_same _ _ _)
  have hoptions :
      Pkt.SameOn (tcp + 18) (ts + 10 + (tcp + tcpLen p)) (p.xor_swap 4 (ts + 2) (ts + 6))
      (turned p tcp ts) := turned_options htcp hts (by omega)
  have hrest : sum (turned p tcp ts).mem (tcp + 36) (tcpLen p - 36) =
      sum (p.xor_swap 4 (ts + 2) (ts + 6)).mem (tcp + 36) (tcpLen p - 36) :=
    sum_congr fun i h1 h2 => hoptions i (by omega) (by omega)
  have hsplit : tcpSum (turned p tcp ts) tcp (tcpLen p) = tcpSum (turned p tcp ts) tcp 36 +
      (256 * ((tcpLen p - 36 : Nat) : Sum) + sum (turned p tcp ts).mem (tcp + 36)
        (tcpLen p - 36)) := by
    have hn : tcpLen p = 36 + (tcpLen p - 36) := by omega
    have happend := sum_append (turned p tcp ts).mem tcp (tcpLen p - 36) (by rfl : 36 % 2 = 0)
    have hcast : (tcpLen p : Sum) = 36 + ((tcpLen p - 36 : Nat) : Sum) := by
      have hcast := congrArg (Nat.cast : Nat → Sum) hn
      rwa [Nat.cast_add] at hcast
    rw [← hn] at happend
    rw [tcpSum, tcpSum, happend, hcast]
    push_cast
    ring
  rw [tcpOk_iff, tcpLen_put _ (by omega), tcpLen_turned htcp hts,
    tcpSum_put16 _ _ htcp (by omega) (by omega) (by omega), hzero, val_zero,
    val_ipv4_l4_csum hK hturned (by rfl) (by decide), hsplit, hrest]
  constructor
  · intro h
    linear_combination h
  · intro h
    linear_combination h

theorem enView_synack_parse (h : enView p = .synack tcp ts) :
    ∃ len, parseHeaders p = .tcp tcp len ∧ p.ack tcp = true ∧ tcp + 20 ≤ ts := by
  unfold enView at h
  split at h
  · cases h
  · cases h
  · rename_i t len hparse
    split at h
    · unfold server_en.viewTcp at h
      dsimp only at h
      split at h
      · rename_i hflags
        rw [Bool.and_eq_true] at hflags
        split at h
        · cases h
        · cases h
          exact ⟨len, hparse, hflags.1, Nat.le_add_right _ _⟩
      · split at h
        · cases h
        · split at h <;> cases h
    · cases h

/-- The SYN-ACK of a proxied flow is sent back when it has the 36 bytes. -/
theorem router_turns {val : map_val_t} (hview : enView p = .synack tcp ts)
    (hval : s.conntrack_map.lookup (enKey p tcp) = some val) (hproxied : val.delta ≠ 0)
    (hlen : tcp + 36 ≤ p.len) :
    ∃ s', server_en.xdp_router K s p = (.redirect SERVER_IF, s',
      (turned p tcp ts).put16 (tcp + 16) (ipv4_l4_csum K (turned p tcp ts) tcp 36)) := by
  rw [server_en.xdp_router_synack K hview hval]
  unfold server_en.synackBranch
  dsimp only
  rw [if_neg hproxied, convertSynack_eq hlen]
  exact ⟨_, rfl⟩

end

/-- The SYN-ACK `p` of a proxied flow, without data and with a header of 36 bytes or
more, is sent back as the last ACK of the handshake. Its checksum is right just when
the rest of the header and of the length, which the sum leaves out, add up to 0. -/
theorem the_final_ack_is_right_iff (K : Helpers) (hK : CsumDiff K) (s : Server) (p : Pkt)
    (tcp ts : Nat) (val : map_val_t) (hview : enView p = .synack tcp ts)
    (hval : s.conntrack_map.lookup (enKey p tcp) = some val) (hproxied : val.delta ≠ 0)
    (hfree : tcpLen p = p.doff tcp * 4) (hlong : 36 ≤ p.doff tcp * 4) :
    (server_en.xdp_router K s p).1 = .redirect SERVER_IF ∧
      FinalAck p (server_en.xdp_router K s p).2.2 tcp ts ∧
      (TcpOk (server_en.xdp_router K s p).2.2 tcp ↔
        256 * ((p.doff tcp * 4 - 36 : Nat) : Sum) +
          sum (p.xor_swap 4 (ts + 2) (ts + 6)).mem (tcp + 36) (p.doff tcp * 4 - 36) = 0) := by
  obtain ⟨len, hparse, hack, hts⟩ := enView_synack_parse hview
  obtain ⟨-, hproto, htcp, hihl⟩ := parseHeaders_tcp hparse
  obtain ⟨hdoff, -, hinside⟩ := parseHeaders_inside hparse
  obtain ⟨s', hout⟩ := router_turns (K := K) hview hval hproxied (by omega)
  rw [hout, ← hfree]
  exact ⟨rfl, turned_finalAck (by omega) hts hack _,
    tcpOk_turned hK (by omega) hts hproto (by omega)⟩

/-- A SYN-ACK of the server with its options: `len` is the length of the datagram. -/
def synackWith (len doff : U8) (opts : List U8) : Pkt :=
  .ofBytes (List.replicate 12 0 ++ [0x08, 0x00] ++
    [0x45, 0, 0, len, 0, 0, 0, 0, 64, 6, 0, 0] ++ bytes32 server_ip ++ bytes32 client_ip ++
    bytes16 80 ++ bytes16 7 ++ bytes32 5 ++ bytes32 6 ++ [doff, 0x12, 0, 0, 0, 0, 0, 0] ++ opts)

/-- Segment size, two NOPs and the timestamp: a header of 36 bytes. -/
def shortSynack : Pkt := synackWith 56 0x90 [2, 4, 5, 180, 1, 1, 8, 10, 0, 0, 0, 5, 0, 0, 0, 6]

/-- Segment size, selective ACKs, the timestamp, a NOP and the window scale: 40 bytes,
as the server answers to the options that the gateway offers with `-c`. -/
def scaledSynack : Pkt :=
  synackWith 60 0xa0 [2, 4, 5, 180, 4, 2, 8, 10, 0, 0, 0, 5, 0, 0, 0, 6, 1, 3, 3, 7]

/-- The server agent with an entry of the flow of `p`. -/
def proxiedServer (p : Pkt) : Server :=
  { Server.boot with conntrack_map := BoundedMap.empty.putAny (enKey p 34) { delta := 5 } }

theorem lookup_proxiedServer (p : Pkt) :
    (proxiedServer p).conntrack_map.lookup (enKey p 34) = some { delta := 5 } := by
  have hroom : (BoundedMap.empty : Conntrack).HasRoom (enKey p 34) := .inr (Nat.succ_pos 699999)
  exact (BoundedMap.lookup_putAny _ _ _ _).trans (if_pos ⟨rfl, hroom⟩)

/-- The ACK for a SYN-ACK of 36 bytes has a right checksum. -/
theorem the_final_ack_of_a_short_header_is_right :
    TcpOk (server_en.xdp_router kernelHelpers (proxiedServer shortSynack) shortSynack).2.2 34 := by
  refine (the_final_ack_is_right_iff kernelHelpers csumDiff_kernel (proxiedServer shortSynack)
    shortSynack 34 60 { delta := 5 } (by decide) (lookup_proxiedServer _) (by decide) (by decide)
    (by decide)).2.2.mpr ?_
  rw [show shortSynack.doff 34 * 4 - 36 = 0 by decide, Nat.cast_zero, mul_zero, zero_add]
  exact Nat.cast_zero

/-- The ACK for a SYN-ACK of 40 bytes is sent back with a wrong checksum. -/
theorem the_final_ack_of_a_scaled_header_is_wrong :
    tcpLen scaledSynack = scaledSynack.doff 34 * 4 ∧
      (server_en.xdp_router kernelHelpers (proxiedServer scaledSynack) scaledSynack).1 =
        .redirect SERVER_IF ∧
      ¬ TcpOk (server_en.xdp_router kernelHelpers (proxiedServer scaledSynack) scaledSynack).2.2
        34 := by
  have hview : enView scaledSynack = .synack 34 60 := by decide
  have hlen : tcpLen scaledSynack = 40 := by decide
  obtain ⟨s', hout⟩ :=
    router_turns (K := kernelHelpers) hview (lookup_proxiedServer _) (by decide) (by decide)
  rw [hout]
  refine ⟨by decide, rfl, fun hok => ?_⟩
  rw [tcpOk_turned csumDiff_kernel (by decide) (by decide) (by decide) (by decide), hlen] at hok
  -- the four bytes and the rest of the length leave 3588
  have hload : 256 * (40 - 36) + load (scaledSynack.xor_swap 4 62 66).mem 70 4 = 117638913 :=
    by decide
  have hzero : ((256 * (40 - 36) + load (scaledSynack.xor_swap 4 62 66).mem 70 4 : Nat) : Sum) =
      ((0 : Nat) : Sum) := by
    rw [Nat.cast_add, Nat.cast_mul, Nat.cast_zero]
    exact hok
  rw [hload, cast_eq_iff] at hzero
  exact absurd hzero (by decide)

end edge_cookie
