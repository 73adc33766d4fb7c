-- The checksums behind `server_in`. It changes the checksum of a segment by the
-- differences that the kernel gives for the words that it writes, so the sum of the
-- segment stays what it was.
import EdgeCookie.Normalise

namespace edge_cookie

open bytes headers server ones_sum
open server_in (inView)
open switch_agent (client_ip server_ip)

/-! ## The branches -/

section

variable {K : Helpers} {s : Server} {p : Pkt} {tcp ts n : Nat} {val : map_val_t}

theorem tcpLen_hitBranch (htcp : 34 ≤ tcp) (hts : tcp + 20 ≤ ts) :
    tcpLen (server_in.hitBranch K s p tcp ts val).2.2 = tcpLen p := by
  unfold server_in.hitBranch
  dsimp only
  rw [tcpLen_put _ (by omega), tcpLen_put _ (by omega), tcpLen_put _ (by omega)]

/-- A data ACK gets a new acknowledged number and a new echo. -/
theorem tcpSum_hitBranch (hK : CsumDiff K) (htcp : 34 ≤ tcp) (hts : tcp + 20 ≤ ts)
    (heven : (ts - tcp) % 2 = 0) (hn : ts + 10 ≤ tcp + n) :
    tcpSum (server_in.hitBranch K s p tcp ts val).2.2 tcp n = tcpSum p tcp n := by
  unfold server_in.hitBranch
  dsimp only
  rw [tcpSum_put16 _ _ htcp (by omega) (by omega) (by omega),
    tcpSum_put32 _ _ htcp (by omega) (by omega) (by omega),
    tcpSum_put32 _ _ htcp (by omega) (by omega) (by omega),
    Pkt.u16_put_ne _ _ _ _ _ (by omega), Pkt.u16_put_ne _ _ _ _ _ (by omega),
    Pkt.u32_put_ne _ (ts + 6) _ _ _ (by omega), val_csum_fold_helper_64, hK.val_replace,
    hK.val_seed, hK.val_replace, val_seed_check]
  unfold Pkt.ack_seq Pkt.tsecr Pkt.tcp_check
  ring

theorem tcpLen_createBranch (htcp : 34 ≤ tcp) (hts : tcp + 20 ≤ ts) (hlen : tcp + 16 ≤ p.len) :
    tcpLen (server_in.createBranch K s p tcp ts).2.2 = tcpLen p := by
  obtain ⟨-, ck, hout⟩ := createBranch_syn K s ts hlen
  rw [hout, tcpLen_put _ (by omega), tcpLen_createSyn htcp hts]

/-- A SYN-ACK loses its SYN flag, and the word with the flags changes its sum. -/
theorem synackBranch_keeps (hK : CsumDiff K) (htcp : 34 ≤ tcp) (hlen : tcp + 16 ≤ p.len)
    (hn : 18 ≤ n) :
    (server_in.synackBranch K s p tcp).1 = .XDP_PASS ∧
      tcpSum (server_in.synackBranch K s p tcp).2.2 tcp n = tcpSum p tcp n ∧
      tcpLen (server_in.synackBranch K s p tcp).2.2 = tcpLen p ∧
      ∀ i < 8, (server_in.synackBranch K s p tcp).2.2.flag tcp i =
        (p.flag tcp i && !decide (1 = i)) := by
  unfold server_in.synackBranch
  dsimp only
  rw [if_neg (by omega)]
  refine ⟨rfl, ?_, ?_, ?_⟩
  · have hflags : ∀ i, i ≠ tcp + 13 → (p.clear_flag tcp 1).mem i = p.mem i := fun i hi =>
      store_out _ _ _ _ _ (by omega)
    rw [tcpSum_put16 _ _ htcp (by omega) (by omega) (by omega), tcpSum_flags htcp (by omega) hflags,
      val_csum_fold_helper_64, hK.val_replace, val_seed_check, Pkt.tcp_check, Pkt.clear_flag,
      Pkt.u16_put_ne _ _ _ _ _ (by omega)]
    ring
  · dsimp only [Pkt.clear_flag]
    rw [tcpLen_put _ (by omega), tcpLen_put _ (by omega)]
  · intro i hi
    dsimp only
    rw [Pkt.flag_put_ne _ (by omega), Pkt.flag_clear_flag _ _ _ _ hi]

end

/-! ## The program -/

section

variable {K : Helpers} {rnd : U32 × U32} {s : Server} {p : Pkt} {tcp len : Nat}

/-- An ACK whose options match the mask has its timestamp option at offset 2. -/
theorem inView_fast (hparse : parseHeaders p = .tcp tcp len) (hlen : 32 ≤ len)
    (hack : p.ack tcp = true) (hsyn : p.syn tcp = false)
    (hmask : hasMask ack_1_mask (p.u64 (tcp + 20)) = true) :
    inView p = .create tcp (tcp + 20 + 2) ∨ inView p = .data tcp (tcp + 20 + 2) := by
  obtain ⟨hdoff, -, hinside⟩ := parseHeaders_inside hparse
  have hview : maskView p tcp = .found 2 := by
    unfold maskView ackMasks
    rw [hsyn, if_neg Bool.false_ne_true, if_pos hmask]
  have hts : parse_timestamp p (tcp + 20) tcp = some 2 := by
    rw [server_parse_eq (by rw [hack, hsyn]; exact Bool.false_ne_true) (by omega) (by omega), hview]
    exact if_neg (by omega)
  unfold inView
  rw [hparse]
  dsimp only
  rw [if_pos hlen]
  unfold server_in.viewTcp
  simp only [hack, hsyn, hts, Bool.false_and, Bool.not_false, Bool.and_self, Bool.false_eq_true,
    if_false, if_true]
  rw [if_neg (by omega)]
  split
  · exact .inl rfl
  · exact .inr rfl

theorem ack_keeps_sum (hK : CsumDiff K) (hparse : parseHeaders p = .tcp tcp len) (hlen : 32 ≤ len)
    (hfits : len ≤ tcpLen p) (hok : TcpOk p tcp) (hack : p.ack tcp = true)
    (hsyn : p.syn tcp = false) (hmask : hasMask ack_1_mask (p.u64 (tcp + 20)) = true)
    (hpass : (server_in.xdp_router K rnd s p).1 = .XDP_PASS) :
    TcpOk (server_in.xdp_router K rnd s p).2.2 tcp := by
  obtain ⟨-, -, htcp, hihl⟩ := parseHeaders_tcp hparse
  have hfits16 := parseHeaders_fits hparse
  rw [tcpOk_iff] at hok ⊢
  rcases inView_fast hparse hlen hack hsyn hmask with hv | hv
  · rw [server_in.xdp_router_eq, hv]
    dsimp only [server_in.runView]
    rw [tcpLen_createBranch (by omega) (by omega) (by omega),
      tcpSum_createBranch hK (by omega) (by omega) (by omega) (by omega) (by omega)]
    exact hok
  · rw [server_in.xdp_router_eq, hv] at hpass ⊢
    dsimp only [server_in.runView] at hpass ⊢
    unfold server_in.dataBranch at hpass ⊢
    cases hval : (server_in.initTables s).conntrack_map.lookup (inKey p tcp) with
    | none =>
      rw [hval] at hpass
      dsimp only [server_in.missBranch] at hpass
      split_ifs at hpass
    | some val =>
      dsimp only
      rw [tcpLen_hitBranch (by omega) (by omega),
        tcpSum_hitBranch hK (by omega) (by omega) (by omega) (by omega)]
      exact hok

theorem synack_keeps_sum (hK : CsumDiff K) (hparse : parseHeaders p = .tcp tcp len)
    (hfits : len ≤ tcpLen p) (hok : TcpOk p tcp) (hack : p.ack tcp = true)
    (hsyn : p.syn tcp = true) :
    (server_in.xdp_router K rnd s p).1 = .XDP_PASS ∧
    TcpOk (server_in.xdp_router K rnd s p).2.2 tcp ∧
      (32 ≤ len → (server_in.xdp_router K rnd s p).2.2.ack tcp = true ∧
        (server_in.xdp_router K rnd s p).2.2.syn tcp = false) := by
  obtain ⟨-, -, htcp, hihl⟩ := parseHeaders_tcp hparse
  obtain ⟨-, hlow, hinside⟩ := parseHeaders_inside hparse
  by_cases hlen : 32 ≤ len
  · have hrouter : server_in.xdp_router K rnd s p =
        server_in.synackBranch K (server_in.initTables s) p tcp := by
      unfold server_in.xdp_router
      rw [hparse]
      dsimp only
      rw [if_pos hlen]
      unfold server_in.xdpTcp
      simp only [hack, hsyn, Bool.not_true, Bool.and_false, Bool.and_self, Bool.false_eq_true,
        if_false, if_true]
    obtain ⟨hpass, hsum, hlength, hflag⟩ :=
      synackBranch_keeps (s := server_in.initTables s) (n := tcpLen p) hK
      (by omega) (by omega : tcp + 16 ≤ p.len) (by omega)
    rw [hrouter]
    refine ⟨hpass, ?_, fun _ => ⟨?_, ?_⟩⟩
    · rw [tcpOk_iff] at hok ⊢
      rw [hlength, hsum]
      exact hok
    · exact (hflag 4 (by decide)).trans (by rw [Bool.and_eq_true]; exact ⟨hack, rfl⟩)
    · exact (hflag 1 (by decide)).trans (Bool.and_false _)
  · -- a shorter header is not looked at
    have hrouter : server_in.xdp_router K rnd s p = (.XDP_PASS, server_in.initTables s, p) := by
      unfold server_in.xdp_router
      rw [hparse]
      exact if_neg hlen
    rw [hrouter]
    exact ⟨rfl, hok, fun h => absurd h hlen⟩

end

/-- A segment with a right checksum leaves `server_in` with a right checksum: an ACK
with the mask that it passes as a SYN or as a data ACK, and a SYN-ACK, which it
passes as an ACK. -/
theorem server_in_keeps_the_checksum (K : Helpers) (hK : CsumDiff K) (rnd : U32 × U32) (s : Server)
    (p : Pkt) (tcp len : Nat) (hparse : parseHeaders p = .tcp tcp len) (hfits : len ≤ tcpLen p)
    (hok : TcpOk p tcp) :
    (p.ack tcp = true → p.syn tcp = false → 32 ≤ len →
      hasMask ack_1_mask (p.u64 (tcp + 20)) = true →
      (server_in.xdp_router K rnd s p).1 = .XDP_PASS →
      TcpOk (server_in.xdp_router K rnd s p).2.2 tcp) ∧
    (p.ack tcp = true → p.syn tcp = true →
      (server_in.xdp_router K rnd s p).1 = .XDP_PASS ∧
      TcpOk (server_in.xdp_router K rnd s p).2.2 tcp ∧
        (32 ≤ len → (server_in.xdp_router K rnd s p).2.2.ack tcp = true ∧
          (server_in.xdp_router K rnd s p).2.2.syn tcp = false)) :=
  ⟨fun hack hsyn hlen hmask hpass => ack_keeps_sum hK hparse hlen hfits hok hack hsyn hmask hpass,
    fun hack hsyn => synack_keeps_sum hK hparse hfits hok hack hsyn⟩

/-- The last ACK of a handshake, with its checksum. -/
def summedAck : Pkt := (Pkt.segment client_ip server_ip 7 80 2 9 0x10 6 TS_START).put16 50 37369

/-- The last ACK of a handshake reaches the server as a SYN with a right checksum. -/
theorem the_opening_syn_has_a_right_checksum :
    (server_in.xdp_router kernelHelpers (0, 0) .boot summedAck).1 = .XDP_PASS ∧
      TcpOk (server_in.xdp_router kernelHelpers (0, 0) .boot summedAck).2.2 34 := by
  have hpass : (server_in.xdp_router kernelHelpers (0, 0) .boot summedAck).1 = .XDP_PASS := by
    rw [server_in.xdp_router_eq, show inView summedAck = .create 34 56 by decide]
    exact (createBranch_syn kernelHelpers _ 56 (by decide)).1
  exact ⟨hpass,
    (server_in_keeps_the_checksum kernelHelpers csumDiff_kernel (0, 0) .boot summedAck 34 32
      (by decide) (by decide) (by unfold TcpOk; decide)).1 (by decide) (by decide) (by decide)
      (by decide) hpass⟩

end edge_cookie
