-- The filter for ACKs: a frame goes through the gateway agent and then through
-- `server_in`. Which frames reach the server as an ACK? Those that a check of
-- the gateway accepted, and SYN-ACKs, which no check looks at.
import EdgeCookie.SynCookie
import EdgeCookie.ServerRun

namespace edge_cookie

open bytes headers server
open server_in (inView)
open switch_agent

/-! ## Frames without IP options -/

/-- A TCP segment over IPv4, with an IP header of 20 bytes. -/
structure PlainTcp (p : Pkt) : Prop where
  proto : p.h_proto = htons ETH_P_IP
  tcp : p.protocol = IPPROTO_TCP
  ihl : p.ihl = 5

/-- A frame with the same version, header length and protocols. -/
theorem PlainTcp.of_same {p q : Pkt} (hp : PlainTcp p) (h1 : Pkt.SameOn 12 15 p q)
    (h2 : Pkt.SameOn 23 24 p q) : PlainTcp q where
  proto := (h1.u16 (by omega) (by omega)).trans hp.proto
  tcp := (h2.u8 (by omega) (by omega)).trans hp.tcp
  ihl := (h1.ihl (by decide) (by decide)).trans hp.ihl

theorem PlainTcp.inbound {p : Pkt} (hp : PlainTcp p) :
    ¬ (p.h_proto ≠ htons ETH_P_IP ∧ p.protocol ≠ IPPROTO_TCP) := fun h => h.1 hp.proto

/-- The TCP header is where the gateway reads it, and lies inside the frame. -/
theorem parseHeaders_plain {p : Pkt} (hp : PlainTcp p) :
    parseHeaders p =
      if 20 ≤ p.doff tcpAt * 4 ∧ tcpAt + p.doff tcpAt * 4 ≤ p.len then
        .tcp tcpAt (p.doff tcpAt * 4)
      else .drop := by
  have hproto : htons p.h_proto = ETH_P_IP := by
    rw [hp.proto]
    exact bswap16_bswap16 _
  have h34 : tcpAt = 34 := rfl
  have heth : 14 ≤ p.len → parse_ethhdr p = some p.h_proto := fun h => if_neg (by omega)
  have hip : 34 ≤ p.len → parse_iphdr p = some (IPPROTO_TCP, tcpAt) := by
    intro h
    unfold parse_iphdr
    rw [hp.ihl, hp.tcp]
    dsimp only
    rw [if_neg (by omega), if_neg (by decide), if_neg (by omega)]
    rfl
  unfold parseHeaders
  by_cases hlen : 34 ≤ p.len
  · rw [heth (by omega), hip hlen]
    dsimp only
    rw [if_pos hproto, if_pos rfl]
    unfold parse_tcphdr
    dsimp only
    split_ifs <;> first | rfl | omega
  · rw [if_neg (by omega)]
    by_cases h14 : 14 ≤ p.len
    · rw [heth h14]
      dsimp only
      rw [if_pos hproto, parse_iphdr, if_pos (by omega)]
    · rw [parse_ethhdr, if_pos (by omega)]

/-- The flags count when the TCP header has room for options and lies inside
the frame; else the frame passes as it is, or is dropped. -/
theorem inView_plain {p : Pkt} (hp : PlainTcp p) :
    (32 ≤ p.doff tcpAt * 4 ∧ tcpAt + p.doff tcpAt * 4 ≤ p.len ∧
      inView p = server_in.viewTcp p tcpAt) ∨
    (¬ (32 ≤ p.doff tcpAt * 4 ∧ tcpAt + p.doff tcpAt * 4 ≤ p.len) ∧
      (inView p = .pass ∨ inView p = .drop)) := by
  unfold inView
  rw [parseHeaders_plain hp]
  by_cases hlen : 20 ≤ p.doff tcpAt * 4 ∧ tcpAt + p.doff tcpAt * 4 ≤ p.len
  · rw [if_pos hlen]
    dsimp only
    by_cases h32 : 32 ≤ p.doff tcpAt * 4
    · exact .inl ⟨h32, hlen.2, if_pos h32⟩
    · exact .inr ⟨fun h => h32 h.1, .inl (if_neg h32)⟩
  · rw [if_neg hlen]
    exact .inr ⟨fun h => hlen ⟨by omega, h.2⟩, .inr rfl⟩

/-! ## What `server_in` makes of a SYN-ACK -/

/-- `server_in` passes the frame on to the server as an ACK. -/
def ReachesAsAck (K : Helpers) (rnd : U32 × U32) (s : Server) (p : Pkt) : Prop :=
  (server_in.xdp_router K rnd s p).1 = .XDP_PASS ∧
    (server_in.xdp_router K rnd s p).2.2.ack tcpAt = true ∧
    (server_in.xdp_router K rnd s p).2.2.syn tcpAt = false

section

variable {K : Helpers} {rnd : U32 × U32} {s : Server} {p : Pkt}

theorem not_reachesAsAck_drop (h : inView p = .drop) : ¬ ReachesAsAck K rnd s p := by
  unfold ReachesAsAck
  rw [server_in.xdp_router_eq, h]
  exact fun hr => nomatch hr.1

/-- A frame that passes as it is has the flags that it had. -/
theorem reachesAsAck_pass (h : inView p = .pass) :
    ReachesAsAck K rnd s p ↔ p.ack tcpAt = true ∧ p.syn tcpAt = false := by
  unfold ReachesAsAck
  rw [server_in.xdp_router_eq, h]
  exact ⟨fun hr => hr.2, fun hr => ⟨rfl, hr⟩⟩

/-- A data ACK of a known flow reaches the server. -/
theorem reachesAsAck_data {ts : Nat} {val : map_val_t} (h : inView p = .data tcpAt ts)
    (hts : tcpAt + 20 ≤ ts) (hval : s.conntrack_map.lookup (inKey p tcpAt) = some val)
    (hack : p.ack tcpAt = true) (hsyn : p.syn tcpAt = false) : ReachesAsAck K rnd s p := by
  unfold ReachesAsAck
  rw [server_in.xdp_router_eq, h]
  dsimp only [server_in.runView, server_in.dataBranch]
  rw [initTables_conntrack, hval]
  dsimp only [server_in.hitBranch]
  refine ⟨rfl, ?_, ?_⟩
  · rw [Pkt.ack, Pkt.flag_put_ne _ (by omega), Pkt.flag_put_ne _ (by omega),
      Pkt.flag_put_ne _ (by omega)]
    exact hack
  · rw [Pkt.syn, Pkt.flag_put_ne _ (by omega), Pkt.flag_put_ne _ (by omega),
      Pkt.flag_put_ne _ (by omega)]
    exact hsyn

/-- A SYN-ACK with a TCP header of at least 32 bytes loses its SYN flag, whoever
sent it. The source has in mind the frames that `server_en` redirects. -/
theorem reachesAsAck_synack (hp : PlainTcp p) (hsyn : p.syn tcpAt = true)
    (hack : p.ack tcpAt = true) :
    ReachesAsAck K rnd s p ↔ 32 ≤ p.doff tcpAt * 4 ∧ tcpAt + p.doff tcpAt * 4 ≤ p.len := by
  rcases inView_plain hp with ⟨h32, hlen, hv⟩ | ⟨hshort, hv | hv⟩
  · refine iff_of_true ?_ ⟨h32, hlen⟩
    have hview : server_in.viewTcp p tcpAt = .synack tcpAt := by
      unfold server_in.viewTcp
      rw [hsyn, hack]
      rfl
    unfold ReachesAsAck
    rw [server_in.xdp_router_eq, hv, hview]
    dsimp only [server_in.runView, server_in.synackBranch]
    rw [if_neg (by omega)]
    refine ⟨rfl, ?_, ?_⟩
    · rw [Pkt.ack, Pkt.flag_put_ne _ (by omega), Pkt.flag_clear_flag _ _ _ _ (by decide)]
      exact Bool.and_eq_true_iff.mpr ⟨hack, rfl⟩
    · rw [Pkt.syn, Pkt.flag_put_ne _ (by omega), Pkt.flag_clear_flag _ _ _ _ (by decide)]
      exact Bool.and_false _
  · refine iff_of_false ?_ hshort
    rw [reachesAsAck_pass hv, hsyn]
    exact fun h => Bool.false_ne_true h.2.symm
  · exact iff_of_false (not_reachesAsAck_drop hv) hshort

/-- A frame without the ACK flag does not get it. -/
theorem not_reachesAsAck (hp : PlainTcp p) (hack : p.ack tcpAt = false) :
    ¬ ReachesAsAck K rnd s p := by
  have hpass : inView p = .pass → ¬ ReachesAsAck K rnd s p := by
    intro hv
    rw [reachesAsAck_pass hv, hack]
    exact fun h => Bool.false_ne_true h.1
  rcases inView_plain hp with ⟨-, -, hv⟩ | ⟨-, hv | hv⟩
  · unfold server_in.viewTcp at hv
    simp only [hack, Bool.not_false, Bool.and_true, Bool.false_and, Bool.false_eq_true,
      if_false] at hv
    split at hv
    · cases hts : server.parse_timestamp p (tcpAt + 20) tcpAt with
      | none =>
        rw [hts] at hv
        exact not_reachesAsAck_drop hv
      | some off =>
        rw [hts] at hv
        dsimp only at hv
        split_ifs at hv
        · exact not_reachesAsAck_drop hv
        · exact not_reachesAsAck_drop hv
        · -- The SYN branch clears the timestamp, which lies behind the flags.
          unfold ReachesAsAck
          rw [server_in.xdp_router_eq, hv]
          intro h
          have hflag : ((server_in.synBranch (server_in.initTables s) p tcpAt
              (tcpAt + 20 + off)).2.2).ack tcpAt = p.ack tcpAt := Pkt.flag_put_ne _ (by omega)
          exact Bool.false_ne_true (hack.symm.trans (hflag.symm.trans h.2.1))
    · exact hpass hv
  · exact hpass hv
  · exact not_reachesAsAck_drop hv

end

/-! ## The answer to a SYN, as a frame -/

/-- The data offset of the answer: 16 bytes of options, or those of the SYN. -/
def answerDoff (o : Options) (p : Pkt) : Nat := if o.opt_ab_test then p.doff tcpAt else 9

def answerLen (o : Options) (p : Pkt) : Nat :=
  if o.opt_ab_test then p.len else ((p.len + optDelta p tcpAt 16) % 2 ^ 32).toNat

theorem doff_of_same {p q : Pkt} (h : Pkt.SameOn 46 47 p q) : q.doff tcpAt = p.doff tcpAt :=
  h.doff (by decide) (by decide)

theorem replaceOpts_doff (p : Pkt) (opts : List U8) {n : Nat} (h : opts.length = 4 * n)
    (hn : n ≤ 10) :
    (replaceOpts p tcpAt opts).doff tcpAt = 5 + n := by
  have hold : ∀ v, ((p.memcpy (tcpAt + 20) opts).put16 16 v).doff tcpAt = p.doff tcpAt := fun v =>
    doff_of_same (((Pkt.SameOn.refl 46 47 p).memcpy (by unfold tcpAt; omega)).put (by omega))
  have hnew : ∀ (q : Pkt) delta v, ((q.add_len delta).put16 24 v).doff tcpAt = q.doff tcpAt :=
    fun q delta v => doff_of_same (((Pkt.SameOn.refl 46 47 q).add_len delta).put (by omega))
  have hdelta : (p.doff tcpAt : Int) + (optDelta p tcpAt (4 * n)).tdiv 4 = (5 + n : Nat) := by
    have hfour : optDelta p tcpAt (4 * n) = ((5 + n : Nat) - (p.doff tcpAt : Int)) * 4 := by
      unfold optDelta
      omega
    rw [hfour, Int.mul_tdiv_cancel _ (by decide)]
    omega
  unfold replaceOpts
  dsimp only
  rw [hnew, Pkt.doff_set_doff, hold, h, hdelta]
  omega

section

variable (o : Options) (a : Agent) (p : Pkt) (w : Nat) {ts : Nat}

theorem synackOpts_doff (hts : 54 ≤ ts) :
    (synackOpts o a p w ts).2.doff tcpAt = answerDoff o p := by
  unfold synackOpts answerDoff
  dsimp only
  cases o.opt_ab_test with
  | false => exact replaceOpts_doff _ _ (n := 4) rfl (by decide)
  | true => exact doff_of_same (((Pkt.SameOn.refl 46 47 p).put (by omega)).put (by omega))

theorem synackOpts_len (hts : 54 ≤ ts) : (synackOpts o a p w ts).2.len = answerLen o p := by
  have hdoff : ∀ v v', ((p.put32 (ts + 6) v).put32 (ts + 2) v').doff tcpAt = p.doff tcpAt :=
    fun v v' => doff_of_same (((Pkt.SameOn.refl 46 47 p).put (by omega)).put (by omega))
  unfold synackOpts answerLen
  dsimp only
  cases o.opt_ab_test with
  | false =>
    change ((p.len + optDelta ((p.put32 (ts + 6) _).put32 (ts + 2) _) tcpAt 16) % 2 ^ 32).toNat = _
    unfold optDelta
    rw [hdoff]
    rfl
  | true => rfl

variable (flow : pkt_5tuple) (rx_tsecr : U32)

/-- The answer goes back to the source address. -/
theorem synackHeader_daddr : (synackHeader o flow p rx_tsecr).daddr = p.saddr :=
  ((synackHeader_ip o p flow rx_tsecr).u32 (by decide) (by decide)).trans (swap_addresses p).2.1

end

section

variable {o : Options} {a : Agent} {p : Pkt} {w ts : Nat}

/-- The answer is a SYN-ACK for the source address, in a frame like that of the SYN. -/
structure AnswerFrame (o : Options) (p q : Pkt) : Prop where
  plain : PlainTcp q
  syn : q.syn tcpAt = true
  ack : q.ack tcpAt = true
  daddr : q.daddr = p.saddr
  doff : q.doff tcpAt = answerDoff o p
  len : q.len = answerLen o p

theorem answerSyn_frame (hp : PlainTcp p) (hts : 54 ≤ ts) :
    AnswerFrame o p (answerSyn o a p w ts).2 where
  plain := by
    have hlow : Pkt.SameOn 12 15 p (synackOpts o a p w ts).2 :=
      synackOpts_sameOn o a p w hts (by omega)
    have hmid : Pkt.SameOn 23 24 p (synackOpts o a p w ts).2 :=
      synackOpts_sameOn o a p w hts (by omega)
    exact (hp.of_same hlow hmid).of_same (synackHeader_sameOn o _ _ _ (by omega))
      (synackHeader_sameOn o _ _ _ (by omega))
  syn := by
    rw [Pkt.syn, answerSyn_flag a hts (by decide)]
    simp
  ack := by
    rw [Pkt.ack, answerSyn_flag a hts (by decide)]
    simp
  daddr := by
    have hopts : Pkt.SameOn 26 34 p (synackOpts o a p w ts).2 :=
      synackOpts_sameOn o a p w hts (by omega)
    exact (synackHeader_daddr o _ _ _).trans (hopts.u32 (by omega) (by omega))
  doff := by
    have hdoff : (answerSyn o a p w ts).2.doff tcpAt = (synackOpts o a p w ts).2.doff tcpAt :=
      doff_of_same (synackHeader_sameOn o _ _ _ (by omega))
    rw [hdoff, synackOpts_doff o a p w hts]
  len := (synackHeader_len o _ _ _).trans (synackOpts_len o a p w hts)

end

/-! ## The filter -/

theorem forward_plain {p : Pkt} (hp : PlainTcp p) : PlainTcp (forward p).2 where
  proto := ((forward_sameFrom p).u16 (by decide)).trans hp.proto
  tcp := ((forward_sameFrom p).u8 (by decide)).trans hp.tcp
  ihl := ((forward_sameFrom p).ihl (by decide)).trans hp.ihl

theorem reachesAsAck_forward {K : Helpers} {rnd : U32 × U32} {s : Server} {p : Pkt}
    (hp : PlainTcp p) (hsyn : p.syn tcpAt = true) (hack : p.ack tcpAt = true) :
    ReachesAsAck K rnd s (forward p).2 ↔ 32 ≤ p.doff tcpAt * 4 ∧
    tcpAt + p.doff tcpAt * 4 ≤ p.len := by
  have hdoff : (forward p).2.doff tcpAt = p.doff tcpAt := (forward_sameFrom p).doff (by decide)
  rw [reachesAsAck_synack (forward_plain hp) ((forward_flag p 1).trans hsyn)
    ((forward_flag p 4).trans hack), hdoff, (forward_sameFrom p).len]

/-- The agent took the frame as an ACK and accepted it through a check. -/
structure Checked (o : Options) (a : Agent) (p : Pkt) (w : Nat) : Prop where
  ack : p.ack tcpAt = true
  not_syn : p.syn tcpAt = false
  accepted : Accepted o a p w

/-- A SYN-ACK for the server. No check of the gateway looks at it. -/
structure SynackSlips (p : Pkt) : Prop where
  syn : p.syn tcpAt = true
  ack : p.ack tcpAt = true
  daddr : p.daddr = server_ip
  doff : 32 ≤ p.doff tcpAt * 4
  len : tcpAt + p.doff tcpAt * 4 ≤ p.len

/-- A SYN that claims to come from the server, and that the gateway answers. The
SYN-ACK goes to the server then. -/
structure AnswerSlips (o : Options) (a : Agent) (p : Pkt) : Prop where
  syn : p.syn tcpAt = true
  not_ack : p.ack tcpAt = false
  saddr : p.saddr = server_ip
  pressure : o.opt_pressure = false
  ts : ∃ off, synTsOffset o p = some off ∧ ¬ p.len < tcpAt + 20 + off + 10
  bf : bloom_filter_test a.bf (bytes32 p.saddr) = false
  doff : 32 ≤ answerDoff o p * 4
  len : tcpAt + answerDoff o p * 4 ≤ answerLen o p

/-- When the answer to a SYN goes to the server and reaches it. -/
theorem AnswerFrame.reaches_iff {o : Options} {K : Helpers} {rnd : U32 × U32} {s : Server}
    {p q : Pkt} (h : AnswerFrame o p q) :
    (forward q).1 = SERVER_R_IF_ORDER ∧ ReachesAsAck K rnd s (forward q).2 ↔
      p.saddr = server_ip ∧ 32 ≤ answerDoff o p * 4 ∧ tcpAt + answerDoff o p * 4 ≤
        answerLen o p := by
  rw [forward_server, reachesAsAck_forward h.plain h.syn h.ack, h.daddr, h.doff, h.len]

/-- With a cookie from the cache the frame stays a SYN. -/
theorem not_reachesAsAck_cached {K : Helpers} {rnd : U32 × U32} {s : Server} {p : Pkt} {ts : Nat}
    (hp : PlainTcp p) (hack : p.ack tcpAt = false) (hts : 54 ≤ ts) (v : U32) :
    ¬ ReachesAsAck K rnd s (forward (p.put32 (ts + 6) v)).2 := by
  have hplain : PlainTcp (p.put32 (ts + 6) v) :=
    hp.of_same ((Pkt.SameOn.refl 12 15 p).put (by omega)) ((Pkt.SameOn.refl 23 24 p).put (by omega))
  have hflag : (p.put32 (ts + 6) v).ack tcpAt = false :=
    (Pkt.flag_put_ne p (by unfold tcpAt; omega)).trans hack
  exact not_reachesAsAck (forward_plain hplain) ((forward_flag _ 4).trans hflag)

/-- Every frame that reaches the server as an ACK was accepted by a check, but
for the SYN-ACKs that come from outside and the SYN-ACKs that the gateway itself
sends to the server. -/
theorem only_checked_frames_reach_the_server_iff (o : Options) (a : Agent) (w : Nat) (K : Helpers)
    (rnd : U32 × U32) (s : Server) (p : Pkt) (hdrop : o.opt_drop = false)
    (hforward : o.opt_forward = false) (hp : PlainTcp p) :
    ((xsknf_packet_processor o a p 0 w).1 = SERVER_R_IF_ORDER →
      ReachesAsAck K rnd s (xsknf_packet_processor o a p 0 w).2.2 → Checked o a p w) ↔
    ¬ SynackSlips p ∧ ¬ AnswerSlips o a p := by
  have hproc := processor_inbound (a := a) (w := w) hdrop hforward hp.inbound
  constructor
  · intro h
    constructor
    · rintro ⟨hsyn, hack, hdaddr, hdoff, hlen⟩
      rw [hsyn, hack] at hproc
      have hchecked := h (by rw [hproc]; exact (forward_server p).mpr hdaddr)
        (by rw [hproc]; exact (reachesAsAck_forward hp hsyn hack).mpr ⟨hdoff, hlen⟩)
      exact Bool.false_ne_true (hchecked.not_syn.symm.trans hsyn)
    · rintro ⟨hsyn, hack, hsaddr, hpressure, ⟨off, hoff, hts⟩, hbf, hdoff, hlen⟩
      have hanswer :=
        processor_answers (w := w) hdrop hforward hpressure hp.inbound hsyn hack hoff hts hbf
      have hframe : AnswerFrame o p (answerSyn o (recordFlow a p w) p w (tcpAt + 20 + off)).2 :=
        answerSyn_frame hp (Nat.le_add_right _ _)
      obtain ⟨hserver, hreach⟩ := hframe.reaches_iff.mpr ⟨hsaddr, hdoff, hlen⟩
      rw [hanswer] at h
      have hchecked := h hserver hreach
      exact Bool.false_ne_true (hack.symm.trans hchecked.ack)
  · rintro ⟨hsynack, hanswer⟩ hserver hreach
    rw [hproc] at hserver hreach
    cases hsyn : p.syn tcpAt <;> cases hack : p.ack tcpAt <;> rw [hsyn, hack] at hserver hreach
    · exact absurd hreach (not_reachesAsAck (forward_plain hp) ((forward_flag p 4).trans hack))
    · refine ⟨hack, hsyn, inboundAck_passes_iff.mp ?_⟩
      exact fun hneg => absurd (hneg.symm.trans hserver) (by decide)
    · rcases inboundSyn_cases (o := o) (p := p) (w := w) (recordFlow a p w) with
        hd | ⟨ts, v, hts, hout⟩ | ⟨off, hoff, hts, hbf, hpressure, hout⟩
      · exact absurd (hd.symm.trans hserver) (by decide)
      · change ReachesAsAck K rnd s (inboundSyn o (recordFlow a p w) p w).2.2 at hreach
        rw [hout] at hreach
        exact absurd hreach (not_reachesAsAck_cached hp hack hts v)
      · change (inboundSyn o (recordFlow a p w) p w).1 = SERVER_R_IF_ORDER at hserver
        change ReachesAsAck K rnd s (inboundSyn o (recordFlow a p w) p w).2.2 at hreach
        have hframe : AnswerFrame o p (answerSyn o (recordFlow a p w) p w (tcpAt + 20 + off)).2 :=
          answerSyn_frame hp (Nat.le_add_right _ _)
        rw [hout] at hserver hreach
        obtain ⟨hsaddr, hdoff, hlen⟩ := hframe.reaches_iff.mp ⟨hserver, hreach⟩
        exact absurd ⟨hsyn, hack, hsaddr, hpressure, ⟨off, hoff, hts⟩, hbf, hdoff, hlen⟩ hanswer
    · have hd := (reachesAsAck_forward hp hsyn hack).mp hreach
      exact absurd ⟨hsyn, hack, (forward_server p).mp hserver, hd.1, hd.2⟩ hsynack

/-- A later ACK of the client, with the map cookie 5043 of its address. -/
def cookieAck : Pkt := .segment client_ip server_ip 7 80 1 (htonl 2) 0x10 5 (htonl 5043)

/-- The ACK of the client reaches the server, and a check has accepted it. -/
theorem the_ack_of_the_client_is_checked : Checked {} plainAgent cookieAck 0 := by
  have hview : inView (xsknf_packet_processor {} plainAgent cookieAck 0 0).2.2 = .data 34 56 := by
    decide
  have hkey : inKey (xsknf_packet_processor {} plainAgent cookieAck 0 0).2.2 34 = clientKey := by
    decide
  have hsyn : cookieAck.syn tcpAt = false := by decide
  refine (only_checked_frames_reach_the_server_iff {} plainAgent 0 kernelHelpers (0, 0)
    (runs.run (serverStep kernelHelpers) Server.boot (clientRun [])) cookieAck rfl rfl
    ⟨by decide, by decide, by decide⟩).mpr
    ⟨fun h => Bool.false_ne_true (hsyn.symm.trans h.syn),
      fun h => Bool.false_ne_true (hsyn.symm.trans h.syn)⟩ (by decide) ?_
  exact reachesAsAck_data hview (by decide) (hkey ▸ lookup_clientRun_nil) (by decide)
    (by decide)

/-- A SYN-ACK that nobody asked for. -/
def strangerSynack : Pkt := .segment attacker_ip server_ip 7 80 1 (htonl 2) 0x12 5 77

/-- The SYN-ACK of a stranger reaches the server as an ACK, and no check has
looked at it. -/
theorem the_synack_of_a_stranger_is_not_checked :
    (xsknf_packet_processor {} plainAgent strangerSynack 0 0).1 = SERVER_R_IF_ORDER ∧
      ReachesAsAck kernelHelpers (0, 0) Server.boot
        (xsknf_packet_processor {} plainAgent strangerSynack 0 0).2.2 ∧
      ¬ Checked {} plainAgent strangerSynack 0 := by
  have hp : PlainTcp strangerSynack := ⟨by decide, by decide, by decide⟩
  have hsyn : strangerSynack.syn tcpAt = true := by decide
  have hack : strangerSynack.ack tcpAt = true := by decide
  have hproc := processor_inbound (o := {}) (a := plainAgent) (w := 0) rfl rfl hp.inbound
  rw [hsyn, hack] at hproc
  refine ⟨?_, ?_, fun h => Bool.false_ne_true (h.not_syn.symm.trans hsyn)⟩
  · rw [hproc]
    exact (forward_server _).mpr (by decide)
  · rw [hproc]
    exact (reachesAsAck_forward hp hsyn hack).mpr ⟨by decide, by decide⟩

end edge_cookie
