-- The SYN cookie of the gateway agent: which bytes of a SYN the answer keeps,
-- and whether the ACK for a cookie passes the check on it.
import EdgeCookie.AgentChecks
import EdgeCookie.Runs

namespace edge_cookie.switch_agent

open bytes headers runs

/-! ## The answer to a SYN -/

section

variable (o : Options) (a : Agent) (p : Pkt) (w : Nat) {ts lo hi : Nat}

/-- New options change the two lengths, the IP checksum and the options. -/
theorem replaceOpts_sameOn (opts : List U8)
    (h : hi ≤ 16 ∨ (18 ≤ lo ∧ hi ≤ 24) ∨ (26 ≤ lo ∧ hi ≤ 46) ∨ (47 ≤ lo ∧ hi ≤ 54)) :
    Pkt.SameOn lo hi p (replaceOpts p tcpAt opts) := by
  unfold replaceOpts Pkt.set_doff tcpAt
  exact (((((Pkt.SameOn.refl lo hi p).memcpy (by omega)).put (by omega)).put (by omega)).add_len
    _).put (by omega)

/-- The exchange of the addresses leaves the ports where they are. -/
theorem swap_addresses :
    (p.xor_swap 4 26 30).saddr = p.daddr ∧ (p.xor_swap 4 26 30).daddr = p.saddr ∧
    (p.xor_swap 4 26 30).source tcpAt = p.source tcpAt ∧ (p.xor_swap 4 26 30).dest tcpAt =
      p.dest tcpAt := by
  have hports : Pkt.SameOn 34 38 p (p.xor_swap 4 26 30) :=
    (Pkt.SameOn.refl 34 38 p).xor_swap (by omega) (by omega)
  exact ⟨p.u32_xor_swap_left 26 30 (by omega), p.u32_xor_swap_right 26 30 (by omega),
    hports.u16 (by decide) (by decide), hports.u16 (by decide) (by decide)⟩

theorem synackOpts_sameOn (hts : 54 ≤ ts)
    (h : hi ≤ 16 ∨ (18 ≤ lo ∧ hi ≤ 24) ∨ (26 ≤ lo ∧ hi ≤ 46) ∨ (47 ≤ lo ∧ hi ≤ 54)) :
    Pkt.SameOn lo hi p (synackOpts o a p w ts).2 := by
  have hstamp : ∀ v v', Pkt.SameOn lo hi p ((p.put32 (ts + 6) v).put32 (ts + 2) v') := fun v v' =>
    ((Pkt.SameOn.refl lo hi p).put (by omega)).put (by omega)
  unfold synackOpts
  dsimp only
  split
  · exact (hstamp _ _).trans (replaceOpts_sameOn _ _ h)
  · exact hstamp _ _

variable (flow : pkt_5tuple) (rx_tsecr : U32)

/-- The header of the answer, with the checksum of the SYN still in it. -/
def synackFields : Pkt :=
  let p := p.xor_swap 4 26 30
  let rx_seq := p.seq tcpAt
  let cookie := hashcookie o flow p.saddr p.daddr (p.source tcpAt) (p.dest tcpAt)
  let p := p.put32 (tcpAt + 4) cookie
  let p := p.put32 (tcpAt + 8) (htonl (ntohl rx_seq + 1))
  let p := p.xor_swap 2 tcpAt (tcpAt + 2)
  let p := p.put16 (tcpAt + 14) (htons 502)
  (p.set_flag tcpAt 1).set_flag tcpAt 4

/-- Each way to a checksum writes the check field only. -/
theorem synackHeader_fields (h : hi ≤ 50 ∨ 52 ≤ lo) :
    Pkt.SameOn lo hi (synackFields o p flow) (synackHeader o flow p rx_tsecr) := by
  unfold synackHeader
  dsimp only
  split_ifs
  · exact (Pkt.SameOn.refl _ _ _).put (by unfold tcpAt; omega)
  · exact ((Pkt.SameOn.refl _ _ _).put (by unfold tcpAt; omega)).put (by unfold tcpAt; omega)
  · exact Pkt.SameOn.refl _ _ _

/-- The header of the answer keeps the bytes up to the addresses, the data
offset, and the options. -/
theorem synackHeader_sameOn (h : hi ≤ 26 ∨ (46 ≤ lo ∧ hi ≤ 47) ∨ 52 ≤ lo) :
    Pkt.SameOn lo hi p (synackHeader o flow p rx_tsecr) := by
  refine Pkt.SameOn.trans ?_ (synackHeader_fields o p flow rx_tsecr (by omega))
  unfold synackFields Pkt.set_flag tcpAt
  exact (((((((Pkt.SameOn.refl lo hi p).xor_swap (by omega) (by omega)).put (by omega)).put
    (by omega)).xor_swap (by omega) (by omega)).put (by omega)).put (by omega)).put (by omega)

/-- The bytes in front of the flags. The addresses are exchanged before the cookie is
computed, and the ports are exchanged after it. -/
theorem synackHeader_low :
    Pkt.SameOn 0 47 ((((p.xor_swap 4 26 30).put32 (tcpAt + 4)
      (hashcookie o flow p.daddr p.saddr (p.source tcpAt) (p.dest tcpAt))).put32 (tcpAt + 8)
      (htonl (ntohl (p.seq tcpAt) + 1))).xor_swap 2 tcpAt (tcpAt + 2))
        (synackHeader o flow p rx_tsecr) := by
  obtain ⟨hsaddr, hdaddr, hsource, hdest⟩ := swap_addresses p
  have hkeep : Pkt.SameOn 34 46 p (p.xor_swap 4 26 30) :=
    (Pkt.SameOn.refl _ _ _).xor_swap (by decide) (by decide)
  have hseq : (p.xor_swap 4 26 30).seq tcpAt = p.seq tcpAt := hkeep.u32 (by decide) (by decide)
  refine Pkt.SameOn.trans ?_ (synackHeader_fields o p flow rx_tsecr (by decide))
  unfold synackFields
  dsimp only
  rw [hsaddr, hdaddr, hsource, hdest, hseq]
  exact (((Pkt.SameOn.refl _ _ _).put (by decide)).put (by decide)).put (by decide)

/-- In the IP header the addresses change places. -/
theorem synackHeader_ip :
    Pkt.SameOn 14 34 (p.xor_swap 4 26 30) (synackHeader o flow p rx_tsecr) := by
  have hlow := synackHeader_low o p flow rx_tsecr
  refine Pkt.SameOn.trans ?_ fun i _ hi => hlow i (Nat.zero_le _) (by omega)
  exact (((Pkt.SameOn.refl _ _ _).put (by decide)).put (by decide)).xor_swap (by decide) (by decide)

theorem synackHeader_seq :
    (synackHeader o flow p rx_tsecr).seq tcpAt =
      hashcookie o flow p.daddr p.saddr (p.source tcpAt) (p.dest tcpAt) := by
  have hkeep : ∀ q : Pkt, Pkt.SameOn 38 42 q (q.xor_swap 2 tcpAt (tcpAt + 2)) := fun q =>
    (Pkt.SameOn.refl _ _ _).xor_swap (by decide) (by decide)
  rw [Pkt.seq, (synackHeader_low o p flow rx_tsecr).u32 (by decide) (by decide),
    (hkeep _).u32 (by decide) (by decide), Pkt.u32_put_ne _ _ _ _ _ (by decide)]
  exact Pkt.u32_put_same _ _ _

/-- SYN and ACK are set, and the other flags stay. -/
theorem synackHeader_flag {i : Nat} (hi : i < 8) :
    (synackHeader o flow p rx_tsecr).flag tcpAt i =
      (p.flag tcpAt i || decide (1 = i) || decide (4 = i)) := by
  have hfields : Pkt.SameOn 47 48 (synackFields o p flow) (synackHeader o flow p rx_tsecr) :=
    synackHeader_fields o p flow rx_tsecr (by decide)
  have hlow : ∀ cookie number,
      Pkt.SameOn 47 48 p (((((p.xor_swap 4 26 30).put32 (tcpAt + 4) cookie).put32 (tcpAt + 8)
        number).xor_swap 2 tcpAt (tcpAt + 2)).put16 (tcpAt + 14) (htons 502)) :=
    fun cookie number =>
      (((((Pkt.SameOn.refl _ _ _).xor_swap (by decide) (by decide)).put (by decide)).put
        (by decide)).xor_swap (by decide) (by decide)).put (by decide)
  rw [hfields.flag (by decide) (by decide)]
  unfold synackFields
  dsimp only
  rw [Pkt.flag_set_flag _ _ _ _ hi, Pkt.flag_set_flag _ _ _ _ hi,
    (hlow _ _).flag (by decide) (by decide)]

end

/-! ## SYNs that the agent answers -/

/-- The agent answers the SYN with a SYN-ACK. -/
structure Answered (o : Options) (a : Agent) (p : Pkt) (w : Nat) : Prop where
  syn : p.syn tcpAt = true
  not_ack : p.ack tcpAt = false
  sent : (xsknf_packet_processor o a p 0 w).1 ≠ -1
  synack : (xsknf_packet_processor o a p 0 w).2.2.syn tcpAt = true ∧
    (xsknf_packet_processor o a p 0 w).2.2.ack tcpAt = true

theorem forward_flag (p : Pkt) (i : Nat) : (forward p).2.flag tcpAt i = p.flag tcpAt i :=
  (forward_sameFrom p).flag (by decide) i

theorem forward_seq (p : Pkt) : (forward p).2.seq tcpAt = p.seq tcpAt :=
  (forward_sameFrom p).u32 (by decide)

section

variable {o : Options} {a : Agent} {p : Pkt} {w : Nat}

/-- The three ways of a SYN: it is dropped, it goes on with a cookie from the
cache, or it is answered. -/
theorem inboundSyn_cases (r : Agent) :
    (inboundSyn o r p w).1 = -1 ∨
    (∃ ts v, 54 ≤ ts ∧ (inboundSyn o r p w).2.2 = (forward (p.put32 (ts + 6) v)).2) ∨
    ∃ off, synTsOffset o p = some off ∧ ¬ p.len < tcpAt + 20 + off + 10 ∧
      bloom_filter_test r.bf (bytes32 p.saddr) = false ∧ o.opt_pressure = false ∧
      inboundSyn o r p w =
        ((forward (answerSyn o r p w (tcpAt + 20 + off)).2).1,
          (answerSyn o r p w (tcpAt + 20 + off)).1,
          (forward (answerSyn o r p w (tcpAt + 20 + off)).2).2) := by
  unfold inboundSyn
  split
  · exact .inl rfl
  · rename_i off hoff
    dsimp only
    split
    · exact .inl rfl
    · rename_i hlen
      split
      · exact .inr (.inl ⟨tcpAt + 20 + off, _, Nat.le_add_right _ _, rfl⟩)
      · rename_i hbf
        split
        · exact .inl rfl
        · rename_i hpressure
          exact .inr (.inr ⟨off, hoff, hlen, Bool.eq_false_iff.mpr hbf,
            Bool.eq_false_iff.mpr hpressure, rfl⟩)

/-- The cookie of the answer: the hash sees the addresses exchanged. -/
theorem answerSyn_seq (ts : Nat) (hts : 54 ≤ ts) :
    (answerSyn o (recordFlow a p w) p w ts).2.seq tcpAt =
      hashcookie o (flowOf (a.flows w).salt p tcpAt) p.daddr p.saddr (p.source tcpAt)
        (p.dest tcpAt) := by
  unfold answerSyn
  dsimp only
  have hopts : Pkt.SameOn 26 46 p (synackOpts o (recordFlow a p w) p w ts).2 :=
    synackOpts_sameOn o _ p w hts (by omega)
  have hflow : (synackOpts o (recordFlow a p w) p w ts).1.flows w =
      flowOf (a.flows w).salt p tcpAt := by
    rw [synackOpts_flows, recordFlow_self]
  rw [synackHeader_seq, hflow]
  unfold Pkt.saddr Pkt.daddr Pkt.source Pkt.dest tcpAt
  rw [hopts.u32 (by omega) (by omega), hopts.u32 (by omega) (by omega),
    hopts.u16 (by omega) (by omega), hopts.u16 (by omega) (by omega)]

theorem answerSyn_flag (r : Agent) {ts i : Nat} (hts : 54 ≤ ts) (hi : i < 8) :
    (answerSyn o r p w ts).2.flag tcpAt i =
      (p.flag tcpAt i || decide (1 = i) || decide (4 = i)) := by
  unfold answerSyn
  dsimp only
  have hopts : Pkt.SameOn 47 48 p (synackOpts o r p w ts).2 :=
    synackOpts_sameOn o r p w hts (by omega)
  rw [synackHeader_flag _ _ _ _ hi]
  unfold Pkt.flag tcpAt
  rw [hopts.u8 (by omega) (by omega)]

/-- An agent that answers neither drops nor forwards everything. -/
theorem answered_options (h : Answered o a p w) :
    o.opt_drop = false ∧ o.opt_forward = false ∧
      ¬ (p.h_proto ≠ htons ETH_P_IP ∧ p.protocol ≠ IPPROTO_TCP) := by
  obtain ⟨-, hack, hsent, -, hack'⟩ := h
  have hdrop : o.opt_drop = false := by
    by_contra hd
    rw [processor_drop (Bool.of_not_eq_false hd)] at hsent
    exact hsent rfl
  have hp : ¬ (p.h_proto ≠ htons ETH_P_IP ∧ p.protocol ≠ IPPROTO_TCP) := fun hp =>
    hsent (processor_other hp 0)
  refine ⟨hdrop, ?_, hp⟩
  by_contra hf
  rw [processor_forward hdrop (Bool.of_not_eq_false hf) hp, Pkt.ack, forward_flag] at hack'
  exact Bool.false_ne_true (hack.symm.trans hack')

/-- The sequence number of the SYN-ACK. -/
theorem answered_seq (h : Answered o a p w) :
    (xsknf_packet_processor o a p 0 w).2.2.seq tcpAt =
      hashcookie o (flowOf (a.flows w).salt p tcpAt) p.daddr p.saddr (p.source tcpAt)
        (p.dest tcpAt) := by
  obtain ⟨hdrop, hforward, hp⟩ := answered_options h
  obtain ⟨hsyn, hack, hsent, -, hack'⟩ := h
  rw [processor_syn hdrop hforward hp hsyn hack] at hsent hack' ⊢
  rcases inboundSyn_cases (o := o) (p := p) (w := w) (recordFlow a p w) with
    hd | ⟨ts, v, hts, hout⟩ | ⟨off, -, -, -, -, hout⟩
  · exact absurd hd hsent
  · -- The cookie from the cache does not touch the flags.
    rw [hout, Pkt.ack, forward_flag] at hack'
    unfold Pkt.flag tcpAt at hack'
    rw [Pkt.u8_put_ne _ _ _ _ _ (by omega)] at hack'
    exact absurd (hack.symm.trans hack') Bool.false_ne_true
  · rw [hout]
    dsimp only
    rw [forward_seq, answerSyn_seq (tcpAt + 20 + off) (Nat.le_add_right _ _)]

/-- A SYN with a timestamp, of an address that is not in the filter. -/
theorem processor_answers {off : Nat} (hdrop : o.opt_drop = false)
    (hforward : o.opt_forward = false) (hpressure : o.opt_pressure = false)
    (hp : ¬ (p.h_proto ≠ htons ETH_P_IP ∧ p.protocol ≠ IPPROTO_TCP)) (hsyn : p.syn tcpAt = true)
    (hack : p.ack tcpAt = false) (hoff : synTsOffset o p = some off)
    (hlen : ¬ p.len < tcpAt + 20 + off + 10)
    (hbf : bloom_filter_test a.bf (bytes32 p.saddr) = false) :
    xsknf_packet_processor o a p 0 w =
      ((forward (answerSyn o (recordFlow a p w) p w (tcpAt + 20 + off)).2).1,
        (answerSyn o (recordFlow a p w) p w (tcpAt + 20 + off)).1,
        (forward (answerSyn o (recordFlow a p w) p w (tcpAt + 20 + off)).2).2) := by
  rw [processor_syn hdrop hforward hp hsyn hack]
  unfold inboundSyn
  rw [hoff]
  dsimp only
  rw [if_neg hlen, show (recordFlow a p w).bf = a.bf from rfl, hbf, hpressure,
    if_neg Bool.false_ne_true, if_neg Bool.false_ne_true]

theorem answered_of {off : Nat} (hdrop : o.opt_drop = false) (hforward : o.opt_forward = false)
    (hpressure : o.opt_pressure = false)
    (hp : ¬ (p.h_proto ≠ htons ETH_P_IP ∧ p.protocol ≠ IPPROTO_TCP)) (hsyn : p.syn tcpAt = true)
    (hack : p.ack tcpAt = false) (hoff : synTsOffset o p = some off)
    (hlen : ¬ p.len < tcpAt + 20 + off + 10)
    (hbf : bloom_filter_test a.bf (bytes32 p.saddr) = false) : Answered o a p w := by
  have hproc := processor_answers (w := w) hdrop hforward hpressure hp hsyn hack hoff hlen hbf
  have hflag : ∀ i < 8, (xsknf_packet_processor o a p 0 w).2.2.flag tcpAt i =
      (p.flag tcpAt i || decide (1 = i) || decide (4 = i)) := by
    intro i hi
    rw [hproc]
    dsimp only
    have hts : 54 ≤ tcpAt + 20 + off := Nat.le_add_right _ _
    rw [forward_flag, answerSyn_flag _ hts hi]
  refine ⟨hsyn, hack, ?_, ?_, ?_⟩
  · rw [hproc]
    exact forward_ne _
  · rw [Pkt.syn, hflag 1 (by decide)]
    simp
  · rw [Pkt.ack, hflag 4 (by decide)]
    simp

end

/-! ## The round trip of a cookie -/

/-- The agent on one frame, with its interface and its worker. -/
def agentStep (o : Options) (a : Agent) (f : Pkt × Nat × Nat) : Agent :=
  (xsknf_packet_processor o a f.1 f.2.1 f.2.2).2.1

theorem agentRun_salt (o : Options) (a : Agent) (fs : List (Pkt × Nat × Nat)) (i : Nat) :
    ((run (agentStep o) a fs).flows i).salt = (a.flows i).salt :=
  run_invariant (fun b : Agent => (b.flows i).salt = (a.flows i).salt) fs
    (fun _ f h => (processor_salt f.2.1 i).trans h) rfl

section

variable {o : Options} {a b : Agent} {p q : Pkt} {w : Nat}

/-- An ACK with `TS_START` passes just when its number is right. -/
theorem processor_ack_start (hdrop : o.opt_drop = false) (hforward : o.opt_forward = false)
    (hp : ¬ (q.h_proto ≠ htons ETH_P_IP ∧ q.protocol ≠ IPPROTO_TCP)) (hsyn : q.syn tcpAt = false)
    (hack : q.ack tcpAt = true) (ts : Nat) (hts : ackTs q = some ts)
    (hstart : q.tsecr ts = TS_START) :
    (xsknf_packet_processor o b q 0 w).1 ≠ -1 ↔ SynCheck o b q w := by
  rw [processor_ack hdrop hforward hp hsyn hack, inboundAck_passes_iff]
  constructor
  · intro h
    cases h with
    | syn ts' h1 h2 h3 => exact h3
    | map ts' h1 h2 h3 =>
      obtain rfl := Option.some.inj (hts.symm.trans h1)
      exact absurd hstart h2
    | hash ts' h1 h2 h3 =>
      obtain rfl := Option.some.inj (hts.symm.trans h1)
      exact absurd hstart h2
  · intro h
    exact .syn ts hts hstart h

/-- The check compares the hash with the addresses exchanged, which is in the
cookie, with the hash of the addresses as they are. -/
theorem synCheck_iff (hsalt : (b.flows w).salt = (a.flows w).salt) (hs : q.saddr = p.saddr)
    (hd : q.daddr = p.daddr) (hsp : q.source tcpAt = p.source tcpAt)
    (hdp : q.dest tcpAt = p.dest tcpAt) {seq : U32}
    (hseq : seq = hashcookie o (flowOf (a.flows w).salt p tcpAt) p.daddr p.saddr (p.source tcpAt)
      (p.dest tcpAt))
    (hnum : ntohl (q.ack_seq tcpAt) = ntohl seq + 1) :
    SynCheck o b q w ↔ o.hash_option ≠ .HSIPHASH ∨
      hsiphash p.daddr p.saddr (p.source tcpAt) (p.dest tcpAt) =
        hsiphash p.saddr p.daddr (p.source tcpAt) (p.dest tcpAt) := by
  have hminus : htonl (ntohl (q.ack_seq tcpAt) - 1) = seq := by
    rw [hnum, BitVec.add_sub_cancel]
    exact bswap32_bswap32 seq
  unfold SynCheck synCookie
  rw [hminus, hseq, hsalt, flowOf, flowOf, hs, hd, hsp, hdp]
  unfold hashcookie
  cases o.hash_option with
  | HARAKA => simp
  | HSIPHASH => simp
  | HASH_OFF => simp

end

/-- The agent answers the SYN `p`, and then handles any frames. An ACK of the
same addresses and ports with the number of the SYN-ACK plus 1 passes, unless
the hash is `HSIPHASH`: the cookie was made with the addresses exchanged. -/
theorem the_ack_of_a_cookie_passes_iff (o : Options) (a : Agent) (p : Pkt) (w : Nat)
    (hp : Answered o a p w) (fs : List (Pkt × Nat × Nat)) (q : Pkt) (ts : Nat)
    (hproto : q.h_proto = htons ETH_P_IP) (hs : q.saddr = p.saddr) (hd : q.daddr = p.daddr)
    (hsp : q.source tcpAt = p.source tcpAt) (hdp : q.dest tcpAt = p.dest tcpAt)
    (hsyn : q.syn tcpAt = false) (hack : q.ack tcpAt = true) (hts : ackTs q = some ts)
    (hstart : q.tsecr ts = TS_START)
    (hnum : ntohl (q.ack_seq tcpAt) =
      ntohl ((xsknf_packet_processor o a p 0 w).2.2.seq tcpAt) + 1) :
    (xsknf_packet_processor o (run (agentStep o) (xsknf_packet_processor o a p 0 w).2.1 fs) q 0 w).1
        ≠ -1 ↔
      o.hash_option ≠ .HSIPHASH ∨
        hsiphash p.daddr p.saddr (p.source tcpAt) (p.dest tcpAt) =
          hsiphash p.saddr p.daddr (p.source tcpAt) (p.dest tcpAt) := by
  obtain ⟨hdrop, hforward, -⟩ := answered_options hp
  rw [processor_ack_start hdrop hforward (fun h => h.1 hproto) hsyn hack ts hts hstart]
  have hsalt := (agentRun_salt o (xsknf_packet_processor o a p 0 w).2.1 fs w).trans
    (processor_salt (o := o) (a := a) (p := p) (w := w) 0 w)
  exact synCheck_iff hsalt hs hd hsp hdp (answered_seq hp) hnum

/-- A SYN of the client, with a timestamp. -/
def clientSyn : Pkt := .segment client_ip server_ip 7 80 1 0 0x02 5 0

/-- The ACK of the client for the sequence number `seq` of a SYN-ACK. -/
def clientAck (seq : U32) : Pkt :=
  .segment client_ip server_ip 7 80 (htonl 2) (htonl (ntohl seq + 1)) 0x10 6 TS_START

/-- An agent whose salts are all 0. -/
def plainAgent : Agent := .boot fun _ _ => 0

theorem clientSyn_answered (o : Options) (hdrop : o.opt_drop = false)
    (hforward : o.opt_forward = false) (hpressure : o.opt_pressure = false) :
    Answered o plainAgent clientSyn 0 := by
  have hoff : ∃ off, synTsOffset o clientSyn = some off ∧
      ¬ clientSyn.len < tcpAt + 20 + off + 10 := by
    unfold synTsOffset
    split
    · exact ⟨2, by decide, by decide⟩
    · exact ⟨0, rfl, by decide⟩
  obtain ⟨off, hoff, hlen⟩ := hoff
  exact answered_of hdrop hforward hpressure (by decide) (by decide)
    (by decide) hoff hlen (by decide)

/-- The number of the SYN-ACK for the client. -/
def synackSeq (o : Options) : U32 :=
  (xsknf_packet_processor o plainAgent clientSyn 0 0).2.2.seq tcpAt

theorem clientAck_number (seq : U32) : ntohl ((clientAck seq).ack_seq tcpAt) = ntohl seq + 1 := by
  rw [clientAck, tcpAt, Pkt.segment_ack_seq]
  exact ntohl_htonl _

/-- With the default options the ACK of the client passes. -/
theorem the_client_passes_with_haraka :
    (xsknf_packet_processor {} (xsknf_packet_processor {} plainAgent clientSyn 0 0).2.1
      (clientAck (synackSeq {})) 0 0).1 ≠ -1 :=
  (the_ack_of_a_cookie_passes_iff {} plainAgent clientSyn 0
    (clientSyn_answered {} rfl rfl rfl) [] (clientAck (synackSeq {})) 56 (by decide)
    (by decide) (by decide) (by decide) (by decide)
    (by decide) (by decide) (by decide) (by decide)
    (clientAck_number _)).mpr (.inl (by decide))

/-- With `HSIPHASH` the agent drops the ACK for its own SYN-ACK. -/
theorem the_client_is_dropped_with_hsiphash :
    Answered { hash_option := .HSIPHASH } plainAgent clientSyn 0 ∧
    ntohl ((clientAck (synackSeq { hash_option := .HSIPHASH })).ack_seq tcpAt) =
      ntohl ((xsknf_packet_processor { hash_option := .HSIPHASH } plainAgent clientSyn 0 0).2.2.seq
        tcpAt) + 1 ∧
    (xsknf_packet_processor { hash_option := .HSIPHASH }
      (xsknf_packet_processor { hash_option := .HSIPHASH } plainAgent clientSyn 0 0).2.1
      (clientAck (synackSeq { hash_option := .HSIPHASH })) 0 0).1 = -1 := by
  have hans := clientSyn_answered { hash_option := .HSIPHASH } rfl rfl rfl
  refine ⟨hans, clientAck_number _, ?_⟩
  by_contra hpass
  have hcheck := (processor_ack_start rfl rfl (by decide) (by decide)
    (by decide) 56 (by decide) (by decide)).mp hpass
  have hsame := (synCheck_iff (processor_salt 0 0) (by decide) (by decide)
    (by decide) (by decide) (answered_seq hans) (clientAck_number _)).mp hcheck
  revert hsame
  decide

end edge_cookie.switch_agent
