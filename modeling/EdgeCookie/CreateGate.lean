-- The gate before the connection table: an ACK that makes an entry must have
-- passed the SYN cookie check. The gateway reads the TCP header at byte 34 and
-- `server_in` reads it behind the IP options, so the gate holds for frames
-- without IP options only.
import EdgeCookie.AckFilter

namespace edge_cookie

open bytes headers server
open server_in (inView)
open switch_agent

/-- The SYN cookie that the gateway computes for a flow. The block has the
source port twice, as in the source. -/
def flowCookie (o : Options) (salt : Fin 5 → U32) (k : map_key_t) : U32 :=
  hashcookie o ⟨k.src_ip, k.dst_ip, k.src_port, k.src_port, salt⟩ k.src_ip k.dst_ip k.src_port
    k.dst_port

theorem synCookie_flow (o : Options) (a : Agent) (p : Pkt) (w : Nat) :
    synCookie o a p w = flowCookie o (a.flows w).salt (inKey p tcpAt) := rfl

/-! ## What makes an entry -/

/-- An entry is made by an ACK with the timestamp `TS_START`. -/
theorem inView_create {p : Pkt} {tcp ts : Nat} (h : inView p = .create tcp ts) :
    tcp = 14 + p.ihl * 4 ∧ p.ack tcp = true ∧ p.syn tcp = false ∧
      ∃ off, server.parse_timestamp p (tcp + 20) tcp = some off ∧
        p.tsecr (tcp + 20 + off) = TS_START := by
  unfold inView at h
  split at h
  · cases h
  · cases h
  · rename_i t len hparse
    have hat := (parseHeaders_tcp hparse).2.2.1
    split at h
    · unfold server_in.viewTcp at h
      dsimp only at h
      split at h
      · split at h
        · cases h
        · split_ifs at h
      · split at h
        · rename_i hflags
          split at h
          · cases h
          · rename_i off hoff
            split_ifs at h with _ hstart
            cases h
            rw [Bool.and_eq_true, Bool.not_eq_true'] at hflags
            exact ⟨hat, hflags.1, hflags.2, off, hoff, hstart.1⟩
        · split_ifs at h
    · cases h

theorem ihl_of_same {p q : Pkt} (h : Pkt.SameOn 14 15 p q) : q.ihl = p.ihl :=
  h.ihl (by decide) (by decide)

/-- What `server_in` found in a frame that the gateway sent on, when it makes an
entry of it: the fields of the frame before the new hardware addresses. -/
theorem forward_create {p : Pkt} {tcp ts : Nat} (hihl : p.ihl = 5)
    (h : inView (forward p).2 = .create tcp ts) :
    tcp = tcpAt ∧ p.ack tcpAt = true ∧ p.syn tcpAt = false ∧
      ∃ off, server.parse_timestamp p (tcpAt + 20) tcpAt = some off ∧
        p.tsecr (tcpAt + 20 + off) = TS_START := by
  have hsame := forward_sameFrom p
  have hihl' : (forward p).2.ihl = 5 := (hsame.ihl (by decide)).trans hihl
  obtain ⟨hat, hack, hsyn, off, hoff, hstart⟩ := inView_create h
  rw [hihl'] at hat
  obtain rfl : tcp = tcpAt := hat
  have htsecr : (forward p).2.tsecr (tcpAt + 20 + off) = p.tsecr (tcpAt + 20 + off) :=
    hsame.u32 (by unfold tcpAt; omega)
  rw [server.parse_timestamp_same hsame (by decide)] at hoff
  exact ⟨rfl, (forward_flag p 4).symm.trans hack, (forward_flag p 1).symm.trans hsyn, off, hoff,
    htsecr.symm.trans hstart⟩

/-- The flow and the number of a frame, as `server_in` reads them behind the gateway. -/
theorem forward_flow (p : Pkt) :
    inKey (forward p).2 tcpAt = inKey p tcpAt ∧ (forward p).2.ack_seq tcpAt = p.ack_seq tcpAt := by
  have hsame := forward_sameFrom p
  constructor
  · unfold inKey Pkt.saddr Pkt.daddr Pkt.source Pkt.dest
    rw [hsame.u32 (by decide), hsame.u32 (by decide), hsame.u16 (by decide), hsame.u16 (by decide)]
  · exact hsame.u32 (by decide)

/-! ## ACKs that the gateway rewrites -/

section

variable (o : Options) (a : Agent) (p : Pkt) (w ts : Nat) {lo hi : Nat}

theorem apacheOpts_sameOn
    (h : hi ≤ 16 ∨ (18 ≤ lo ∧ hi ≤ 24) ∨ (26 ≤ lo ∧ hi ≤ 46) ∨ (47 ≤ lo ∧ hi ≤ 50)) :
    Pkt.SameOn lo hi p (apacheOpts o a p w ts).2 := by
  unfold apacheOpts cksumTcp
  dsimp only
  split
  · exact ((replaceOpts_sameOn p _ (by omega)).put (by unfold tcpAt; omega)).put
      (by unfold tcpAt; omega)
  · exact Pkt.SameOn.refl _ _ _

/-- Behind the flags the answer writes the ports, the numbers, the window and
the checksum, and the addresses. -/
theorem answerRst_sameOn_flags (cookie : U32) (h : hi ≤ 26 ∨ (47 ≤ lo ∧ hi ≤ 48)) :
    Pkt.SameOn lo hi ((p.set_flag tcpAt 2).clear_flag tcpAt 4) (answerRst a p cookie).2 := by
  unfold answerRst tcpAt
  dsimp only
  repeat' first
    | with_reducible exact Pkt.SameOn.refl _ _ _
    | with_reducible apply Pkt.SameOn.put
    | with_reducible apply Pkt.SameOn.xor_swap
    | omega

theorem answerRst_sameOn (cookie : U32) (h : hi ≤ 26) :
    Pkt.SameOn lo hi p (answerRst a p cookie).2 := by
  have hflags : Pkt.SameOn lo hi p ((p.set_flag tcpAt 2).clear_flag tcpAt 4) := by
    unfold Pkt.clear_flag Pkt.set_flag tcpAt
    exact ((Pkt.SameOn.refl lo hi p).put (.inl (by omega))).put (.inl (by omega))
  exact hflags.trans (answerRst_sameOn_flags a p cookie (.inl h))

/-- The answer has the RST flag, and no ACK flag. -/
theorem answerRst_flag (cookie : U32) {i : Nat} (hi : i < 8) :
    (answerRst a p cookie).2.flag tcpAt i =
      ((p.flag tcpAt i || decide (2 = i)) && !decide (4 = i)) := by
  have hkeep :
      Pkt.SameOn 47 48 ((p.set_flag tcpAt 2).clear_flag tcpAt 4) (answerRst a p cookie).2 :=
    answerRst_sameOn_flags a p cookie (.inr (by decide))
  have hflag : (answerRst a p cookie).2.flag tcpAt i =
      ((p.set_flag tcpAt 2).clear_flag tcpAt 4).flag tcpAt i :=
    hkeep.flag (by decide) (by decide) i
  rw [hflag, Pkt.flag_clear_flag _ _ _ _ hi, Pkt.flag_set_flag _ _ _ _ hi]

theorem answerRst_ack (cookie : U32) : (answerRst a p cookie).2.ack tcpAt = false := by
  rw [Pkt.ack, answerRst_flag a p cookie (by decide)]
  exact Bool.and_false _

end

/-! ## The gate -/

/-- When the gateway sends `p` to the server and `server_in` makes an entry of
the frame that it gets, the number of this frame is for the SYN cookie. -/
def Gated (o : Options) (a : Agent) (w : Nat) (p : Pkt) : Prop :=
  ∀ tcp ts, (xsknf_packet_processor o a p 0 w).1 = SERVER_R_IF_ORDER →
    inView (xsknf_packet_processor o a p 0 w).2.2 = .create tcp ts →
    htonl (ntohl ((xsknf_packet_processor o a p 0 w).2.2.ack_seq tcp) - 1) =
      flowCookie o (a.flows w).salt (inKey (xsknf_packet_processor o a p 0 w).2.2 tcp)

section

variable {o : Options} {a : Agent} {w : Nat} {p : Pkt}

/-- An accepted ACK that makes an entry: the gateway changed neither its flow
nor its number, and it passed the SYN cookie check. -/
theorem inboundAck_gated (hihl : p.ihl = 5) (hack : p.ack tcpAt = true) (hsyn : p.syn tcpAt = false)
    {tcp ts : Nat} (hpass : (inboundAck o (recordFlow a p w) p w).1 ≠ -1)
    (hview : inView (inboundAck o (recordFlow a p w) p w).2.2 = .create tcp ts) :
    htonl (ntohl ((inboundAck o (recordFlow a p w) p w).2.2.ack_seq tcp) - 1) =
      flowCookie o (a.flows w).salt (inKey (inboundAck o (recordFlow a p w) p w).2.2 tcp) := by
  obtain ⟨ats, hats, ⟨hcheck, y, hy, hout⟩ | ⟨hne, hout⟩⟩ := inboundAck_out hpass
  · rw [hout] at hview ⊢
    have hopts : ∀ lo hi, hi ≤ 16 ∨ (18 ≤ lo ∧ hi ≤ 24) ∨ (26 ≤ lo ∧ hi ≤ 46) ∨
        (47 ≤ lo ∧ hi ≤ 50) →
        Pkt.SameOn lo hi (resetFirst (recordFlow a p w) p (synCookie o a p w)).2 y.2 := by
      intro lo hi h
      rw [hy]
      exact apacheOpts_sameOn o _ _ w ats h
    unfold resetFirst at hopts
    split at hopts
    · -- The first ACK of an address is a RST now, and makes no entry.
      have hihl' : y.2.ihl = 5 := (ihl_of_same (hopts 14 15 (by omega))).trans
        ((ihl_of_same (answerRst_sameOn _ p _ (by omega))).trans hihl)
      have hrst : y.2.ack tcpAt = false :=
        (congrArg (BitVec.getLsbD · 4) ((hopts 47 48 (by omega)).u8 (by decide) (by decide))).trans
          (answerRst_ack _ p _)
      have hack' := (forward_create hihl' hview).2.1
      exact absurd (hrst.symm.trans hack') Bool.false_ne_true
    · have hihl' : y.2.ihl = 5 := (ihl_of_same (hopts 14 15 (by omega))).trans hihl
      obtain rfl := (forward_create hihl' hview).1
      have hkeep := hopts 26 46 (by omega)
      have hkey : inKey y.2 tcpAt = inKey p tcpAt := by
        unfold inKey Pkt.saddr Pkt.daddr Pkt.source Pkt.dest
        rw [hkeep.u32 (by decide) (by decide), hkeep.u32 (by decide) (by decide),
          hkeep.u16 (by decide) (by decide), hkeep.u16 (by decide) (by decide)]
      have hnum : y.2.ack_seq tcpAt = p.ack_seq tcpAt := hkeep.u32 (by decide) (by decide)
      rw [(forward_flow y.2).1, (forward_flow y.2).2, hkey, hnum, ← synCookie_flow]
      exact hcheck
  · -- The map and hash cookie checks are for other timestamps than `TS_START`.
    rw [hout] at hview
    obtain ⟨-, -, -, off, hoff, hstart⟩ := forward_create hihl hview
    unfold ackTs at hats
    split at hats
    · cases hats
    · rename_i off' hoff'
      split at hats
      · cases hats
      · obtain rfl := Option.some.inj hats
        rw [parse_timestamp_agrees hack hsyn hoff' hoff] at hstart
        exact absurd hstart hne

/-- The gate holds for every frame without IP options. -/
theorem gated_plain (hdrop : o.opt_drop = false) (hforward : o.opt_forward = false)
    (hihl : p.ihl = 5) :
    Gated o a w p := by
  intro tcp ts hserver hview
  have hpass : (xsknf_packet_processor o a p 0 w).1 ≠ -1 := fun h =>
    absurd (h.symm.trans hserver) (by decide)
  have hp : ¬ (p.h_proto ≠ htons ETH_P_IP ∧ p.protocol ≠ IPPROTO_TCP) := fun h =>
    hpass (processor_other h 0)
  rw [processor_inbound hdrop hforward hp] at hpass hview ⊢
  cases hsyn : p.syn tcpAt <;> cases hack : p.ack tcpAt <;> rw [hsyn, hack] at hpass hview <;>
    simp only [Bool.not_false, Bool.not_true, Bool.and_self, Bool.and_true, Bool.and_false,
      Bool.false_eq_true, if_false, if_true] at hpass hview ⊢
  · exact absurd (hack.symm.trans (forward_create hihl hview).2.1) Bool.false_ne_true
  · exact inboundAck_gated hihl hack hsyn hpass hview
  · rcases inboundSyn_cases (o := o) (p := p) (w := w) (recordFlow a p w) with
      hd | ⟨ts', v, hts', hout⟩ | ⟨off, -, -, -, -, hout⟩
    · exact absurd hd hpass
    · rw [hout] at hview
      have hihl' : (p.put32 (ts' + 6) v).ihl = 5 :=
        (ihl_of_same ((Pkt.SameOn.refl 14 15 p).put (by omega))).trans hihl
      have hflag : (p.put32 (ts' + 6) v).ack tcpAt = false :=
        (Pkt.flag_put_ne p (by unfold tcpAt; omega)).trans hack
      exact absurd (hflag.symm.trans (forward_create hihl' hview).2.1) Bool.false_ne_true
    · rw [hout] at hview
      have hts : 54 ≤ tcpAt + 20 + off := Nat.le_add_right _ _
      have hihl' : (answerSyn o (recordFlow a p w) p w (tcpAt + 20 + off)).2.ihl = 5 :=
        ((ihl_of_same (synackHeader_sameOn o _ _ _ (by omega))).trans
          (ihl_of_same (synackOpts_sameOn o _ p w hts (by omega)))).trans hihl
      have hflag : (answerSyn o (recordFlow a p w) p w (tcpAt + 20 + off)).2.syn tcpAt = true := by
        rw [Pkt.syn, answerSyn_flag _ hts (by decide)]
        simp
      exact absurd ((forward_create hihl' hview).2.2.1.symm.trans hflag) Bool.false_ne_true
  · exact absurd ((forward_create hihl hview).2.2.1.symm.trans hsyn) Bool.false_ne_true

end

/-! ## Frames with IP options -/

/-- An ACK with the timestamp `TS_START`, behind an IP header of `n` words with
zeros as its options. The gateway reads zeros as the flags of the frame. -/
def optionsFrame (n : Nat) (ack_seq : U32) : Pkt :=
  .ofBytes (List.replicate 12 0 ++ [0x08, 0x00] ++
    [BitVec.ofNat 8 (0x40 + n), 0, 0, 0, 0, 0, 0, 0, 64, 6, 0, 0] ++ bytes32 attacker_ip ++
    bytes32 server_ip ++ List.replicate (4 * (n - 5)) 0 ++
    bytes16 0 ++ bytes16 (htons 80) ++ bytes32 0 ++ bytes32 ack_seq ++
    [0x80, 0x10, 0, 0, 0, 0, 0, 0] ++ [1, 1, 8, 10] ++ bytes32 5 ++ bytes32 TS_START)

/-- What the gateway and `server_in` read in such a frame. -/
structure ReadsAs (n : Nat) (ack_seq : U32) (p : Pkt) : Prop where
  proto : p.h_proto = htons ETH_P_IP
  ihl : p.ihl = n
  daddr : p.daddr = server_ip
  flags : 5 < n → p.syn tcpAt = false ∧ p.ack tcpAt = false
  create : inView (forward p).2 = .create (14 + n * 4) (14 + n * 4 + 22)
  number : (forward p).2.ack_seq (14 + n * 4) = ack_seq
  key : inKey (forward p).2 (14 + n * 4) = ⟨attacker_ip, server_ip, 0, htons 80⟩

theorem optionsFrame_reads {n i : Nat} (hn : 5 ≤ n) (hn' : n ≤ 15) (hi : i < 2) :
    ReadsAs n (BitVec.ofNat 32 i) (optionsFrame n (BitVec.ofNat 32 i)) := by
  have hagent : ∀ n < 16, 5 ≤ n → ∀ i < 2,
      (optionsFrame n (BitVec.ofNat 32 i)).h_proto = htons ETH_P_IP ∧
      (optionsFrame n (BitVec.ofNat 32 i)).ihl = n ∧
      (optionsFrame n (BitVec.ofNat 32 i)).daddr = server_ip ∧
      (n = 5 ∨ (optionsFrame n (BitVec.ofNat 32 i)).syn tcpAt = false ∧
        (optionsFrame n (BitVec.ofNat 32 i)).ack tcpAt = false) := by
    decide
  have hserver : ∀ n < 16, 5 ≤ n → ∀ i < 2,
      inView (forward (optionsFrame n (BitVec.ofNat 32 i))).2 =
        .create (14 + n * 4) (14 + n * 4 + 22) ∧
      (forward (optionsFrame n (BitVec.ofNat 32 i))).2.ack_seq (14 + n * 4) = BitVec.ofNat 32 i ∧
      inKey (forward (optionsFrame n (BitVec.ofNat 32 i))).2 (14 + n * 4) =
        ⟨attacker_ip, server_ip, 0, htons 80⟩ := by
    decide
  obtain ⟨hproto, hihl, hdaddr, hflags⟩ := hagent n (by omega) hn i hi
  obtain ⟨hcreate, hnumber, hkey⟩ := hserver n (by omega) hn i hi
  exact ⟨hproto, hihl, hdaddr, fun h => hflags.resolve_left (by omega), hcreate, hnumber, hkey⟩

section

variable {o : Options} {a : Agent} {w : Nat} {p : Pkt}

/-- A frame that no check looks at goes on as it is. -/
theorem processor_unchecked (hdrop : o.opt_drop = false) (hproto : p.h_proto = htons ETH_P_IP)
    (hflags : o.opt_forward = true ∨ (p.syn tcpAt = false ∧ p.ack tcpAt = false)) :
    (xsknf_packet_processor o a p 0 w).1 = (forward p).1 ∧
      (xsknf_packet_processor o a p 0 w).2.2 = (forward p).2 := by
  have hp : ¬ (p.h_proto ≠ htons ETH_P_IP ∧ p.protocol ≠ IPPROTO_TCP) := fun h => h.1 hproto
  by_cases hf : o.opt_forward = true
  · rw [processor_forward hdrop hf hp]
    exact ⟨rfl, rfl⟩
  · obtain ⟨hsyn, hack⟩ := hflags.resolve_left hf
    rw [processor_inbound hdrop (Bool.eq_false_iff.mpr hf) hp, hsyn, hack]
    exact ⟨rfl, rfl⟩

/-- The gateway sends the frame on without a check, and `server_in` makes an
entry of it. -/
theorem gated_unchecked {n : Nat} {ack_seq : U32} (hdrop : o.opt_drop = false)
    (hn : o.opt_forward = true ∨ 5 < n) (hreads : ReadsAs n ack_seq p) (hgated : Gated o a w p) :
    htonl (ntohl ack_seq - 1) =
      flowCookie o (a.flows w).salt ⟨attacker_ip, server_ip, 0, htons 80⟩ := by
  obtain ⟨hverdict, hout⟩ := processor_unchecked (a := a) (w := w) hdrop hreads.proto
    (hn.imp_right hreads.flags)
  unfold Gated at hgated
  rw [hverdict, hout] at hgated
  have hentry := hgated _ _ ((forward_server _).mpr hreads.daddr) hreads.create
  rw [hreads.number, hreads.key] at hentry
  exact hentry

theorem gated_drop (hdrop : o.opt_drop = true) : Gated o a w p := by
  intro tcp ts hserver
  rw [processor_drop hdrop] at hserver
  have hne : (-1 : Int) ≠ SERVER_R_IF_ORDER := by decide
  exact absurd hserver hne

end

/-- The gate holds for all frames with an IP header of `n` words just when the
gateway drops every frame, or checks frames and `n` is 5. With IP options the
gateway takes its fields from the wrong bytes. -/
theorem entries_are_gated_iff (o : Options) (a : Agent) (w n : Nat) (hn : 5 ≤ n) (hn' : n ≤ 15) :
    (∀ p : Pkt, p.ihl = n → Gated o a w p) ↔
      o.opt_drop = true ∨ (o.opt_forward = false ∧ n = 5) := by
  constructor
  · intro h
    by_contra hcond
    rw [not_or, not_and] at hcond
    have hdrop : o.opt_drop = false := Bool.eq_false_iff.mpr hcond.1
    have hunchecked : o.opt_forward = true ∨ 5 < n := by
      by_cases hf : o.opt_forward = false
      · have hne := hcond.2 hf
        exact .inr (by omega)
      · exact .inl (Bool.of_not_eq_false hf)
    -- Two frames of one flow, with different numbers.
    have hreads := optionsFrame_reads (i := 0) hn hn' (by decide)
    have hreads' := optionsFrame_reads (i := 1) hn hn' (by decide)
    have hzero := gated_unchecked hdrop hunchecked hreads (h _ hreads.ihl)
    have hone := gated_unchecked hdrop hunchecked hreads' (h _ hreads'.ihl)
    exact absurd (hzero.trans hone.symm) (by decide)
  · rintro hcond p hihl
    by_cases hdrop : o.opt_drop = true
    · exact gated_drop hdrop
    · obtain ⟨hforward, rfl⟩ := hcond.resolve_left hdrop
      exact gated_plain (Bool.eq_false_iff.mpr hdrop) hforward hihl

/-- A gateway that has reset the client before. -/
def knownAgent : Agent :=
  { plainAgent with bf := bloom_filter_put plainAgent.bf (bytes32 client_ip) }

/-- The ACK of the client for its SYN cookie, with salts that are all 0. -/
def checkedAck : Pkt := clientAck (flowCookie {} (fun _ => 0) clientKey)

theorem checkedAck_checked {o : Options} (a : Agent)
    (hcookie : flowCookie o (a.flows 0).salt clientKey = flowCookie {} (fun _ => 0) clientKey) :
    SynCheck o a checkedAck 0 := by
  have hkey : inKey checkedAck tcpAt = clientKey := by decide
  unfold SynCheck
  rw [synCookie_flow, hkey, hcookie, checkedAck, clientAck_number, BitVec.add_sub_cancel]
  exact bswap32_bswap32 _

/-- The ACK of the client has no IP options: it makes an entry, and its number
is for the SYN cookie. -/
theorem the_entry_of_the_client_is_gated :
    htonl (ntohl ((xsknf_packet_processor {} knownAgent checkedAck 0 0).2.2.ack_seq 34) - 1) =
      flowCookie {} (knownAgent.flows 0).salt
        (inKey (xsknf_packet_processor {} knownAgent checkedAck 0 0).2.2 34) := by
  have hts : ackTs checkedAck = some 56 := by decide
  have hproc := processor_known_ack (o := {}) (a := knownAgent) (w := 0) rfl rfl rfl
    (by decide) (by decide) (by decide) hts (by decide)
    (checkedAck_checked knownAgent rfl) (by decide)
  apply (entries_are_gated_iff {} knownAgent 0 5 (by decide) (by decide)).mpr (.inr ⟨rfl, rfl⟩)
    checkedAck (by decide) 34 56
  · rw [hproc]
    exact (forward_server _).mpr (by decide)
  · rw [hproc]
    decide

/-- With one word of IP options the number 0 makes an entry, and the SYN cookie
of the flow is another one. -/
theorem a_frame_with_options_is_not_gated :
    (optionsFrame 6 0#32).ihl = 6 ∧
    (xsknf_packet_processor {} plainAgent (optionsFrame 6 0#32) 0 0).1 = SERVER_R_IF_ORDER ∧
    inView (xsknf_packet_processor {} plainAgent (optionsFrame 6 0#32) 0 0).2.2 = .create 38 60 ∧
    htonl
      (ntohl ((xsknf_packet_processor {} plainAgent (optionsFrame 6 0#32) 0 0).2.2.ack_seq 38) -
        1) ≠
      flowCookie {} (plainAgent.flows 0).salt
        (inKey (xsknf_packet_processor {} plainAgent (optionsFrame 6 0#32) 0 0).2.2 38) := by
  have hreads := optionsFrame_reads (n := 6) (i := 0) (by decide) (by decide) (by decide)
  obtain ⟨hverdict, hout⟩ :=
    processor_unchecked (o := {}) (a := plainAgent) (w := 0) rfl hreads.proto
    (.inr (hreads.flags (by decide)))
  rw [hverdict, hout]
  refine ⟨hreads.ihl, (forward_server _).mpr hreads.daddr, hreads.create, ?_⟩
  rw [hreads.number, hreads.key]
  decide +kernel

end edge_cookie
