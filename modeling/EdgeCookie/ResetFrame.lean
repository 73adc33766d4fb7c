-- The reset that the gateway sends for the first ACK of an address. Its checksum is
-- changed word by word, and with `-c` a reset without data gets new options and a
-- full checksum.
import EdgeCookie.Normalise
import EdgeCookie.OneReset

namespace edge_cookie.switch_agent

open bytes headers ones_sum

/-! ## Frames that go back -/

/-- The frame `q` goes back to the sender of `p`: the addresses and the ports change
places, the lengths agree, and both checksums are right. -/
structure SentBack (p q : Pkt) : Prop where
  saddr : q.saddr = p.daddr
  daddr : q.daddr = p.saddr
  source : q.source tcpAt = p.dest tcpAt
  dest : q.dest tcpAt = p.source tcpAt
  frame : q.len = 14 + (ntohs q.tot_len).toNat
  ip_ok : IpOk q
  tcp_ok : TcpOk q tcpAt

/-- The bytes from 12 on decide. -/
theorem SentBack.sameFrom {p q r : Pkt} (h : SentBack p q) (hsame : Pkt.SameFrom 12 q r) :
    SentBack p r where
  saddr := (hsame.u32 (by decide)).trans h.saddr
  daddr := (hsame.u32 (by decide)).trans h.daddr
  source := (hsame.u16 (by decide)).trans h.source
  dest := (hsame.u16 (by decide)).trans h.dest
  frame := by
    have htot : r.tot_len = q.tot_len := hsame.u16 (by decide)
    rw [hsame.len, htot]
    exact h.frame
  ip_ok := h.ip_ok.sameFrom hsame
  tcp_ok := h.tcp_ok.sameFrom hsame

/-- The reset for the ACK `p`: it has the number that the client acknowledged, and
the data is as long as it was. -/
structure ResetOf (p q : Pkt) : Prop extends SentBack p q where
  rst : q.rst tcpAt = true
  ack : q.ack tcpAt = false
  seq : q.seq tcpAt = p.ack_seq tcpAt
  data : (ntohs q.tot_len).toNat + p.doff tcpAt * 4 = (ntohs p.tot_len).toNat + q.doff tcpAt * 4

/-! ## The answer before new options -/

/-- The flags, the window and the numbers of the reset. -/
def resetFields (p : Pkt) : Pkt :=
  (((((p.set_flag tcpAt 2).clear_flag tcpAt 4).put16 (tcpAt + 14) 0).put32 (tcpAt + 4)
    (p.ack_seq tcpAt)).put32 (tcpAt + 8) (p.ack_seq tcpAt + 1))

section

variable (a : Agent) (p : Pkt) (cookie : U32)

theorem resetFields_sameOn {lo hi : Nat} (h : hi ≤ 38 ∨ (46 ≤ lo ∧ hi ≤ 47) ∨ 50 ≤ lo) :
    Pkt.SameOn lo hi p (resetFields p) := by
  unfold resetFields Pkt.set_flag Pkt.clear_flag tcpAt
  exact (((((Pkt.SameOn.refl _ _ _).put (by omega)).put (by omega)).put (by omega)).put
    (by omega)).put (by omega)

/-- The answer has these fields, a checksum that takes the changes of the words off,
and then the ports and the addresses change places. -/
theorem answerRst_eq :
    ∃ ck, (answerRst a p cookie).2 =
        (((resetFields p).put16 (tcpAt + 16) ck).xor_swap 2 tcpAt (tcpAt + 2)).xor_swap 4 26 30 ∧
      val ck = val (p.tcp_check tcpAt) + val (flagWord p tcpAt) -
        val (flagWord ((p.set_flag tcpAt 2).clear_flag tcpAt 4) tcpAt) + val (p.window tcpAt) -
        val (p.ack_seq tcpAt + 1) + val (p.seq tcpAt) := by
  have hlow : Pkt.SameOn 0 47 p ((p.set_flag tcpAt 2).clear_flag tcpAt 4) :=
    ((Pkt.SameOn.refl _ _ _).put (by decide)).put (by decide)
  have hhigh : Pkt.SameOn 48 52 p ((p.set_flag tcpAt 2).clear_flag tcpAt 4) :=
    ((Pkt.SameOn.refl _ _ _).put (by decide)).put (by decide)
  have hwindow : ((p.set_flag tcpAt 2).clear_flag tcpAt 4).window tcpAt = p.window tcpAt :=
    hhigh.u16 (by decide) (by decide)
  have hack : (((p.set_flag tcpAt 2).clear_flag tcpAt 4).put16 (tcpAt + 14) 0).ack_seq tcpAt =
      p.ack_seq tcpAt :=
    (Pkt.u32_put_ne _ _ _ _ _ (by decide)).trans (hlow.u32 (by decide) (by decide))
  have hseq : (((p.set_flag tcpAt 2).clear_flag tcpAt 4).put16 (tcpAt + 14) 0).seq tcpAt =
      p.seq tcpAt :=
    (Pkt.u32_put_ne _ _ _ _ _ (by decide)).trans (hlow.u32 (by decide) (by decide))
  have hfields : Pkt.SameOn 50 52 p (resetFields p) := resetFields_sameOn p (by decide)
  have hcheck : (resetFields p).tcp_check tcpAt = p.tcp_check tcpAt :=
    hfields.u16 (by decide) (by decide)
  have hnew : (resetFields p).ack_seq tcpAt = p.ack_seq tcpAt + 1 := Pkt.u32_put_same _ _ _
  have hnum : (resetFields p).seq tcpAt = p.ack_seq tcpAt :=
    (Pkt.u32_put_ne _ _ _ _ _ (by decide)).trans (Pkt.u32_put_same _ _ _)
  refine ⟨csumUpdate ((resetFields p).tcp_check tcpAt)
    [not16 (flagWord p tcpAt),
      (flagWord ((p.set_flag tcpAt 2).clear_flag tcpAt 4) tcpAt).setWidth 32,
      not16 (p.window tcpAt), 0, ~~~(p.ack_seq tcpAt), (resetFields p).ack_seq tcpAt,
      ~~~(p.seq tcpAt), (resetFields p).seq tcpAt], ?_, ?_⟩
  · unfold answerRst resetFields
    dsimp only
    rw [hwindow, hack, hseq]
  · rw [val_csumUpdate, hcheck, hnew, hnum]
    simp only [List.map_cons, List.map_nil, List.sum_cons, List.sum_nil, val_not16_word, val_not32,
      val_zero, val_setWidth _ (by decide : 16 ≤ 32)]
    ring

/-- The checksum follows the fields. -/
theorem tcpSum_answerRst {n : Nat} (hn : 18 ≤ n) :
    tcpSum (answerRst a p cookie).2 tcpAt n = tcpSum p tcpAt n := by
  obtain ⟨ck, hout, hck⟩ := answerRst_eq a p cookie
  have htcp : 34 ≤ tcpAt := Nat.le_refl _
  have hflags : ∀ i, i ≠ tcpAt + 13 → ((p.set_flag tcpAt 2).clear_flag tcpAt 4).mem i = p.mem i :=
    fun i hi => (store_out _ _ _ _ _ (by omega)).trans (store_out _ _ _ _ _ (by omega))
  have hlow : Pkt.SameOn 0 47 p ((p.set_flag tcpAt 2).clear_flag tcpAt 4) :=
    fun i _ hi => hflags i (by
      unfold tcpAt
      omega)
  have hhigh : Pkt.SameOn 48 52 p ((p.set_flag tcpAt 2).clear_flag tcpAt 4) :=
    fun i hi _ => hflags i (by
      unfold tcpAt
      omega)
  have hwindow : ((p.set_flag tcpAt 2).clear_flag tcpAt 4).u16 (tcpAt + 14) = p.u16 (tcpAt + 14) :=
    hhigh.u16 (by decide) (by decide)
  have hfields : Pkt.SameOn 50 52 p (resetFields p) := resetFields_sameOn p (by decide)
  rw [hout, tcpSum_swap_addresses _ htcp, tcpSum_swap_ports _ htcp (by omega),
    tcpSum_put16 _ _ htcp (by omega) (by omega) (by omega), hfields.u16 (by decide) (by decide),
    hck]
  unfold resetFields
  rw [tcpSum_put32 _ _ htcp (by omega) (by omega) (by omega),
    tcpSum_put32 _ _ htcp (by omega) (by omega) (by omega),
    tcpSum_put16 _ _ htcp (by omega) (by omega) (by omega), tcpSum_flagWord htcp (by omega) hflags,
    hwindow, Pkt.u32_put_ne _ _ _ _ _ (by omega), Pkt.u32_put_ne _ _ _ _ _ (by omega),
    Pkt.u32_put_ne _ _ _ _ _ (by omega), hlow.u32 (by decide) (by decide),
    hlow.u32 (by decide) (by decide), val_zero]
  unfold Pkt.tcp_check Pkt.window Pkt.ack_seq Pkt.seq flagWord
  ring

theorem sum_answerRst : sum (answerRst a p cookie).2.mem 14 20 = sum p.mem 14 20 := by
  obtain ⟨ck, hout, -⟩ := answerRst_eq a p cookie
  have hfields :
      Pkt.SameOn 14 34 p (((resetFields p).put16 (tcpAt + 16) ck).xor_swap 2 tcpAt (tcpAt + 2)) :=
    ((resetFields_sameOn p (by decide)).put (by decide)).xor_swap (by decide) (by decide)
  rw [hout, sum_xor_swap _ (by decide) (by decide) (by decide) (by decide) (by decide)]
  exact sum_congr hfields

theorem answerRst_tot_len : (answerRst a p cookie).2.tot_len = p.tot_len :=
  have hsame : Pkt.SameOn 16 18 p (answerRst a p cookie).2 :=
    answerRst_sameOn a p cookie (by decide)
  hsame.u16 (by decide) (by decide)

end

/-- The answer to an ACK whose check field is inside the datagram. -/
theorem sentBack_answerRst {p : Pkt} (a : Agent) (cookie : U32) (hihl : p.ihl = 5)
    (hframe : p.len = 14 + (ntohs p.tot_len).toNat) (hlen : 52 ≤ p.len) (hip : IpOk p)
    (htcp : TcpOk p tcpAt) :
    SentBack p (answerRst a p cookie).2 := by
  obtain ⟨ck, hout, -⟩ := answerRst_eq a p cookie
  have hihl' : (answerRst a p cookie).2.ihl = p.ihl :=
    ihl_of_same (answerRst_sameOn a p cookie (by decide))
  have htot := answerRst_tot_len a p cookie
  have hports : Pkt.SameOn 34 38 p ((resetFields p).put16 (tcpAt + 16) ck) :=
    (resetFields_sameOn p (by decide)).put (by decide)
  have haddresses :
      Pkt.SameOn 26 34 p (((resetFields p).put16 (tcpAt + 16) ck).xor_swap 2 tcpAt (tcpAt + 2)) :=
    ((resetFields_sameOn p (by decide)).put (by decide)).xor_swap (by decide) (by decide)
  have hswapped :
      Pkt.SameOn 34 38 (((resetFields p).put16 (tcpAt + 16) ck).xor_swap 2 tcpAt (tcpAt + 2))
      (answerRst a p cookie).2 := by
    rw [hout]
    exact (Pkt.SameOn.refl _ _ _).xor_swap (by decide) (by decide)
  constructor
  case saddr =>
    rw [hout, Pkt.saddr, Pkt.u32_xor_swap_left _ _ _ (by decide)]
    exact haddresses.u32 (by decide) (by decide)
  case daddr =>
    rw [hout, Pkt.daddr, Pkt.u32_xor_swap_right _ _ _ (by decide)]
    exact haddresses.u32 (by decide) (by decide)
  case source =>
    rw [Pkt.source, hswapped.u16 (by decide) (by decide), Pkt.u16_xor_swap_left _ _ _ (by decide)]
    exact hports.u16 (by decide) (by decide)
  case dest =>
    rw [Pkt.dest, hswapped.u16 (by decide) (by decide), Pkt.u16_xor_swap_right _ _ _ (by decide)]
    exact hports.u16 (by decide) (by decide)
  case frame =>
    rw [htot]
    exact hframe
  case ip_ok =>
    rw [ipOk_iff (hihl'.trans hihl), sum_answerRst]
    exact (ipOk_iff hihl).mp hip
  case tcp_ok =>
    have hsize : tcpLen (answerRst a p cookie).2 = tcpLen p := by
      rw [tcpLen, tcpLen, htot, hihl']
    have hfield : 18 ≤ tcpLen p := by
      unfold tcpLen
      omega
    rw [tcpOk_iff, hsize, tcpSum_answerRst a p cookie hfield]
    exact (tcpOk_iff p tcpAt).mp htcp

theorem resetOf_answerRst {p : Pkt} (a : Agent) (cookie : U32)
    (hback : SentBack p (answerRst a p cookie).2) :
    ResetOf p (answerRst a p cookie).2 := by
  obtain ⟨ck, hout, -⟩ := answerRst_eq a p cookie
  refine ⟨hback, ?_, answerRst_ack a p cookie, ?_, ?_⟩
  · rw [Pkt.rst, answerRst_flag a p cookie (by decide)]
    simp
  · have hnum : (resetFields p).seq tcpAt = p.ack_seq tcpAt :=
      (Pkt.u32_put_ne _ _ _ _ _ (by decide)).trans (Pkt.u32_put_same _ _ _)
    have hsame : Pkt.SameOn 38 42 (resetFields p) (answerRst a p cookie).2 := by
      rw [hout]
      exact (((Pkt.SameOn.refl _ _ _).put (by decide)).xor_swap (by decide) (by decide)).xor_swap
        (by decide) (by decide)
    exact (hsame.u32 (by decide) (by decide)).trans hnum
  · have hsame : Pkt.SameOn 46 47 p (answerRst a p cookie).2 := by
      rw [hout]
      exact (((resetFields_sameOn p (by decide)).put (by decide)).xor_swap (by decide)
        (by decide)).xor_swap (by decide) (by decide)
    rw [answerRst_tot_len, doff_of_same hsame]

/-! ## The frame that is sent -/

section

variable {p q r : Pkt}

/-- The new options and the full checksum keep the reset right. -/
theorem resetOf_resummed (h : ResetOf p q) (hq : NoData q) {opts : List U8}
    (hopts : opts.length = 20) :
    ResetOf p (resummed q opts) := by
  have hnormal : Normal (resummed q opts) := normal_resummed hq h.ip_ok hopts
  have hlow : Pkt.SameOn 26 46 q (resummed q opts) := resummed_sameOn (by omega)
  have hflag : ∀ i, (resummed q opts).flag tcpAt i = q.flag tcpAt i := by
    intro i
    have hsame : Pkt.SameOn 47 48 q (resummed q opts) := resummed_sameOn (by omega)
    exact hsame.flag (by decide) (by decide) i
  constructor
  case toSentBack =>
    exact ⟨(hlow.u32 (by decide) (by decide)).trans h.saddr,
      (hlow.u32 (by decide) (by decide)).trans h.daddr,
      (hlow.u16 (by decide) (by decide)).trans h.source,
      (hlow.u16 (by decide) (by decide)).trans h.dest, hnormal.frame, hnormal.ip_ok, hnormal.tcp_ok⟩
  case rst => exact (hflag 2).trans h.rst
  case ack => exact (hflag 4).trans h.ack
  case seq => exact (hlow.u32 (by decide) (by decide)).trans h.seq
  case data =>
    have hdata := h.data
    rw [hnormal.tot_len, hnormal.doff]
    rw [hq.tot_len] at hdata
    omega

theorem ResetOf.sameFrom (h : ResetOf p q) (hsame : Pkt.SameFrom 12 q r) : ResetOf p r := by
  have hflag : ∀ i, r.flag tcpAt i = q.flag tcpAt i := hsame.flag (by decide)
  have htot : r.tot_len = q.tot_len := hsame.u16 (by decide)
  have hdoff : r.doff tcpAt = q.doff tcpAt := hsame.doff (by decide)
  refine ⟨h.toSentBack.sameFrom hsame, (hflag 2).trans h.rst, (hflag 4).trans h.ack,
    (hsame.u32 (by decide)).trans h.seq, ?_⟩
  rw [htot, hdoff]
  exact h.data

/-- The options of an ACK with data are left, and an ACK without data gets 20 bytes of
options and the full checksum. -/
theorem apacheOpts_cases (o : Options) (a : Agent) (w ts : Nat) (hihl : p.ihl = 5) :
    (apacheOpts o a p w ts).2 = p ∨ (ntohs p.tot_len).toNat = 20 + p.doff tcpAt * 4 ∧
      ∃ opts : List U8, opts.length = 20 ∧ (apacheOpts o a p w ts).2 = resummed p opts := by
  unfold apacheOpts
  dsimp only
  split
  · rename_i h
    rw [Bool.and_eq_true, decide_eq_true_eq, hihl] at h
    exact .inr ⟨by omega, _, rfl, rfl⟩
  · exact .inl rfl

end

/-- The first ACK of an address that passes the SYN cookie check is answered with
a reset that is right in every field, with data or without, with `-c` or without. -/
theorem the_reset_is_right (o : Options) (a : Agent) (p : Pkt) (w ts : Nat)
    (hdrop : o.opt_drop = false) (hforward : o.opt_forward = false) (hp : PlainTcp p) (hip : IpOk p)
    (htcp : TcpOk p tcpAt) (hframe : p.len = 14 + (ntohs p.tot_len).toNat)
    (hack : p.ack tcpAt = true) (hsyn : p.syn tcpAt = false) (hts : ackTs p = some ts)
    (hstart : p.tsecr ts = TS_START) (hcheck : SynCheck o a p w)
    (hnew : bloom_filter_test a.bf (bytes32 p.saddr) = false) :
    (xsknf_packet_processor o a p 0 w).1 ≠ -1 ∧
    ResetOf p (xsknf_packet_processor o a p 0 w).2.2 := by
  have hreset : resetFirst (recordFlow a p w) p (synCookie o a p w) =
      answerRst (recordFlow a p w) p (synCookie o a p w) := resetFirst_new _ _ _ hnew
  have hinside : tcpAt + 20 ≤ ts ∧ ts + 10 ≤ p.len := ackTs_inside hts
  rw [processor_ack hdrop hforward hp.inbound hsyn hack]
  refine ⟨inboundAck_passes_iff.mpr (.syn ts hts hstart hcheck), ?_⟩
  rw [inboundAck_some hts]
  dsimp only
  rw [if_pos hstart, if_neg (fun hne => hne hcheck), hreset]
  refine ResetOf.sameFrom ?_ (forward_sameFrom _)
  have hlen : 52 ≤ p.len := by
    unfold tcpAt at hinside
    omega
  have hanswer := resetOf_answerRst (recordFlow a p w) (synCookie o a p w)
    (sentBack_answerRst _ _ hp.ihl hframe hlen hip htcp)
  have hplain : PlainTcp (answerRst (recordFlow a p w) p (synCookie o a p w)).2 :=
    hp.of_same (answerRst_sameOn _ p _ (by decide)) (answerRst_sameOn _ p _ (by decide))
  rcases apacheOpts_cases o (answerRst (recordFlow a p w) p (synCookie o a p w)).1 w ts
    hplain.ihl with hkeep | ⟨hempty, opts, hopts, hnormal⟩
  · rw [hkeep]
    exact hanswer
  · rw [hnormal]
    exact resetOf_resummed hanswer ⟨hplain, hanswer.frame, hempty⟩ hopts

/-- The ACK of the client with both checksums. -/
def completeAck : Pkt := sealedAck.put16 (tcpAt + 16) 54793

theorem completeAck_checked {o : Options} (hhash : o.hash_option = .HARAKA) :
    SynCheck o plainAgent completeAck 0 := by
  have hkey : server.inKey completeAck tcpAt = server.inKey sealedAck tcpAt := by decide
  have hnum : completeAck.ack_seq tcpAt = sealedAck.ack_seq tcpAt := by decide
  have hcheck : SynCheck compareOptions plainAgent sealedAck 0 := sealedAck_checked rfl
  unfold SynCheck at hcheck ⊢
  rw [hnum, hcheck, synCookie_flow, synCookie_flow, hkey]
  unfold flowCookie hashcookie
  rw [hhash]
  rfl

/-- The reset of the first ACK is right with `-c` and without it. -/
theorem the_first_ack_gets_a_right_reset :
    ResetOf completeAck (xsknf_packet_processor {} plainAgent completeAck 0 0).2.2 ∧
      ResetOf completeAck
        (xsknf_packet_processor compareOptions plainAgent completeAck 0 0).2.2 := by
  have hts : ackTs completeAck = some 56 := by decide
  have hip : IpOk completeAck := by
    unfold IpOk
    decide
  have htcp : TcpOk completeAck tcpAt := by
    unfold TcpOk
    decide
  have hplain : PlainTcp completeAck := ⟨by decide, by decide, by decide⟩
  constructor
  · exact (the_reset_is_right {} plainAgent completeAck 0 56 rfl rfl hplain hip htcp
      (by decide) (by decide) (by decide) hts (by decide) (completeAck_checked rfl) (by decide)).2
  · exact (the_reset_is_right compareOptions plainAgent completeAck 0 56 rfl rfl hplain hip htcp
      (by decide) (by decide) (by decide) hts (by decide) (completeAck_checked rfl) (by decide)).2

end edge_cookie.switch_agent
