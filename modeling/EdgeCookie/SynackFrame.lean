-- The SYN-ACK of the gateway. With `-c` the options stay and the checksum is changed
-- word by word. Without it the frame gets new options and a full checksum.
import EdgeCookie.ResetFrame

namespace edge_cookie.switch_agent

open bytes headers ones_sum runs

/-- A SYN that the gateway answers: its timestamp option is at `ts`, and the filter
does not have its address. -/
structure FirstSyn (o : Options) (a : Agent) (p : Pkt) (ts : Nat) : Prop where
  drop : o.opt_drop = false
  forward : o.opt_forward = false
  pressure : o.opt_pressure = false
  plain : PlainTcp p
  syn : p.syn tcpAt = true
  ack : p.ack tcpAt = false
  stamp : synTs o p = some ts
  new : bloom_filter_test a.bf (bytes32 p.saddr) = false

theorem firstSyn_answered {o : Options} {a : Agent} {p : Pkt} {ts : Nat} (h : FirstSyn o a p ts)
    (w : Nat) :
    xsknf_packet_processor o a p 0 w =
      ((forward (answerSyn o (recordFlow a p w) p w ts).2).1,
        (answerSyn o (recordFlow a p w) p w ts).1,
        (forward (answerSyn o (recordFlow a p w) p w ts).2).2) := by
  rw [processor_syn h.drop h.forward h.plain.inbound h.syn h.ack, inboundSyn_some h.stamp]
  dsimp only
  rw [show (recordFlow a p w).bf = a.bf from rfl, h.new, h.pressure]
  rfl

/-! ## The checksum with `-c` -/

section

variable (o : Options) (flow : pkt_5tuple) (p : Pkt) (rx_tsecr : U32)

/-- The checksum follows every word of the header, and takes `TS_START` for the
timestamp echo. -/
theorem tcpSum_synackHeader (hcsum : o.tcpcsum_option = .CSUM_ON) (hab : o.opt_ab_test = true)
    {n : Nat} (hn : 18 ≤ n) :
    tcpSum (synackHeader o flow p rx_tsecr) tcpAt n =
      tcpSum p tcpAt n - val TS_START + val rx_tsecr := by
  have htcp : 34 ≤ tcpAt := Nat.le_refl _
  have hflags : ∀ (q : Pkt) i, i ≠ tcpAt + 13 →
      ((q.set_flag tcpAt 1).set_flag tcpAt 4).mem i = q.mem i :=
    fun q i hi => (store_out _ _ _ _ _ (by omega)).trans (store_out _ _ _ _ _ (by omega))
  have hwindow : ∀ (q : Pkt) v,
      (((q.put16 (tcpAt + 14) v).set_flag tcpAt 1).set_flag tcpAt 4).window tcpAt = v := by
    intro q v
    have hkeep : Pkt.SameOn 48 50 (q.put16 (tcpAt + 14) v)
        (((q.put16 (tcpAt + 14) v).set_flag tcpAt 1).set_flag tcpAt 4) :=
      fun i _ _ => hflags _ i (by unfold tcpAt; omega)
    exact (hkeep.u16 (by decide) (by decide)).trans (Pkt.u16_put_same _ _ _)
  have hack : ∀ (q : Pkt) v v',
      (((((q.put32 (tcpAt + 8) v).xor_swap 2 tcpAt (tcpAt + 2)).put16 (tcpAt + 14) v').set_flag
        tcpAt 1).set_flag tcpAt 4).ack_seq tcpAt = v := by
    intro q v v'
    have hkeep : Pkt.SameOn 42 46 (q.put32 (tcpAt + 8) v)
        (((((q.put32 (tcpAt + 8) v).xor_swap 2 tcpAt (tcpAt + 2)).put16 (tcpAt + 14) v').set_flag
          tcpAt 1).set_flag tcpAt 4) :=
      ((((Pkt.SameOn.refl _ _ _).xor_swap (by decide) (by decide)).put (by decide)).put
        (by decide)).put (by decide)
    exact (hkeep.u32 (by decide) (by decide)).trans (Pkt.u32_put_same _ _ _)
  unfold synackHeader
  dsimp only
  rw [if_pos hcsum, if_pos hab, tcpSum_put16 _ _ htcp (by omega) (by omega) (by omega),
    val_csumUpdate, hwindow, hack, tcpSum_flagWord htcp (by omega) (hflags _),
    tcpSum_put16 _ _ htcp (by omega) (by omega) (by omega), tcpSum_swap_ports _ htcp (by omega),
    tcpSum_put32 _ _ htcp (by omega) (by omega) (by omega),
    tcpSum_put32 _ _ htcp (by omega) (by omega) (by omega), tcpSum_swap_addresses _ htcp]
  simp only [List.map_cons, List.map_nil, List.sum_cons, List.sum_nil, val_not16_word, val_not32,
    val_setWidth _ (by decide : 16 ≤ 32)]
  unfold Pkt.tcp_check Pkt.window Pkt.ack_seq Pkt.seq flagWord
  ring

end

/-- The number that two timestamps in a row make. -/
def stamps (tsval tsecr : U32) : Nat := tsval.toNat + 2 ^ 32 * tsecr.toNat

theorem load_stamps (p : Pkt) (b : Nat) : load p.mem b 8 = stamps (p.u32 b) (p.u32 (b + 4)) := by
  have hword : ∀ a, (p.u32 a).toNat = load p.mem a 4 := by
    intro a
    rw [Pkt.u32, BitVec.toNat_ofNat]
    exact Nat.mod_eq_of_lt (load_lt p.mem a 4)
  rw [stamps, hword, hword]
  exact load_append p.mem b 4 4

/-- The change of the two timestamps, as far as the segment of `n` bytes has them. -/
def stampChange (p : Pkt) (ts n : Nat) : Sum :=
  let k := min 8 (tcpAt + n - (ts + 2))
  ((256 ^ (ts - tcpAt) : Nat) : Sum) * (((stamps TS_START (p.tsval ts) % 256 ^ k : Nat) : Sum) -
    ((stamps (p.tsval ts) (p.tsecr ts) % 256 ^ k : Nat) : Sum))

section

variable (p : Pkt) {ts n : Nat}

theorem tcpSum_stamped (hts : tcpAt ≤ ts) :
    tcpSum ((p.put32 (ts + 6) (p.tsval ts)).put32 (ts + 2) TS_START) tcpAt n =
      tcpSum p tcpAt n + stampChange p ts n := by
  obtain ⟨q, hq⟩ : ∃ q, (p.put32 (ts + 6) (p.tsval ts)).put32 (ts + 2) TS_START = q := ⟨_, rfl⟩
  have hkeep : ∀ i, i < ts + 2 ∨ ts + 10 ≤ i → q.mem i = p.mem i := by
    intro i hi
    rw [← hq]
    exact (store_out _ _ _ _ _ (by omega)).trans (store_out _ _ _ _ _ (by omega))
  have hnew : load q.mem (ts + 2) 8 = stamps TS_START (p.tsval ts) := by
    rw [load_stamps, ← hq, Pkt.u32_put_same, Pkt.u32_put_ne _ _ _ _ _ (by omega), Pkt.u32_put_same]
  have haddr : sum q.mem 26 8 = sum p.mem 26 8 :=
    sum_congr fun i _ hi => hkeep i (by unfold tcpAt at hts; omega)
  have hseg : sum q.mem tcpAt n = sum p.mem tcpAt n + stampChange p ts n := by
    by_cases hinside : ts + 2 ≤ tcpAt + n
    · have hk : min 8 (tcpAt + n - (ts + 2)) ≤ 8 := Nat.min_le_left _ _
      have hchange : sum q.mem tcpAt n = sum p.mem tcpAt n + 256 ^ (ts + 2 - tcpAt) *
          (sum q.mem (ts + 2) (min 8 (tcpAt + n - (ts + 2))) -
            sum p.mem (ts + 2) (min 8 (tcpAt + n - (ts + 2)))) :=
        sum_change_at (by omega) (by omega) fun i _ _ hi => hkeep i (by omega)
      have hpow : (256 : Sum) ^ (ts + 2 - tcpAt) = ((256 ^ (ts - tcpAt) : Nat) : Sum) := by
        rw [show ts + 2 - tcpAt = ts - tcpAt + 2 by omega, pow_add, base_pow_even (n := 2) rfl,
          mul_one, Nat.cast_pow, Nat.cast_ofNat]
      rw [hchange, hpow, sum_low q.mem _ hk, sum_low p.mem _ hk, hnew, load_stamps]
      rfl
    · have hnone : min 8 (tcpAt + n - (ts + 2)) = 0 := by omega
      rw [sum_congr fun i _ hi => hkeep i (by omega), stampChange, hnone]
      simp [Nat.mod_one]
  rw [hq, tcpSum, tcpSum, haddr, hseg]
  ring

/-- A segment with both timestamps: only the echo counts, with a factor of 256 at an odd place. -/
theorem stampChange_inside (h : ts + 10 ≤ tcpAt + n) :
    stampChange p ts n = 256 ^ (ts - tcpAt) * (val TS_START - val (p.tsecr ts)) := by
  have hall : min 8 (tcpAt + n - (ts + 2)) = 8 := by omega
  have hlt : ∀ x y : U32, stamps x y % 256 ^ 8 = stamps x y := by
    intro x y
    have hx := x.isLt
    have hy := y.isLt
    unfold stamps
    omega
  have hstamps : ∀ x y : U32, ((stamps x y : Nat) : Sum) = val x + val y := by
    intro x y
    rw [val, val, ← Nat.cast_add, cast_eq_iff, stamps]
    omega
  rw [stampChange, hall, hlt, hlt, hstamps, hstamps, Nat.cast_pow, Nat.cast_ofNat]
  ring

end

/-- The change of the timestamps is the one that the checksum takes into account. -/
def StampsBalance (p : Pkt) (ts : Nat) : Prop :=
  stampChange p ts (tcpLen p) = val TS_START - val (p.tsecr ts)

theorem stampsBalance_inside {p : Pkt} {ts : Nat} (h : ts + 10 ≤ tcpAt + tcpLen p) :
    StampsBalance p ts ↔ (ts - tcpAt) % 2 = 0 ∨ (p.tsecr ts).toNat % 257 = 0 := by
  rw [StampsBalance, stampChange_inside p h]
  by_cases heven : (ts - tcpAt) % 2 = 0
  · rw [base_pow_even heven, one_mul]
    simp [heven]
  · have hpow : (256 : Sum) ^ (ts - tcpAt) = 256 := by
      rw [show ts - tcpAt = ts - tcpAt - 1 + 1 by omega, pow_succ, base_pow_even (by omega),
        one_mul]
    have hstart : val TS_START = ((257 : Nat) : Sum) :=
      congrArg Nat.cast (by decide : TS_START.toNat = 257)
    -- 256 * (257 - e) is 257 - e just when 255 * e is 255 * 257 modulo 65535.
    have hnum : ((256 * 257 + (p.tsecr ts).toNat : Nat) : Sum) =
        ((257 + 256 * (p.tsecr ts).toNat : Nat) : Sum) ↔
        (p.tsecr ts).toNat % 257 = 0 := by
      rw [cast_eq_iff]
      omega
    rw [hpow, hstart, val, or_iff_right heven, ← hnum]
    push_cast
    constructor
    · intro h
      linear_combination h
    · intro h
      linear_combination h

section

variable {o : Options} {a : Agent} {p : Pkt} {ts : Nat}

theorem answerSyn_kept (hab : o.opt_ab_test = true) (w : Nat) :
    (answerSyn o a p w ts).2 =
      synackHeader o (a.flows w) ((p.put32 (ts + 6) (p.tsval ts)).put32 (ts + 2) TS_START)
        (p.tsecr ts) := by
  unfold answerSyn synackOpts
  rw [hab]
  rfl

theorem tcpOk_forward_iff (q : Pkt) : TcpOk (forward q).2 tcpAt ↔ TcpOk q tcpAt := by
  have hsame := forward_sameFrom q
  have hsum : tcpSum (forward q).2 tcpAt (tcpLen q) = tcpSum q tcpAt (tcpLen q) :=
    tcpSum_congr (by decide) fun i hi _ => hsame.mem i (by omega)
  rw [tcpOk_iff, tcpOk_iff, tcpLen_sameFrom hsame, hsum]

theorem tcpOk_synack_iff (h : FirstSyn o a p ts) (hab : o.opt_ab_test = true)
    (hcsum : o.tcpcsum_option = .CSUM_ON) (htcp : TcpOk p tcpAt) (hfield : 18 ≤ tcpLen p)
    (w : Nat) :
    TcpOk (xsknf_packet_processor o a p 0 w).2.2 tcpAt ↔ StampsBalance p ts := by
  have hge : 54 ≤ ts := synTs_ge h.stamp
  have hlen : tcpLen (answerSyn o (recordFlow a p w) p w ts).2 = tcpLen p := by
    have hlow : Pkt.SameOn 12 18 p (answerSyn o (recordFlow a p w) p w ts).2 := by
      rw [answerSyn_kept hab]
      exact (((Pkt.SameOn.refl _ _ _).put (by omega)).put (by omega)).trans
        (synackHeader_sameOn o _ _ _ (by decide))
    have htot : (answerSyn o (recordFlow a p w) p w ts).2.tot_len = p.tot_len :=
      hlow.u16 (by decide) (by decide)
    rw [tcpLen, tcpLen, htot, ihl_of_same fun i hi hi' => hlow i (by omega) (by omega)]
  rw [firstSyn_answered h, tcpOk_forward_iff, tcpOk_iff, hlen, answerSyn_kept hab,
    tcpSum_synackHeader o _ _ _ hcsum hab hfield, tcpSum_stamped p (by unfold tcpAt; omega),
    (tcpOk_iff p tcpAt).mp htcp, StampsBalance]
  constructor
  · intro h
    linear_combination h
  · intro h
    linear_combination h

end

/-- With `-c` the SYN-ACK for a SYN with a right checksum has a right checksum just when
the timestamps balance. For an option inside the datagram they do at an even place, and at an
odd place when the echo of the SYN is a multiple of 257, as 0 and `TS_START` are. -/
theorem a_synack_with_kept_options_is_right_iff (o : Options) (a : Agent) (p : Pkt) (w ts : Nat)
    (hab : o.opt_ab_test = true) (hcsum : o.tcpcsum_option = .CSUM_ON) (h : FirstSyn o a p ts)
    (htcp : TcpOk p tcpAt) (hfield : 18 ≤ tcpLen p) :
    (xsknf_packet_processor o a p 0 w).1 ≠ -1 ∧
      (TcpOk (xsknf_packet_processor o a p 0 w).2.2 tcpAt ↔ StampsBalance p ts) ∧
      (ts + 10 ≤ tcpAt + tcpLen p →
        (StampsBalance p ts ↔ (ts - tcpAt) % 2 = 0 ∨ (p.tsecr ts).toNat % 257 = 0)) := by
  refine ⟨?_, tcpOk_synack_iff h hab hcsum htcp hfield w, stampsBalance_inside⟩
  rw [firstSyn_answered h]
  exact forward_ne _

/-- The SYN of the client with both checksums. -/
def summedSyn : Pkt := (clientSyn.put16 24 0x9a66).put16 (tcpAt + 16) 41221

theorem summedSyn_first {o : Options} (hdrop : o.opt_drop = false)
    (hforward : o.opt_forward = false) (hpressure : o.opt_pressure = false)
    (hts : synTs o summedSyn = some 56) : FirstSyn o plainAgent summedSyn 56 :=
  ⟨hdrop, hforward, hpressure, ⟨by decide, by decide, by decide⟩, by decide, by decide, hts,
    by decide⟩

/-- Behind two no-operation bytes the timestamps are at an even place. -/
theorem a_synack_with_kept_options_is_right :
    TcpOk (xsknf_packet_processor compareOptions plainAgent summedSyn 0 0).2.2 tcpAt := by
  have htcp : TcpOk summedSyn tcpAt := by
    unfold TcpOk
    decide
  have hright :=
    a_synack_with_kept_options_is_right_iff compareOptions plainAgent summedSyn 0 56 rfl rfl
    (summedSyn_first rfl rfl rfl (by decide)) htcp (by decide)
  exact hright.2.1.mpr ((hright.2.2 (by decide)).mpr (.inl (by decide)))

/-- The SYN with one no-operation byte in front of its timestamps, and with the echo 1. -/
def oddSyn : Pkt :=
  (clientSyn.memcpy 54 ([1, 8, 10] ++ bytes32 5 ++ bytes32 1 ++ [0])).put16 (tcpAt + 16) 40456

/-- The timestamps are at an odd place, and the checksum of the SYN-ACK is wrong. -/
theorem a_synack_with_kept_options_is_wrong :
    synTs compareOptions oddSyn = some 55 ∧ PlainTcp oddSyn ∧ TcpOk oddSyn tcpAt ∧
      (xsknf_packet_processor compareOptions plainAgent oddSyn 0 0).1 ≠ -1 ∧
      ¬ TcpOk (xsknf_packet_processor compareOptions plainAgent oddSyn 0 0).2.2 tcpAt := by
  have hts : synTs compareOptions oddSyn = some 55 := by decide
  have hplain : PlainTcp oddSyn := ⟨by decide, by decide, by decide⟩
  have htcp : TcpOk oddSyn tcpAt := by
    unfold TcpOk
    decide
  have hfirst : FirstSyn compareOptions plainAgent oddSyn 55 :=
    ⟨rfl, rfl, rfl, hplain, by decide, by decide, hts, by decide⟩
  refine ⟨hts, hplain, htcp, ?_, ?_⟩
  · rw [firstSyn_answered hfirst]
    exact forward_ne _
  · rw [tcpOk_synack_iff hfirst rfl rfl htcp (by decide), stampsBalance_inside (by decide)]
    decide

/-! ## The options without `-c` -/

/-- The options of a SYN-ACK: all fields but the timestamp echo. -/
structure SynackOpts (opt : common_synack_opt) : Prop where
  mss : opt.MSS = MSS_536
  sack : opt.SackOK = 0x0204
  kind : opt.ts.kind = 8
  length : opt.ts.length = 10
  tsval : opt.ts.tsval = TS_START

/-- The 16 option bytes: MSS, SACK and the timestamps. -/
def synackBytes (tsecr : U32) : List U8 :=
  [2, 4, 2, 0x18, 4, 2, 8, 10] ++ bytes32 TS_START ++ bytes32 tsecr

theorem SynackOpts.stamped {opt : common_synack_opt} (h : SynackOpts opt) (tsecr : U32) :
    SynackOpts { opt with ts := { opt.ts with tsecr := tsecr } } :=
  ⟨h.mss, h.sack, h.kind, h.length, h.tsval⟩

theorem SynackOpts.bytes {opt : common_synack_opt} (h : SynackOpts opt) :
    opt.bytes = synackBytes opt.ts.tsecr := by
  have hmss : bytes32 MSS_536 = [2, 4, 2, 0x18] := by decide
  have hsack : bytes16 0x0204 = [4, 2] := by decide
  rw [common_synack_opt.bytes, tcp_opt_ts.bytes, h.mss, h.sack, h.kind, h.length, h.tsval, hmss,
    hsack]
  rfl

section

variable {o : Options} {a : Agent}

theorem synackOpts_inboundSyn (h : ∀ i, SynackOpts (a.sa_opts i)) (p : Pkt) (w i : Nat) :
    SynackOpts ((inboundSyn o a p w).2.1.sa_opts i) := by
  have hanswer : ∀ ts, SynackOpts ((answerSyn o a p w ts).1.sa_opts i) := by
    intro ts
    unfold answerSyn synackOpts
    dsimp only
    split
    · dsimp only
      split
      · exact (h w).stamped _
      · exact h i
    · exact h i
  unfold inboundSyn
  split
  · exact h i
  · dsimp only
    split_ifs
    · exact h i
    · exact h i
    · exact hanswer _
    · exact hanswer _

theorem inboundAck_sa_opts (p : Pkt) (w : Nat) : (inboundAck o a p w).2.1.sa_opts = a.sa_opts := by
  have hopts : ∀ (b : Agent) (q : Pkt) ts, (apacheOpts o b q w ts).1.sa_opts = b.sa_opts := by
    intro b q ts
    unfold apacheOpts
    dsimp only
    split <;> rfl
  unfold inboundAck
  dsimp only
  split
  · rfl
  · split_ifs
    · rfl
    · rfl
    · exact hopts _ _ _
    · exact hopts _ _ _
    · rfl
    · rfl
    · rfl
    · rfl

theorem synackOpts_step (h : ∀ i, SynackOpts (a.sa_opts i)) (f : Pkt × Nat × Nat) (i : Nat) :
    SynackOpts ((agentStep o a f).sa_opts i) := by
  obtain ⟨p, ifindex, w⟩ := f
  rcases agentStep_opts o a p ifindex w with hsyn | hack | ⟨hkeep, -⟩
  · rw [hsyn]
    exact synackOpts_inboundSyn (a := recordFlow a p w) h p w i
  · rw [hack, inboundAck_sa_opts]
    exact h i
  · rw [hkeep]
    exact h i

/-- Each worker has the options of a SYN-ACK, whatever the frames were. -/
theorem synackOpts_run (o : Options) (salt : Nat → Fin 5 → U32) (fs : List (Pkt × Nat × Nat))
    (i : Nat) :
    SynackOpts ((run (agentStep o) (Agent.boot salt) fs).sa_opts i) :=
  run_invariant (fun b : Agent => ∀ i, SynackOpts (b.sa_opts i)) fs
    (fun _ f h i => synackOpts_step h f i) (fun _ => ⟨rfl, rfl, rfl, rfl, rfl⟩) i

end

/-! ## The frame without `-c` -/

/-- The SYN-ACK for the SYN `p` with its timestamp option at `ts`: a TCP header of 36
bytes that takes the place of the old one, and the options of `synackBytes`. -/
structure SynackOf (p : Pkt) (ts : Nat) (q : Pkt) : Prop extends SentBack p q where
  doff : q.doff tcpAt = 9
  tot_len : (ntohs q.tot_len).toNat + p.doff tcpAt * 4 = (ntohs p.tot_len).toNat + 36
  ack_seq : q.ack_seq tcpAt = htonl (ntohl (p.seq tcpAt) + 1)
  syn : q.syn tcpAt = true
  ack : q.ack tcpAt = true
  opts : ∀ i < 16, q.mem (54 + i) = (synackBytes (p.tsval ts)).getD i 0

theorem SynackOf.sameFrom {p q r : Pkt} {ts : Nat} (h : SynackOf p ts q)
    (hsame : Pkt.SameFrom 12 q r) :
    SynackOf p ts r := by
  have hflag : ∀ i, r.flag tcpAt i = q.flag tcpAt i := hsame.flag (by decide)
  have htot : r.tot_len = q.tot_len := hsame.u16 (by decide)
  have hdoff : r.doff tcpAt = q.doff tcpAt := hsame.doff (by decide)
  refine ⟨h.toSentBack.sameFrom hsame, hdoff.trans h.doff, ?_,
    (hsame.u32 (by decide)).trans h.ack_seq, (hflag 1).trans h.syn, (hflag 4).trans h.ack,
    fun i hi => (hsame.mem _ (by omega)).trans (h.opts i hi)⟩
  rw [htot]
  exact h.tot_len

section

variable (o : Options) (flow : pkt_5tuple) (p : Pkt) (rx_tsecr : U32)

theorem synackHeader_full (hcsum : o.tcpcsum_option = .CSUM_ON) (hab : o.opt_ab_test = false) :
    synackHeader o flow p rx_tsecr =
      (cksumTcp (synackFields o p flow) tcpAt).1.put16 (tcpAt + 16)
        (cksumTcp (synackFields o p flow) tcpAt).2 := by
  unfold synackHeader
  dsimp only
  rw [if_pos hcsum, hab]
  rfl

/-- The addresses and the ports change places, and the number of the SYN is acknowledged. -/
theorem synackHeader_swapped :
    (synackHeader o flow p rx_tsecr).saddr = p.daddr ∧
    (synackHeader o flow p rx_tsecr).source tcpAt = p.dest tcpAt ∧
      (synackHeader o flow p rx_tsecr).dest tcpAt = p.source tcpAt ∧
      (synackHeader o flow p rx_tsecr).ack_seq tcpAt = htonl (ntohl (p.seq tcpAt) + 1) := by
  have hlow := synackHeader_low o p flow rx_tsecr
  obtain ⟨q, hq⟩ : ∃ q, ((p.xor_swap 4 26 30).put32 (tcpAt + 4)
      (hashcookie o flow p.daddr p.saddr (p.source tcpAt) (p.dest tcpAt))).put32 (tcpAt + 8)
      (htonl (ntohl (p.seq tcpAt) + 1)) = q := ⟨_, rfl⟩
  rw [hq] at hlow
  have hports : Pkt.SameOn 34 38 p q := by
    rw [← hq]
    exact (((Pkt.SameOn.refl _ _ _).xor_swap (by decide) (by decide)).put (by decide)).put
      (by decide)
  have hack : Pkt.SameOn 42 46 q (q.xor_swap 2 tcpAt (tcpAt + 2)) :=
    (Pkt.SameOn.refl _ _ _).xor_swap (by decide) (by decide)
  refine ⟨?_, ?_, ?_, ?_⟩
  · exact ((synackHeader_ip o p flow rx_tsecr).u32 (by decide) (by decide)).trans
      (swap_addresses p).1
  · rw [Pkt.source, hlow.u16 (by decide) (by decide), Pkt.u16_xor_swap_left _ _ _ (by decide)]
    exact hports.u16 (by decide) (by decide)
  · rw [Pkt.dest, hlow.u16 (by decide) (by decide), Pkt.u16_xor_swap_right _ _ _ (by decide)]
    exact hports.u16 (by decide) (by decide)
  · rw [Pkt.ack_seq, hlow.u32 (by decide) (by decide), hack.u32 (by decide) (by decide), ← hq]
    exact Pkt.u32_put_same _ _ _

theorem sum_synackHeader : sum (synackHeader o flow p rx_tsecr).mem 14 20 = sum p.mem 14 20 := by
  have hsum : sum (synackHeader o flow p rx_tsecr).mem 14 20 = sum (p.xor_swap 4 26 30).mem 14 20 :=
    sum_congr (synackHeader_ip o p flow rx_tsecr)
  rw [hsum, sum_xor_swap p (by decide) (by decide) (by decide) (by decide) (by decide)]

end

section

variable {o : Options} {a : Agent} {p : Pkt} {w ts : Nat}

/-- The frame with the new options, before its header is changed. -/
theorem answerSyn_new (hab : o.opt_ab_test = false) (ha : SynackOpts (a.sa_opts w)) :
    (answerSyn o a p w ts).2 = synackHeader o (a.flows w)
      (replaceOpts ((p.put32 (ts + 6) (p.tsval ts)).put32 (ts + 2) TS_START) tcpAt
        (synackBytes (p.tsval ts)))
      (p.tsecr ts) := by
  have hbytes := (ha.stamped (p.tsval ts)).bytes
  unfold answerSyn synackOpts
  rw [hab]
  dsimp only
  rw [Bool.not_false, if_pos rfl, hbytes]

/-- The total length is computed with 16 bits. -/
theorem answerSyn_tot_len (hab : o.opt_ab_test = false) (ha : SynackOpts (a.sa_opts w))
    (hts : 54 ≤ ts) (hheader : 20 + p.doff tcpAt * 4 ≤ (ntohs p.tot_len).toNat) :
    (ntohs (answerSyn o a p w ts).2.tot_len).toNat =
      ((ntohs p.tot_len).toNat + 36 - p.doff tcpAt * 4) % 65536 := by
  obtain ⟨q, hq⟩ : ∃ q, (p.put32 (ts + 6) (p.tsval ts)).put32 (ts + 2) TS_START = q := ⟨_, rfl⟩
  have hlow : Pkt.SameOn 0 54 p q := by
    rw [← hq]
    exact ((Pkt.SameOn.refl _ _ _).put (by omega)).put (by omega)
  have htot : q.tot_len = p.tot_len := hlow.u16 (by decide) (by decide)
  have hdoff : q.doff tcpAt = p.doff tcpAt :=
    doff_of_same fun i hi hi' => hlow i (by omega) (by omega)
  have hsame : Pkt.SameOn 16 18 (replaceOpts q tcpAt (synackBytes (p.tsval ts)))
      (answerSyn o a p w ts).2 := by
    rw [answerSyn_new hab ha, hq]
    exact synackHeader_sameOn o _ _ _ (by decide)
  have hdelta : optDelta q tcpAt (synackBytes (p.tsval ts)).length =
      36 - (p.doff tcpAt * 4 : Nat) := by
    rw [optDelta, hdoff]
    rfl
  rw [Pkt.tot_len, hsame.u16 (by decide) (by decide)]
  rw [← Pkt.tot_len, replaceOpts_total, htot, hdelta, BitVec.toNat_add, BitVec.toNat_ofInt]
  omega

theorem sentBack_answerSyn (hab : o.opt_ab_test = false) (hcsum : o.tcpcsum_option = .CSUM_ON)
    (ha : SynackOpts (a.sa_opts w)) (hp : PlainTcp p) (hts : 54 ≤ ts) (hip : IpOk p)
    (hframe : p.len = 14 + (ntohs p.tot_len).toNat)
    (hheader : 20 + p.doff tcpAt * 4 ≤ (ntohs p.tot_len).toNat)
    (hroom : (ntohs p.tot_len).toNat + 36 ≤ 65535 + p.doff tcpAt * 4) :
    SentBack p (answerSyn o a p w ts).2 := by
  have hanswer : AnswerFrame o p (answerSyn o a p w ts).2 := answerSyn_frame hp hts
  have htot := answerSyn_tot_len (o := o) (p := p) hab ha hts hheader
  obtain ⟨r, hr⟩ : ∃ r, replaceOpts ((p.put32 (ts + 6) (p.tsval ts)).put32 (ts + 2) TS_START) tcpAt
    (synackBytes (p.tsval ts)) = r := ⟨_, rfl⟩
  have hout : (answerSyn o a p w ts).2 = synackHeader o (a.flows w) r (p.tsecr ts) := by
    rw [answerSyn_new hab ha, hr]
  have hports : Pkt.SameOn 26 46 p r := by
    rw [← hr]
    exact (((Pkt.SameOn.refl _ _ _).put (by omega)).put (by omega)).trans
      (replaceOpts_sameOn _ _ (by omega))
  obtain ⟨hsaddr, hsource, hdest, -⟩ := synackHeader_swapped o (a.flows w) r (p.tsecr ts)
  rw [← hout] at hsaddr hsource hdest
  constructor
  case saddr => exact hsaddr.trans (hports.u32 (by decide) (by decide))
  case daddr => exact hanswer.daddr
  case source => exact hsource.trans (hports.u16 (by decide) (by decide))
  case dest => exact hdest.trans (hports.u16 (by decide) (by decide))
  case frame =>
    rw [hanswer.len, htot, answerLen, hab, optDelta, hframe]
    simp only [Bool.false_eq_true, if_false]
    omega
  case ip_ok =>
    have hstamped : sum ((p.put32 (ts + 6) (p.tsval ts)).put32 (ts + 2) TS_START).mem 14 20 =
      sum p.mem 14 20 :=
      sum_congr fun i _ hi =>
        (store_out _ _ _ _ _ (by omega)).trans (store_out _ _ _ _ _ (by omega))
    rw [ipOk_iff hanswer.plain.ihl, hout, sum_synackHeader, ← hr, sum_replaceOpts, hstamped]
    exact (ipOk_iff hp.ihl).mp hip
  case tcp_ok =>
    have hlow : Pkt.SameOn 14 18 (synackFields o r (a.flows w)) (answerSyn o a p w ts).2 := by
      rw [hout]
      exact synackHeader_fields o _ _ _ (by decide)
    have hihl : (synackFields o r (a.flows w)).ihl = 5 :=
      (ihl_of_same fun i hi hi' => hlow i hi (by omega)).symm.trans hanswer.plain.ihl
    have hlen : (answerSyn o a p w ts).2.tot_len = (synackFields o r (a.flows w)).tot_len :=
      hlow.u16 (by decide) (by decide)
    rw [hout, synackHeader_full o _ _ _ hcsum hab]
    refine tcpOk_cksumTcp (by decide) ?_
    rw [hihl, ← hlen, htot]
    omega

theorem synackOf_answerSyn (hab : o.opt_ab_test = false) (ha : SynackOpts (a.sa_opts w))
    (hp : PlainTcp p) (hts : 54 ≤ ts) (hheader : 20 + p.doff tcpAt * 4 ≤ (ntohs p.tot_len).toNat)
    (hroom : (ntohs p.tot_len).toNat + 36 ≤ 65535 + p.doff tcpAt * 4)
    (hback : SentBack p (answerSyn o a p w ts).2) : SynackOf p ts (answerSyn o a p w ts).2 := by
  have hanswer : AnswerFrame o p (answerSyn o a p w ts).2 := answerSyn_frame hp hts
  constructor
  case toSentBack => exact hback
  case doff =>
    rw [hanswer.doff, answerDoff, hab]
    rfl
  case tot_len =>
    rw [answerSyn_tot_len hab ha hts hheader]
    omega
  case ack_seq =>
    have hnum :
        Pkt.SameOn 38 42 p
          (replaceOpts ((p.put32 (ts + 6) (p.tsval ts)).put32 (ts + 2) TS_START) tcpAt
            (synackBytes (p.tsval ts))) :=
      (((Pkt.SameOn.refl _ _ _).put (by omega)).put (by omega)).trans
        (replaceOpts_sameOn _ _ (by decide))
    rw [answerSyn_new hab ha, (synackHeader_swapped o _ _ _).2.2.2, Pkt.seq,
      hnum.u32 (by decide) (by decide)]
    rfl
  case syn => exact hanswer.syn
  case ack => exact hanswer.ack
  case opts =>
    intro i hi
    have hkeep :
        Pkt.SameOn 54 70
          (replaceOpts ((p.put32 (ts + 6) (p.tsval ts)).put32 (ts + 2) TS_START) tcpAt
            (synackBytes (p.tsval ts))) (answerSyn o a p w ts).2 := by
      rw [answerSyn_new hab ha]
      exact synackHeader_sameOn o _ _ _ (by decide)
    rw [hkeep _ (by omega) (by omega)]
    exact replaceOpts_opts hi

end

/-- Without `-c` the SYN-ACK is right in every field just when its total length fits into
16 bits, whatever the agent did before. -/
theorem a_synack_with_new_options_is_right_iff (o : Options) (salt : Nat → Fin 5 → U32)
    (fs : List (Pkt × Nat × Nat)) (a : Agent) (ha : run (agentStep o) (Agent.boot salt) fs = a)
    (p : Pkt) (w ts : Nat) (hab : o.opt_ab_test = false) (hcsum : o.tcpcsum_option = .CSUM_ON)
    (h : FirstSyn o a p ts) (hip : IpOk p) (hframe : p.len = 14 + (ntohs p.tot_len).toNat)
    (hheader : 20 + p.doff tcpAt * 4 ≤ (ntohs p.tot_len).toNat) :
    (xsknf_packet_processor o a p 0 w).1 ≠ -1 ∧
      (SynackOf p ts (xsknf_packet_processor o a p 0 w).2.2 ↔
        (ntohs p.tot_len).toNat + 36 ≤ 65535 + p.doff tcpAt * 4) := by
  have hopts : SynackOpts ((recordFlow a p w).sa_opts w) := by
    rw [← ha]
    exact synackOpts_run o salt fs w
  have hts : 54 ≤ ts := synTs_ge h.stamp
  refine ⟨?_, ?_, ?_⟩
  · rw [firstSyn_answered h]
    exact forward_ne _
  · intro hright
    have htot := hright.tot_len
    have hlt := (ntohs (xsknf_packet_processor o a p 0 w).2.2.tot_len).isLt
    omega
  · intro hroom
    rw [firstSyn_answered h]
    exact (synackOf_answerSyn hab hopts h.plain hts hheader hroom
      (sentBack_answerSyn hab hcsum hopts h.plain hts hip hframe hheader hroom)).sameFrom
        (forward_sameFrom _)

/-- The SYN-ACK for the SYN of the client. -/
theorem a_synack_with_new_options_is_right :
    SynackOf summedSyn 56 (xsknf_packet_processor {} plainAgent summedSyn 0 0).2.2 := by
  have hip : IpOk summedSyn := by
    unfold IpOk
    decide
  exact (a_synack_with_new_options_is_right_iff {} (fun _ _ => 0) [] plainAgent rfl
    summedSyn 0 56 rfl rfl
    (summedSyn_first rfl rfl rfl (by decide)) hip (by decide) (by decide)).2.mpr (by decide)

/-- The SYN of the client in a datagram of 65535 bytes. -/
def fullSyn : Pkt := { (clientSyn.put16 16 0xffff).put16 24 0xce66 with len := 65549 }

/-- Four bytes more do not fit into the total length, and the SYN-ACK says 3. -/
theorem a_synack_with_new_options_is_wrong :
    FirstSyn {} plainAgent fullSyn 56 ∧ IpOk fullSyn ∧
    fullSyn.len = 14 + (ntohs fullSyn.tot_len).toNat ∧
      20 + fullSyn.doff tcpAt * 4 ≤ (ntohs fullSyn.tot_len).toNat ∧
      (ntohs (xsknf_packet_processor {} plainAgent fullSyn 0 0).2.2.tot_len).toNat = 3 ∧
      ¬ SynackOf fullSyn 56 (xsknf_packet_processor {} plainAgent fullSyn 0 0).2.2 := by
  have hfirst : FirstSyn {} plainAgent fullSyn 56 :=
    ⟨rfl, rfl, rfl, ⟨by decide, by decide, by decide⟩, by decide, by decide, by decide, by decide⟩
  have hip : IpOk fullSyn := by
    unfold IpOk
    decide
  have hold : (ntohs fullSyn.tot_len).toNat = 65535 := by decide
  have hdoff : fullSyn.doff tcpAt = 8 := by decide
  have hheader : 20 + fullSyn.doff tcpAt * 4 ≤ (ntohs fullSyn.tot_len).toNat := by decide
  have hthree : (ntohs (xsknf_packet_processor {} plainAgent fullSyn 0 0).2.2.tot_len).toNat =
      3 := by
    have hopts : SynackOpts ((recordFlow plainAgent fullSyn 0).sa_opts 0) :=
      ⟨rfl, rfl, rfl, rfl, rfl⟩
    rw [firstSyn_answered hfirst, Pkt.tot_len, (forward_sameFrom _).u16 (by decide), ← Pkt.tot_len,
      answerSyn_tot_len rfl hopts (by decide) hheader, hold, hdoff]
  refine ⟨hfirst, hip, by decide, hheader, hthree, fun hright => ?_⟩
  have htot := hright.tot_len
  rw [hthree, hold, hdoff] at htot
  omega

end edge_cookie.switch_agent
