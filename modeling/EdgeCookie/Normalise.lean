-- The last ACK of a handshake with `-c`: the gateway gives it the options of a
-- Linux SYN, and `server_in` turns it into the SYN for the server. The lengths,
-- the options and the checksums are right behind each of the two programs.
import EdgeCookie.Checksum
import EdgeCookie.CreateGate
import EdgeCookie.OptionList
import EdgeCookie.Reconnect

namespace edge_cookie

open bytes headers ones_sum server runs
open server_in (inView)
open switch_agent

/-! ## The options of a Linux SYN -/

namespace switch_agent

/-- The options that `init_` wrote; only the timestamps change later. -/
structure LinuxOpts (opt : common_apache_opt) : Prop where
  mss : opt.MSS = MSS_1460
  sack : opt.SackOK = 0x0204
  kind : opt.ts.kind = 8
  length : opt.ts.length = 10
  nop : opt.nop = 1
  wscale : opt.wscale = (3, 3, 7)

/-- The 20 option bytes: MSS, SACK, timestamps, NOP and window scale. -/
def linuxBytes (tsval tsecr : U32) : List U8 :=
  [2, 4, 5, 0xb4, 4, 2, 8, 10] ++ bytes32 tsval ++ bytes32 tsecr ++ [1, 3, 3, 7]

/-- New numbers in the timestamp option leave the options as they are. -/
theorem LinuxOpts.stamped {opt : common_apache_opt} (h : LinuxOpts opt) (tsval tsecr : U32) :
    LinuxOpts { opt with ts := { opt.ts with tsval := tsval, tsecr := tsecr } } :=
  ⟨h.mss, h.sack, h.kind, h.length, h.nop, h.wscale⟩

theorem LinuxOpts.bytes {opt : common_apache_opt} (h : LinuxOpts opt) :
    opt.bytes = linuxBytes opt.ts.tsval opt.ts.tsecr := by
  have hmss : bytes32 MSS_1460 = [2, 4, 5, 0xb4] := by decide
  have hsack : bytes16 0x0204 = [4, 2] := by decide
  rw [common_apache_opt.bytes, tcp_opt_ts.bytes, h.mss, h.sack, h.kind, h.length, h.nop, h.wscale,
    hmss, hsack]
  rfl

section

variable {o : Options} {a : Agent}

theorem inboundSyn_apache (o : Options) (a : Agent) (p : Pkt) (w : Nat) :
    (inboundSyn o a p w).2.1.sa_apache_opts = a.sa_apache_opts := by
  have hanswer : ∀ ts, (answerSyn o a p w ts).1.sa_apache_opts = a.sa_apache_opts := by
    intro ts
    unfold answerSyn synackOpts
    dsimp only
    split <;> rfl
  unfold inboundSyn
  split
  · rfl
  · dsimp only
    split_ifs
    · rfl
    · rfl
    · exact hanswer _
    · exact hanswer _

theorem linuxOpts_inboundAck (h : ∀ i, LinuxOpts (a.sa_apache_opts i)) (p : Pkt) (w i : Nat) :
    LinuxOpts ((inboundAck o (recordFlow a p w) p w).2.1.sa_apache_opts i) := by
  cases hts : ackTs p with
  | none =>
    rw [inboundAck_none hts]
    exact h i
  | some ts =>
    have hrst : ∀ q : Pkt, ∀ cookie,
        (resetFirst (recordFlow a p w) q cookie).1.sa_apache_opts = a.sa_apache_opts := by
      intro q cookie
      unfold resetFirst
      split <;> rfl
    have hopts : ∀ (b : Agent) (q : Pkt), b.sa_apache_opts = a.sa_apache_opts →
        LinuxOpts ((apacheOpts o b q w ts).1.sa_apache_opts i) := by
      intro b q hb
      unfold apacheOpts
      dsimp only
      split
      · dsimp only
        split
        · rw [hb]
          exact (h w).stamped _ _
        · rw [hb]
          exact h i
      · rw [hb]
        exact h i
    rw [inboundAck_some hts]
    dsimp only
    split_ifs
    · exact h i
    · exact hopts _ _ (hrst p _)
    · exact h i
    · exact h i
    · exact h i
    · exact h i

/-- A frame that is neither a SYN nor an ACK from outside keeps the options of the workers. -/
theorem agentStep_opts (o : Options) (a : Agent) (p : Pkt) (ifindex w : Nat) :
    agentStep o a (p, ifindex, w) = (inboundSyn o (recordFlow a p w) p w).2.1 ∨
      agentStep o a (p, ifindex, w) = (inboundAck o (recordFlow a p w) p w).2.1 ∨
      (agentStep o a (p, ifindex, w)).sa_opts = a.sa_opts ∧
        (agentStep o a (p, ifindex, w)).sa_apache_opts = a.sa_apache_opts := by
  unfold agentStep xsknf_packet_processor outbound
  dsimp only
  split_ifs
  · exact .inr (.inr ⟨rfl, rfl⟩)
  · exact .inr (.inr ⟨rfl, rfl⟩)
  · exact .inr (.inr ⟨rfl, rfl⟩)
  · exact .inl rfl
  · exact .inr (.inl rfl)
  · exact .inr (.inr ⟨rfl, rfl⟩)
  · exact .inr (.inr ⟨rfl, rfl⟩)
  · refine .inr (.inr ?_)
    split
    · exact ⟨rfl, rfl⟩
    · split_ifs
      · exact ⟨rfl, rfl⟩
      · exact ⟨rfl, rfl⟩
  · exact .inr (.inr ⟨rfl, rfl⟩)

theorem linuxOpts_step (h : ∀ i, LinuxOpts (a.sa_apache_opts i)) (f : Pkt × Nat × Nat) (i : Nat) :
    LinuxOpts ((agentStep o a f).sa_apache_opts i) := by
  obtain ⟨p, ifindex, w⟩ := f
  rcases agentStep_opts o a p ifindex w with hsyn | hack | ⟨-, hkeep⟩
  · rw [hsyn, inboundSyn_apache]
    exact h i
  · rw [hack]
    exact linuxOpts_inboundAck h p w i
  · rw [hkeep]
    exact h i

/-- Each worker has the options of a Linux SYN, whatever the frames were. -/
theorem linuxOpts_run (o : Options) (salt : Nat → Fin 5 → U32) (fs : List (Pkt × Nat × Nat))
    (i : Nat) :
    LinuxOpts ((run (agentStep o) (Agent.boot salt) fs).sa_apache_opts i) :=
  run_invariant (fun b : Agent => ∀ i, LinuxOpts (b.sa_apache_opts i)) fs
    (fun _ f h i => linuxOpts_step h f i) (fun _ => ⟨rfl, rfl, rfl, rfl, rfl, rfl⟩) i

end

end switch_agent

/-! ## The frame with the new options -/

/-- A frame without data whose lengths agree, behind an IP header of 20 bytes. -/
structure NoData (p : Pkt) : Prop where
  plain : PlainTcp p
  frame : p.len = 14 + (ntohs p.tot_len).toNat
  tot_len : (ntohs p.tot_len).toNat = 20 + p.doff tcpAt * 4

section

variable {p : Pkt} {opts : List U8}

theorem replaceOpts_total (p : Pkt) (opts : List U8) :
    ntohs (replaceOpts p tcpAt opts).tot_len =
      ntohs p.tot_len + BitVec.ofInt 16 (optDelta p tcpAt opts.length) := by
  have hfield : (replaceOpts p tcpAt opts).tot_len =
      htons (ntohs p.tot_len + BitVec.ofInt 16 (optDelta p tcpAt opts.length)) := by
    unfold replaceOpts Pkt.tot_len Pkt.set_doff tcpAt
    dsimp only
    rw [Pkt.u16_put_ne _ _ _ _ _ (by omega)]
    exact (Pkt.u16_put_ne _ _ _ _ _ (by omega)).trans (Pkt.u16_put_same _ _ _)
  rw [hfield]
  exact bswap16_bswap16 _

theorem replaceOpts_tot_len (htot : (ntohs p.tot_len).toNat = 20 + p.doff tcpAt * 4)
    (hopts : opts.length = 20) : ntohs (replaceOpts p tcpAt opts).tot_len = 60#16 := by
  rw [replaceOpts_total]
  apply BitVec.eq_of_toNat_eq
  rw [BitVec.toNat_add, BitVec.toNat_ofInt, optDelta, hopts, htot]
  simp only [BitVec.toNat_ofNat]
  omega

theorem replaceOpts_len (hp : NoData p) (hopts : opts.length = 20) :
    (replaceOpts p tcpAt opts).len = 74 := by
  have hlen : (replaceOpts p tcpAt opts).len =
      (((p.len : Int) + optDelta p tcpAt opts.length) % 2 ^ 32).toNat := rfl
  have htot := hp.tot_len
  have hdoff := p.doff_lt tcpAt
  rw [hlen, hp.frame, htot, optDelta, hopts]
  omega

/-- The options lie behind the fixed header. -/
theorem replaceOpts_opts {i : Nat} (hi : i < opts.length) :
    (replaceOpts p tcpAt opts).mem (54 + i) = opts.getD i 0 := by
  have hsame :
      Pkt.SameOn 54 (54 + opts.length) (p.memcpy (tcpAt + 20) opts) (replaceOpts p tcpAt opts) := by
    unfold replaceOpts Pkt.set_doff tcpAt
    dsimp only
    exact ((((Pkt.SameOn.refl _ _ _).put (by omega)).put (by omega)).add_len _).put (by omega)
  rw [hsame _ (by omega) (by omega)]
  have hin : 54 ≤ 54 + i ∧ 54 + i < 54 + opts.length := by omega
  have hat : 54 + i - 54 = i := by omega
  exact (if_pos hin).trans (congrArg (opts.getD · 0) hat)

/-- The checksum of the IP header follows the total length. -/
theorem sum_replaceOpts (p : Pkt) (opts : List U8) :
    sum (replaceOpts p tcpAt opts).mem 14 20 = sum p.mem 14 20 := by
  have hcopy : sum (p.memcpy (tcpAt + 20) opts).mem 14 20 = sum p.mem 14 20 :=
    sum_congr fun i _ hi => copy_out _ _ _ _ (by unfold tcpAt; omega)
  have hput : ∀ (q : Pkt) (b : Nat) (v : U16), b = 16 ∨ b = 24 →
      sum (q.put16 b v).mem 14 20 = sum q.mem 14 20 - val (q.u16 b) + val v := by
    intro q b v hb
    have hchange : sum (q.put16 b v).mem 14 20 =
        sum q.mem 14 20 - sum q.mem b 2 + sum (q.put16 b v).mem b 2 :=
      sum_change (by omega) (by omega) (by omega) fun i _ _ hi => store_out _ _ _ _ _ hi
    rw [hchange, val_load16, ← val_load16 (q.put16 b v), Pkt.u16_put_same]
  have hdoff : ∀ (q : Pkt) (d : Nat) (e : Int),
      sum ((q.set_doff tcpAt d).add_len e).mem 14 20 = sum q.mem 14 20 := fun q d e =>
    sum_congr fun i _ hi => store_out _ _ _ _ _ (by unfold tcpAt; omega)
  have hold : (p.memcpy (tcpAt + 20) opts).u16 16 = p.tot_len :=
    Pkt.SameOn.u16 ((Pkt.SameOn.refl 16 18 p).memcpy (by unfold tcpAt; omega)) (by omega) (by omega)
  unfold replaceOpts
  dsimp only
  rw [hput _ 24 _ (.inr rfl), hdoff, hput _ 16 _ (.inl rfl), hcopy, hold, val_csumUpdate]
  simp only [List.map_cons, List.map_nil, List.sum_cons, List.sum_nil, val_not16_word,
    val_setWidth _ (by decide : 16 ≤ 32), Pkt.ip_check]
  ring

end

/-- The frame with new options and the full checksum. -/
def resummed (p : Pkt) (opts : List U8) : Pkt :=
  let x := cksumTcp (replaceOpts p tcpAt opts) tcpAt
  x.1.put16 (tcpAt + 16) x.2

/-- What the gateway makes of an ACK without data that has its timestamp option at `ts`. -/
def normalised (p : Pkt) (ts : Nat) : Pkt :=
  resummed p (linuxBytes (p.tsval ts) (p.tsecr ts))

theorem normalised_eq (p : Pkt) (ts : Nat) :
    normalised p ts = resummed p (linuxBytes (p.tsval ts) (p.tsecr ts)) := rfl

theorem apacheOpts_noData {o : Options} {a : Agent} {p : Pkt} {w : Nat} (hab : o.opt_ab_test = true)
    (ha : LinuxOpts (a.sa_apache_opts w)) (hp : NoData p) (ts : Nat) :
    (apacheOpts o a p w ts).2 = normalised p ts := by
  have hempty : ((ntohs p.tot_len).toNat : Int) - (p.ihl * 4 : Nat) - (p.doff tcpAt * 4 : Nat) =
      0 := by
    rw [hp.tot_len, hp.plain.ihl]
    omega
  have hbytes := (ha.stamped (p.tsval ts) (p.tsecr ts)).bytes
  unfold apacheOpts normalised resummed
  dsimp only
  rw [hab, decide_eq_true hempty, Bool.and_self, if_pos rfl, hbytes]

/-- A frame of the gateway behind the new options: the lengths agree, the TCP
header has 40 bytes, and both checksums are right. -/
structure Normal (q : Pkt) : Prop extends NoData q where
  doff : q.doff tcpAt = 10
  ip_ok : IpOk q
  tcp_ok : TcpOk q tcpAt

theorem Normal.len {q : Pkt} (h : Normal q) : q.len = 74 := by
  rw [h.frame, h.tot_len, h.doff]

section

variable {p q : Pkt} {ts : Nat}

theorem tcpLen_sameFrom (hsame : Pkt.SameFrom 12 p q) : tcpLen q = tcpLen p := by
  have htot : q.tot_len = p.tot_len := hsame.u16 (by decide)
  have hihl : q.ihl = p.ihl := hsame.ihl (by decide)
  rw [tcpLen, tcpLen, hihl, htot]

/-- The bytes from 12 on decide. -/
theorem TcpOk.sameFrom (h : TcpOk p tcpAt) (hsame : Pkt.SameFrom 12 p q) : TcpOk q tcpAt := by
  have hword : ∀ a n, 12 ≤ a → wordSum q.mem a n = wordSum p.mem a n := fun a n ha =>
    wordSum_congr fun i hi _ => hsame.mem i (by omega)
  unfold TcpOk
  rw [tcpLen_sameFrom hsame, hword 26 _ (by decide), hword tcpAt _ (by decide)]
  exact h

theorem IpOk.sameFrom (h : IpOk p) (hsame : Pkt.SameFrom 12 p q) : IpOk q := by
  have hihl : q.ihl = p.ihl := hsame.ihl (by decide)
  unfold IpOk
  rw [hihl, wordSum_congr fun i hi _ => hsame.mem i (by omega)]
  exact h

theorem Normal.sameFrom (h : Normal p) (hsame : Pkt.SameFrom 12 p q) : Normal q := by
  have htot : q.tot_len = p.tot_len := hsame.u16 (by decide)
  have hdoff : q.doff tcpAt = p.doff tcpAt := hsame.doff (by decide)
  refine ⟨⟨?_, ?_, ?_⟩, hdoff.trans h.doff, h.ip_ok.sameFrom hsame, h.tcp_ok.sameFrom hsame⟩
  · exact h.plain.of_same (fun i hi _ => hsame.mem i hi) (fun i hi _ => hsame.mem i (by omega))
  · rw [hsame.len, htot]
    exact h.frame
  · rw [htot, hdoff]
    exact h.tot_len

section

variable {opts : List U8}

theorem resummed_sameOn {lo hi : Nat}
    (h : hi ≤ 16 ∨ (18 ≤ lo ∧ hi ≤ 24) ∨ (26 ≤ lo ∧ hi ≤ 46) ∨ (47 ≤ lo ∧ hi ≤ 50)) :
    Pkt.SameOn lo hi p (resummed p opts) :=
  ((replaceOpts_sameOn p _ (by omega)).put (by unfold tcpAt; omega)).put (by unfold tcpAt; omega)

/-- Behind the IP header the two writes of the checksum change the check field only. -/
theorem resummed_replaceOpts {lo hi : Nat} (h : hi ≤ 50 ∨ 52 ≤ lo) :
    Pkt.SameOn lo hi (replaceOpts p tcpAt opts) (resummed p opts) :=
  ((Pkt.SameOn.refl _ _ _).put (by unfold tcpAt; omega)).put (by unfold tcpAt; omega)

theorem resummed_tot_len (htot : (ntohs p.tot_len).toNat = 20 + p.doff tcpAt * 4)
    (hopts : opts.length = 20) :
    ntohs (resummed p opts).tot_len = 60#16 := by
  have hsame : Pkt.SameOn 16 18 (replaceOpts p tcpAt opts) (resummed p opts) :=
    resummed_replaceOpts (.inl (by decide))
  rw [Pkt.tot_len, hsame.u16 (by decide) (by decide)]
  exact replaceOpts_tot_len htot hopts

theorem resummed_doff (hopts : opts.length = 20) : (resummed p opts).doff tcpAt = 10 := by
  have hsame : Pkt.SameOn 46 47 (replaceOpts p tcpAt opts) (resummed p opts) :=
    resummed_replaceOpts (.inl (by decide))
  exact (hsame.doff (by decide) (by decide)).trans (replaceOpts_doff p _ (n := 5) hopts (by decide))

theorem resummed_opts (hopts : opts.length = 20) {i : Nat} (hi : i < 20) :
    (resummed p opts).mem (54 + i) = opts.getD i 0 := by
  have hsame : Pkt.SameOn 54 74 (replaceOpts p tcpAt opts) (resummed p opts) :=
    resummed_replaceOpts (.inr (by decide))
  exact (hsame _ (by omega) (by omega)).trans (replaceOpts_opts (by omega))

theorem resummed_ihl : (resummed p opts).ihl = p.ihl := ihl_of_same (resummed_sameOn (by omega))

/-- The new frame has the full checksum of its 40 bytes. -/
theorem tcpOk_resummed (htot : (ntohs p.tot_len).toNat = 20 + p.doff tcpAt * 4) (hihl : p.ihl = 5)
    (hopts : opts.length = 20) : TcpOk (resummed p opts) tcpAt ∧ tcpLen (resummed p opts) = 40 := by
  constructor
  · refine tcpOk_cksumTcp (by decide) ?_
    rw [replaceOpts_tot_len htot hopts,
      ihl_of_same (replaceOpts_sameOn p _ (by omega)), hihl]
    decide
  · rw [tcpLen, resummed_tot_len htot hopts, resummed_ihl, hihl]
    rfl

theorem normal_resummed (hp : NoData p) (hip : IpOk p) (hopts : opts.length = 20) :
    Normal (resummed p opts) := by
  have htot : ntohs (resummed p opts).tot_len = 60#16 := resummed_tot_len hp.tot_len hopts
  have hplain : PlainTcp (resummed p opts) :=
    hp.plain.of_same (resummed_sameOn (by omega)) (resummed_sameOn (by omega))
  refine ⟨⟨hplain, ?_, ?_⟩, resummed_doff hopts, ?_,
    (tcpOk_resummed hp.tot_len hp.plain.ihl hopts).1⟩
  · rw [htot]
    exact replaceOpts_len hp hopts
  · rw [htot, resummed_doff hopts]
    rfl
  · have hsame : Pkt.SameOn 14 34 (replaceOpts p tcpAt opts) (resummed p opts) :=
      resummed_replaceOpts (.inl (by decide))
    rw [ipOk_iff hplain.ihl, sum_congr fun i hi hi' => hsame i hi (by omega), sum_replaceOpts]
    exact (ipOk_iff hp.plain.ihl).mp hip

end

end

/-! ## What `server_in` finds -/

theorem u32_of_bytes32 {p : Pkt} {a : Nat} {x : U32}
    (h : ∀ i < 4, p.mem (a + i) = (bytes32 x).getD i 0) :
    p.u32 a = x := by
  have hload : load p.mem a 4 = x.toNat :=
    (load_list p.mem a (bytes32 x) h).trans (listNum_bytes32 x)
  rw [Pkt.u32, hload, BitVec.ofNat_toNat, BitVec.setWidth_eq]

/-- The mask for an ACK starts with a NOP, and the new options with the MSS. -/
theorem ackMasks_slow {p : Pkt} {a : Nat} (h : (p.u8 a).getLsbD 0 = false) :
    ackMasks (p.u64 a) = .slow := by
  refine if_neg fun hmask => ?_
  have hbit := hasMask_bit hmask (i := 0) (by decide)
  exact absurd (h.symm.trans
    ((getLsbD_u64 p a (i := 0) (j := 0) (by decide) (by decide)).symm.trans hbit))
    Bool.false_ne_true

/-- A frame with a TCP header of 40 bytes that has the options of a Linux SYN. -/
structure LinuxFrame (tsval tsecr : U32) (q : Pkt) : Prop where
  doff : q.doff tcpAt = 10
  room : 74 ≤ q.len
  opts : ∀ i < 20, q.mem (54 + i) = (linuxBytes tsval tsecr).getD i 0

namespace LinuxFrame

variable {x y : U32} {q : Pkt} (h : LinuxFrame x y q)

include h

theorem tsval : q.tsval 60 = x := by
  refine u32_of_bytes32 fun i hi => ?_
  rw [show 60 + 2 + i = 54 + (8 + i) by omega, h.opts _ (by omega)]
  rcases i with _ | _ | _ | _ | i
  · rfl
  · rfl
  · rfl
  · rfl
  · omega

theorem tsecr : q.tsecr 60 = y := by
  refine u32_of_bytes32 fun i hi => ?_
  rw [show 60 + 6 + i = 54 + (12 + i) by omega, h.opts _ (by omega)]
  rcases i with _ | _ | _ | _ | i
  · rfl
  · rfl
  · rfl
  · rfl
  · omega

/-- The walk goes over the MSS and the SACK option. -/
theorem walk {past : Nat → Bool} (hpast : ∀ a ≤ 74, past a = false) (n : Nat) :
    optWalk q past (n + 3) 54 = some 60 := by
  have hmss : q.u8 54 = 2 := h.opts 0 (by decide)
  have hmss_len : q.u8 55 = 4 := h.opts 1 (by decide)
  have hsack : q.u8 58 = 4 := h.opts 4 (by decide)
  have hsack_len : q.u8 59 = 2 := h.opts 5 (by decide)
  have hts : q.u8 60 = 8 := h.opts 6 (by decide)
  have hskip1 : Skipped q past 54 :=
    ⟨hpast _ (by decide), by rw [hmss]; decide, by rw [hmss]; decide, fun _ => hpast _ (by decide)⟩
  have hnext1 : nextOpt q 54 = 58 := by
    rw [nextOpt, if_neg (by rw [hmss]; decide), hmss_len]
    rfl
  have hskip2 : Skipped q past 58 :=
    ⟨hpast _ (by decide), by rw [hsack]; decide, by rw [hsack]; decide, fun _ =>
      hpast _ (by decide)⟩
  have hnext2 : nextOpt q 58 = 60 := by
    rw [nextOpt, if_neg (by rw [hsack]; decide), hsack_len]
    rfl
  rw [optWalk_skip hskip1, hnext1, optWalk_skip hskip2, hnext2]
  exact optWalk_stamp ⟨hpast _ (by decide), hts, hpast _ (by decide)⟩ n

theorem parse (hack : q.ack tcpAt = true) (hsyn : q.syn tcpAt = false) :
    server.parse_timestamp q (tcpAt + 20) tcpAt = some 6 := by
  have hroom := h.room
  have hslow : maskView q tcpAt = .slow := by
    have hmss : q.u8 54 = 2 := h.opts 0 (by decide)
    rw [maskView, hsyn, if_neg Bool.false_ne_true]
    exact ackMasks_slow (by rw [show tcpAt + 20 = 54 from rfl, hmss]; decide)
  have hwalk : optWalk q (pastHeader q tcpAt) server.MAX_TCP_OPTION (tcpAt + 20) = some 60 := by
    refine h.walk (fun a ha => decide_eq_false ?_) 7
    rw [h.doff]
    exact Nat.not_lt.mpr ha
  rw [server_parse_eq (by rw [hsyn, hack]; decide) (by rw [h.doff]; decide)
    (by rw [h.doff]; exact hroom), hslow]
  dsimp only
  rw [hwalk]
  dsimp only
  rw [if_neg (by omega)]
  rfl

end LinuxFrame

/-- The frame of the gateway, as `server_in` reads it. -/
structure FromClient (p : Pkt) (ts : Nat) (q : Pkt) : Prop where
  normal : Normal q
  low : Pkt.SameOn 26 46 p q
  flags : Pkt.SameOn 47 50 p q
  opts : ∀ i < 20, q.mem (54 + i) = (linuxBytes (p.tsval ts) (p.tsecr ts)).getD i 0

namespace FromClient

variable {p q : Pkt} {ts : Nat} (h : FromClient p ts q)

include h

theorem flag (i : Nat) : q.flag tcpAt i = p.flag tcpAt i :=
  h.flags.flag (by decide) (by decide) i

theorem frame : LinuxFrame (p.tsval ts) (p.tsecr ts) q :=
  ⟨h.normal.doff, Nat.le_of_eq h.normal.len.symm, h.opts⟩

theorem parse (hack : p.ack tcpAt = true) (hsyn : p.syn tcpAt = false) :
    server.parse_timestamp q (tcpAt + 20) tcpAt = some 6 :=
  h.frame.parse ((h.flag 4).trans hack) ((h.flag 1).trans hsyn)

/-- The frame takes the creating branch. -/
theorem view (hack : p.ack tcpAt = true) (hsyn : p.syn tcpAt = false) (hfin : p.fin tcpAt = false)
    (hstart : p.tsecr ts = TS_START) : inView q = .create tcpAt 60 := by
  have hdoff := h.normal.doff
  have hlen := h.normal.len
  rcases inView_plain h.normal.plain with ⟨-, -, hview⟩ | ⟨hshort, -⟩
  · rw [hview, server_in.viewTcp]
    rw [h.parse hack hsyn, Pkt.syn, Pkt.ack, Pkt.fin, h.flag, h.flag, h.flag]
    have hflag1 : p.flag tcpAt 1 = false := hsyn
    have hflag4 : p.flag tcpAt 4 = true := hack
    have hflag0 : p.flag tcpAt 0 = false := hfin
    have htsecr : q.tsecr (tcpAt + 20 + 6) = TS_START := h.frame.tsecr.trans hstart
    rw [hflag1, hflag4, hflag0, if_neg (by decide), if_pos (by decide)]
    dsimp only
    rw [htsecr, hdoff, hlen, if_neg (by decide), if_pos ⟨rfl, by decide, by decide⟩]
    rfl
  · refine absurd ⟨?_, ?_⟩ hshort
    · rw [hdoff]
      decide
    · rw [hdoff, hlen]
      decide

end FromClient

/-! ## The SYN for the server -/

/-- The SYN that the creating branch makes, before its checksum. -/
def createSyn (p : Pkt) (tcp ts : Nat) : Pkt :=
  let p := ((p.put16 (tcp + 14) (htons 64240)).clear_flag tcp 4).set_flag tcp 1
  ((p.put32 (tcp + 4) (htonl (ntohl (p.seq tcp) - 1))).put32 (tcp + 8) 0).put32 (ts + 6) 0

section

variable {K : Helpers} {s : Server} {p : Pkt} {tcp ts : Nat}

/-- The branch writes the SYN and a checksum. -/
theorem createBranch_syn (K : Helpers) (s : Server) (ts : Nat) (hlen : tcp + 16 ≤ p.len) :
    (server_in.createBranch K s p tcp ts).1 = .XDP_PASS ∧
      ∃ ck, (server_in.createBranch K s p tcp ts).2.2 =
        (createSyn p tcp ts).put16 (tcp + 16) ck := by
  unfold server_in.createBranch
  dsimp only
  rw [if_neg (by rw [Pkt.put_len]; omega)]
  exact ⟨rfl, _, rfl⟩

/-- What lies at `e` or behind of the echo of the timestamp option at `ts`. -/
def echoBehind (p : Pkt) (ts e : Nat) : Sum := sum p.mem (max (ts + 6) e) (ts + 10 - max (ts + 6) e)

theorem echoBehind_inside (p : Pkt) {ts e : Nat} (h : ts + 10 ≤ e) : echoBehind p ts e = 0 := by
  rw [echoBehind, Nat.sub_eq_zero_of_le (by omega)]
  exact Nat.cast_zero

theorem echoBehind_congr {p q : Pkt} (ts e : Nat)
    (h : ∀ i, ts + 6 ≤ i → i < ts + 10 → q.mem i = p.mem i) :
    echoBehind q ts e = echoBehind p ts e :=
  sum_congr fun i hi hlt => h i (by omega) (by omega)

/-- A cleared echo takes only that part off the sum which lies in the segment. -/
theorem tcpSum_clearEcho (p : Pkt) {tcp n ts : Nat} (htcp : 34 ≤ tcp) (hts : tcp ≤ ts)
    (heven : (ts - tcp) % 2 = 0) (hn : ts + 10 ≤ tcp + n ∨ n % 2 = 0) :
    tcpSum (p.put32 (ts + 6) 0) tcp n =
      tcpSum p tcp n - val (p.tsecr ts) + echoBehind p ts (tcp + n) := by
  have hpast : ∀ i, ts + 10 ≤ i ∨ i < ts + 6 → (p.put32 (ts + 6) 0).mem i = p.mem i := fun i hi =>
    store_out _ _ _ _ _ (by omega)
  rcases (by omega : ts + 10 ≤ tcp + n ∨ tcp + n ≤ ts + 6 ∨ tcp + n = ts + 8) with
    hin | hbehind | hcut
  · rw [tcpSum_put32 _ _ htcp (by omega) (by omega) (by omega), val_zero, echoBehind_inside p hin]
    rfl
  · have hmax : max (ts + 6) (tcp + n) = ts + 6 := Nat.max_eq_left hbehind
    have hlen : ts + 10 - (ts + 6) = 4 := by omega
    rw [tcpSum_congr htcp fun i _ hi => hpast i (by omega), echoBehind, hmax, hlen, Pkt.tsecr,
      val_load32]
    ring
  · -- Only the first half of the echo is in the segment.
    have hmax : max (ts + 6) (tcp + n) = ts + 6 + 2 := by omega
    have hlen : ts + 10 - (ts + 6 + 2) = 2 := by omega
    have hhalf : ∀ i, i < tcp + n → (p.put32 (ts + 6) 0).mem i = (p.put16 (ts + 6) 0).mem i := by
      intro i hi
      unfold Pkt.put32 Pkt.put16 Pkt.put store
      dsimp only
      by_cases h : ts + 6 ≤ i
      · rw [if_pos ⟨h, by omega⟩, if_pos ⟨h, by omega⟩]
        rfl
      · rw [if_neg (by omega), if_neg (by omega)]
    have hsplit : sum p.mem (ts + 6) 4 = sum p.mem (ts + 6) 2 + sum p.mem (ts + 6 + 2) 2 :=
      sum_append p.mem (ts + 6) 2 (by rfl : 2 % 2 = 0)
    rw [tcpSum_congr htcp fun i _ hi => hhalf i hi,
      tcpSum_put16 _ _ htcp (by omega) (by omega) (by omega), val_zero, echoBehind, hmax, hlen,
      Pkt.tsecr, val_load16, val_load32, hsplit]
    ring

/-- The sum behind the writes that a creating branch makes besides the flags: a
number, no acknowledged number, no echo and a checksum. -/
theorem tcpSum_synFields (q : Pkt) {n : Nat} (seq : U32) (check : U16) (htcp : 34 ≤ tcp)
    (hts : tcp + 20 ≤ ts) (heven : (ts - tcp) % 2 = 0) (hn : 20 ≤ n)
    (hn2 : ts + 10 ≤ tcp + n ∨ n % 2 = 0) :
    tcpSum ((((q.put32 (tcp + 4) seq).put32 (tcp + 8) 0).put32 (ts + 6) 0).put16 (tcp + 16) check)
      tcp n =
      tcpSum q tcp n - val (q.seq tcp) + val seq - val (q.ack_seq tcp) - val (q.tsecr ts) +
        echoBehind q ts (tcp + n) - val (q.tcp_check tcp) + val check := by
  have hbehind : echoBehind ((q.put32 (tcp + 4) seq).put32 (tcp + 8) 0) ts (tcp + n) =
      echoBehind q ts (tcp + n) := echoBehind_congr _ _ fun i hi _ =>
    (store_out _ _ _ _ _ (by omega)).trans (store_out _ _ _ _ _ (by omega))
  rw [tcpSum_put16 _ _ htcp (by omega) (by omega) (by omega),
    tcpSum_clearEcho _ htcp (by omega) heven hn2, hbehind,
    tcpSum_put32 _ _ htcp (by omega) (by omega) (by omega),
    tcpSum_put32 _ _ htcp (by omega) (by omega) (by omega)]
  unfold Pkt.seq Pkt.ack_seq Pkt.tcp_check Pkt.tsecr
  rw [Pkt.u16_put_ne _ _ _ _ _ (by omega), Pkt.u16_put_ne _ _ _ _ _ (by omega),
    Pkt.u16_put_ne _ _ _ _ _ (by omega)]
  rw [Pkt.u32_put_ne _ (ts + 6) _ _ _ (by omega), Pkt.u32_put_ne _ (ts + 6) _ _ _ (by omega),
    Pkt.u32_put_ne _ (tcp + 8) _ _ _ (by omega), val_zero]
  ring

/-- The differences that the branch takes are those of the fields that it
writes: the sum of the segment stays the same. -/
theorem tcpSum_createBranch (hK : CsumDiff K) {n : Nat} (hlen : tcp + 16 ≤ p.len) (htcp : 34 ≤ tcp)
    (hts : tcp + 20 ≤ ts) (heven : (ts - tcp) % 2 = 0) (hn : ts + 10 ≤ tcp + n) :
    tcpSum (server_in.createBranch K s p tcp ts).2.2 tcp n = tcpSum p tcp n := by
  unfold server_in.createBranch
  dsimp only
  rw [if_neg (by rw [Pkt.put_len]; omega)]
  dsimp only
  -- The frame with the new window, and then with the new flags.
  have hflags : ∀ i, i ≠ tcp + 13 →
      (((p.put16 (tcp + 14) (htons 64240)).clear_flag tcp 4).set_flag tcp 1).mem i =
        (p.put16 (tcp + 14) (htons 64240)).mem i := fun i hi =>
    (store_out _ _ _ _ _ (by omega)).trans (store_out _ _ _ _ _ (by omega))
  have hsum := tcpSum_flags (n := n) htcp (by omega) hflags
  rw [tcpSum_put16 p (htons 64240) htcp (by omega) (by omega) (by omega)] at hsum
  have hbefore : Pkt.SameOn 0 (tcp + 12) p
      (((p.put16 (tcp + 14) (htons 64240)).clear_flag tcp 4).set_flag tcp 1) :=
    (((Pkt.SameOn.refl _ _ _).put (by omega)).put (by omega)).put (by omega)
  have hbehind : Pkt.SameOn (tcp + 16) (ts + 10) p
      (((p.put16 (tcp + 14) (htons 64240)).clear_flag tcp 4).set_flag tcp 1) :=
    (((Pkt.SameOn.refl _ _ _).put (by omega)).put (by omega)).put (by omega)
  have hseq := hbefore.u32 (a := tcp + 4) (by omega) (by omega)
  have hack := hbefore.u32 (a := tcp + 8) (by omega) (by omega)
  have hcheck := hbehind.u16 (a := tcp + 16) (by omega) (by omega)
  have htsecr := hbehind.u32 (a := ts + 6) (by omega) (by omega)
  generalize ((p.put16 (tcp + 14) (htons 64240)).clear_flag tcp 4).set_flag tcp 1 = q
    at hsum hseq hack hcheck htsecr ⊢
  rw [tcpSum_synFields _ _ _ htcp hts heven (by omega) (.inl hn), hsum, echoBehind_inside _ hn]
  unfold Pkt.seq Pkt.ack_seq Pkt.tcp_check Pkt.window Pkt.tsecr
  rw [Pkt.u32_put_ne _ (tcp + 4) _ _ _ (by omega), Pkt.u32_put_ne _ (tcp + 4) _ _ _ (by omega),
    Pkt.u32_put_same, hseq, hack, hcheck, htsecr]
  rw [val_csum_fold_helper_64, hK.val_remove, hK.val_seed, hK.val_remove, hK.val_seed,
    hK.val_replace, hK.val_seed, hK.val_replace, hK.val_seed, hK.val_replace, val_seed_check,
    val_setWidth _ (by decide), val_setWidth _ (by decide)]
  ring

theorem createSyn_flag {i : Nat} (hi : i < 8) (hts : tcp + 20 ≤ ts) :
    (createSyn p tcp ts).flag tcp i = (p.flag tcp i && !decide (4 = i) || decide (1 = i)) := by
  unfold createSyn
  dsimp only
  rw [Pkt.flag_put_ne _ (by omega), Pkt.flag_put_ne _ (by omega), Pkt.flag_put_ne _ (by omega),
    Pkt.flag_set_flag _ _ _ _ hi, Pkt.flag_clear_flag _ _ _ _ hi, Pkt.flag_put_ne _ (by omega)]

theorem createSyn_seq (hts : tcp + 20 ≤ ts) :
    ntohl ((createSyn p tcp ts).seq tcp) = ntohl (p.seq tcp) - 1 := by
  have hold : (((p.put16 (tcp + 14) (htons 64240)).clear_flag tcp 4).set_flag tcp 1).seq tcp =
      p.seq tcp :=
    ((((Pkt.SameOn.refl 0 (tcp + 12) p).put (by omega)).put (by omega)).put (by omega)).u32
      (by omega) (by omega)
  unfold createSyn
  dsimp only
  rw [hold, Pkt.seq, Pkt.u32_put_ne _ _ _ _ _ (by omega), Pkt.u32_put_ne _ _ _ _ _ (by omega),
    Pkt.u32_put_same]
  exact bswap32_bswap32 _

theorem createSyn_ack_seq (hts : tcp + 20 ≤ ts) : (createSyn p tcp ts).ack_seq tcp = 0 := by
  unfold createSyn
  dsimp only
  rw [Pkt.ack_seq, Pkt.u32_put_ne _ _ _ _ _ (by omega), Pkt.u32_put_same]

theorem tcpLen_createSyn (htcp : 34 ≤ tcp) (hts : tcp + 20 ≤ ts) :
    tcpLen (createSyn p tcp ts) = tcpLen p := by
  unfold createSyn Pkt.clear_flag Pkt.set_flag
  dsimp only
  rw [tcpLen_put _ (by omega), tcpLen_put _ (by omega), tcpLen_put _ (by omega),
    tcpLen_put _ (by omega), tcpLen_put _ (by omega), tcpLen_put _ (by omega)]

theorem createSyn_tsval (hts : tcp + 20 ≤ ts) : (createSyn p tcp ts).tsval ts = p.tsval ts :=
  ((((((Pkt.SameOn.refl (ts + 2) (ts + 6) p).put (by omega)).put (by omega)).put (by omega)).put
    (by omega)).put (by omega)).put (by omega) |>.u32 (by omega) (by omega)

end

/-- The SYN that the server gets for the last ACK `p` of a handshake, with its
timestamp option at byte 60. -/
structure OpeningSyn (p : Pkt) (ts : Nat) (r : Pkt) : Prop where
  syn : r.syn tcpAt = true
  ack : r.ack tcpAt = false
  seq : ntohl (r.seq tcpAt) = ntohl (p.seq tcpAt) - 1
  ack_seq : r.ack_seq tcpAt = 0
  tsval : r.tsval 60 = p.tsval ts
  tsecr : r.tsecr 60 = 0
  tcp_ok : TcpOk r tcpAt

theorem FromClient.opens {p q : Pkt} {ts : Nat} (h : FromClient p ts q) {K : Helpers}
    (hK : CsumDiff K) (s : Server) :
    (server_in.createBranch K s q tcpAt 60).1 = .XDP_PASS ∧
      OpeningSyn p ts (server_in.createBranch K s q tcpAt 60).2.2 := by
  have hlen : tcpAt + 16 ≤ q.len := by
    rw [h.normal.len]
    decide
  obtain ⟨hpass, ck, hout⟩ := createBranch_syn K s 60 hlen
  have hseq : q.seq tcpAt = p.seq tcpAt := h.low.u32 (by decide) (by decide)
  have htcp : tcpLen q = 40 := by
    rw [tcpLen, h.normal.tot_len, h.normal.doff, h.normal.plain.ihl]
  have hsum :=
    tcpSum_createBranch (s := s) (n := 40) hK hlen (by decide) (by decide : tcpAt + 20 ≤ 60)
    (by decide) (by decide)
  have hsame : tcpLen (server_in.createBranch K s q tcpAt 60).2.2 = tcpLen q := by
    rw [hout, tcpLen_put _ (by decide)]
    exact tcpLen_createSyn (by decide) (by decide)
  refine ⟨hpass, ?_, ?_, ?_, ?_, ?_, ?_, ?_⟩
  · rw [hout, Pkt.syn, Pkt.flag_put_ne _ (by omega), createSyn_flag (by decide) (by decide)]
    exact Bool.or_true _
  · rw [hout, Pkt.ack, Pkt.flag_put_ne _ (by omega), createSyn_flag (by decide) (by decide)]
    simp
  · rw [hout, ← hseq]
    exact (congrArg ntohl (Pkt.u32_put_ne _ _ _ _ _ (by decide))).trans (createSyn_seq (by decide))
  · rw [hout]
    exact (Pkt.u32_put_ne _ _ _ _ _ (by decide)).trans (createSyn_ack_seq (by decide))
  · rw [hout, ← h.frame.tsval]
    exact (Pkt.u32_put_ne _ _ _ _ _ (by decide)).trans (createSyn_tsval (by decide))
  · rw [hout]
    exact (Pkt.u32_put_ne _ _ _ _ _ (by decide)).trans (Pkt.u32_put_same _ _ _)
  · rw [tcpOk_iff, hsame, htcp, hsum, ← htcp]
    exact (tcpOk_iff q tcpAt).mp h.normal.tcp_ok

/-! ## The two programs in a row -/

/-- The last ACK of a handshake with a client that the gateway knows: without
data and FIN, with the timestamp `TS_START` and the number for the SYN cookie. -/
structure LastAck (o : Options) (a : Agent) (p : Pkt) (w ts : Nat) : Prop extends NoData p where
  ip_ok : IpOk p
  doff : 8 ≤ p.doff tcpAt
  ack : p.ack tcpAt = true
  syn : p.syn tcpAt = false
  fin : p.fin tcpAt = false
  stamp : ackTs p = some ts
  start : p.tsecr ts = TS_START
  number : SynCheck o a p w
  known : bloom_filter_test a.bf (bytes32 p.saddr) = true

theorem LastAck.fromClient {o : Options} {a : Agent} {p : Pkt} {w ts : Nat} (h : LastAck o a p w ts)
    (hdrop : o.opt_drop = false) (hforward : o.opt_forward = false) (hab : o.opt_ab_test = true)
    (ha : LinuxOpts (a.sa_apache_opts w)) :
    (xsknf_packet_processor o a p 0 w).1 ≠ -1 ∧
      FromClient p ts (xsknf_packet_processor o a p 0 w).2.2 := by
  rw [processor_known hdrop hforward h.plain.inbound h.syn h.ack h.stamp h.start h.number h.known]
  dsimp only
  rw [apacheOpts_noData hab
    (show LinuxOpts ((recordFlow a p w).sa_apache_opts w) from ha) h.toNoData, normalised_eq]
  have hsame := forward_sameFrom (resummed p (linuxBytes (p.tsval ts) (p.tsecr ts)))
  refine ⟨forward_ne _, (normal_resummed h.toNoData h.ip_ok rfl).sameFrom hsame, ?_, ?_, ?_⟩
  · exact (resummed_sameOn (by omega)).trans fun i hi _ => hsame.mem i (by omega)
  · exact (resummed_sameOn (by omega)).trans fun i hi _ => hsame.mem i (by omega)
  · exact fun i hi => (hsame.mem _ (by omega)).trans (resummed_opts rfl hi)

/-- With `-c` the last ACK of a handshake reaches the server as a SYN: the frame
between the two programs and the SYN behind them have the right lengths and
checksums, and the entry has the cookie of the gateway and the number of the client. -/
theorem the_last_ack_opens_the_connection (o : Options) (salt : Nat → Fin 5 → U32)
    (fs : List (Pkt × Nat × Nat)) (a : Agent) (ha : run (agentStep o) (Agent.boot salt) fs = a)
    (K : Helpers) (hK : CsumDiff K) (rnd : U32 × U32) (s : Server) (p q : Pkt) (w ts : Nat)
    (hdrop : o.opt_drop = false) (hforward : o.opt_forward = false) (hab : o.opt_ab_test = true)
    (h : LastAck o a p w ts) (hroom : s.conntrack_map.HasRoom (inKey p tcpAt))
    (hq : (xsknf_packet_processor o a p 0 w).2.2 = q) :
    (xsknf_packet_processor o a p 0 w).1 ≠ -1 ∧ Normal q ∧ inView q = .create tcpAt 60 ∧
      (server_in.xdp_router K rnd s q).1 = .XDP_PASS ∧
      OpeningSyn p ts (server_in.xdp_router K rnd s q).2.2 ∧
      ∃ val, (server_in.xdp_router K rnd s q).2.1.conntrack_map.lookup (inKey p tcpAt) = some val ∧
        val.hash_cookie = synCookie o a p w ∧ val.delta = ntohl (p.ack_seq tcpAt) := by
  subst ha hq
  obtain ⟨hverdict, hclient⟩ := h.fromClient hdrop hforward hab (linuxOpts_run o salt fs w)
  generalize (xsknf_packet_processor o _ p 0 w).2.2 = q at hclient ⊢
  have hview := hclient.view h.ack h.syn h.fin h.start
  have hkey : inKey q tcpAt = inKey p tcpAt := by
    unfold inKey Pkt.saddr Pkt.daddr Pkt.source Pkt.dest
    rw [hclient.low.u32 (by decide) (by decide), hclient.low.u32 (by decide) (by decide),
      hclient.low.u16 (by decide) (by decide), hclient.low.u16 (by decide) (by decide)]
  have hnum : q.ack_seq tcpAt = p.ack_seq tcpAt := hclient.low.u32 (by decide) (by decide)
  obtain ⟨hpass, hopens⟩ := hclient.opens hK (server_in.initTables s)
  rw [server_in.xdp_router_eq, hview]
  refine ⟨hverdict, hclient.normal, rfl, hpass, hopens, server_in.createVal (p.ack_seq tcpAt), ?_,
    h.number, rfl⟩
  dsimp only [server_in.runView]
  rw [createBranch_server]
  dsimp only
  rw [initTables_conntrack, hkey, hnum, BoundedMap.lookup_putAny]
  simp [hroom]

/-- The ACK of the client with the checksum of its IP header. -/
def sealedAck : Pkt := provenAck.put16 24 0x9a66

def compareOptions : Options := { opt_ab_test := true }

/-- The gateway behind the first ACK of the client, which it reset. -/
def metAgent : Agent := run (agentStep compareOptions) plainAgent [(sealedAck, 0, 0)]

theorem sealedAck_checked {a : Agent} (hsalt : (a.flows 0).salt = (plainAgent.flows 0).salt) :
    SynCheck compareOptions a sealedAck 0 := by
  have hkey : inKey sealedAck tcpAt = inKey provenAck tcpAt := by decide
  have hnum : sealedAck.ack_seq tcpAt = provenAck.ack_seq tcpAt := by decide
  have hcheck := provenAck_checked
  unfold SynCheck at hcheck ⊢
  rw [hnum, hcheck, synCookie_flow, synCookie_flow, hkey, hsalt]
  rfl

theorem sealedAck_last : LastAck compareOptions metAgent sealedAck 0 56 := by
  have hts : ackTs sealedAck = some 56 := by decide
  have hlearn := effect_learn (o := compareOptions) (a := plainAgent) (w := 0) rfl rfl (by decide)
    (by decide) (by decide) hts (by decide) (sealedAck_checked rfl) (by decide)
  refine ⟨⟨⟨by decide, by decide, by decide⟩, by decide, by decide⟩, ?_, by decide, by decide,
    by decide, by decide, hts, by decide, ?_, ?_⟩
  · unfold IpOk
    decide
  · refine sealedAck_checked ?_
    rw [metAgent, agentRun_salt]
  · rw [metAgent, run_cons, run_nil, agentStep]
    dsimp only
    exact (learned (Nat.succ_pos 3145727) hlearn).1

/-- The ACK of the client becomes the SYN for the server. -/
theorem the_ack_of_the_client_opens_its_connection :
    OpeningSyn sealedAck 56 (server_in.xdp_router kernelHelpers (0, 0) Server.boot
      (xsknf_packet_processor compareOptions metAgent sealedAck 0 0).2.2).2.2 :=
  (the_last_ack_opens_the_connection compareOptions (fun _ _ => 0) [(sealedAck, 0, 0)] metAgent rfl
    kernelHelpers csumDiff_kernel (0, 0) Server.boot sealedAck _ 0 56 rfl rfl rfl sealedAck_last
    (.inr (by decide)) rfl).2.2.2.2.1

end edge_cookie
