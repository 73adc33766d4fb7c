-- The first ACK of a flow, which smartcookie hands to its server as a SYN. The
-- tag is left out of the checksum when the gateway sets it and when `server_in`
-- clears it. But a rewritten ACK gets a full checksum while it has the tag.
import EdgeCookie.Normalise
import EdgeCookie.SmartTag

namespace edge_cookie.smartcookie

open bytes headers ones_sum runs
open switch_agent (LinuxOpts linuxBytes tcpAt client_ip server_ip)
open server (Helpers CsumDiff inKey val_csum_fold_helper_64 val_seed_check)

/-! ## The tag in the sum of a segment -/

theorem toNat_set_ece {b : U8} (h : b.getLsbD 6 = false) :
    (b ||| (1#8 <<< 6)).toNat = b.toNat + 64 := by
  revert b
  decide

theorem toNat_clear_ece {b : U8} (h : b.getLsbD 6 = true) :
    (b &&& ~~~(1#8 <<< 6)).toNat + 64 = b.toNat := by
  revert b
  decide

section

variable {p q : Pkt} {tcp n : Nat}

theorem tcpSum_flagByte (htcp : 34 ≤ tcp) (hn : 14 ≤ n)
    (h : ∀ i, i ≠ tcp + 13 → q.mem i = p.mem i) :
    tcpSum q tcp n =
      tcpSum p tcp n - 256 * ((p.mem (tcp + 13)).toNat : Sum) +
        256 * ((q.mem (tcp + 13)).toNat : Sum) := by
  have hword : ∀ m : Mem, sum m (tcp + 12) 2 =
      ((m (tcp + 12)).toNat : Sum) + 256 * ((m (tcp + 13)).toNat : Sum) := by
    intro m
    unfold sum load load load
    push_cast
    ring
  rw [tcpSum_flagBytes htcp (Nat.le_refl 2) hn h, hword, hword, h (tcp + 12) (by omega)]
  ring

theorem tcpSum_set_ece (htcp : 34 ≤ tcp) (hn : 14 ≤ n) (h : p.ece tcp = false) :
    tcpSum (p.set_flag tcp 6) tcp n = tcpSum p tcp n + 16384 := by
  have hbyte : ((p.set_flag tcp 6).mem (tcp + 13)).toNat = (p.mem (tcp + 13)).toNat + 64 :=
    (congrArg BitVec.toNat (Pkt.u8_put_same p (tcp + 13) _)).trans (toNat_set_ece h)
  rw [tcpSum_flagByte htcp hn fun i hi => store_out _ _ _ _ _ (by omega), hbyte]
  push_cast
  ring

theorem tcpSum_clear_ece (htcp : 34 ≤ tcp) (hn : 14 ≤ n) (h : p.ece tcp = true) :
    tcpSum (p.clear_flag tcp 6) tcp n = tcpSum p tcp n - 16384 := by
  have hbyte : ((p.clear_flag tcp 6).mem (tcp + 13)).toNat + 64 = (p.mem (tcp + 13)).toNat :=
    (congrArg (BitVec.toNat · + 64) (Pkt.u8_put_same p (tcp + 13) _)).trans (toNat_clear_ece h)
  rw [tcpSum_flagByte htcp hn fun i hi => store_out _ _ _ _ _ (by omega), ← hbyte]
  push_cast
  ring

end

/-! ## The SYN of `server_in` -/

section

variable {K : Helpers} {m : Conntrack} {p : Pkt} {tcp ts : Nat}

theorem tcpLen_create (htcp : 34 ≤ tcp) (hts : tcp + 20 ≤ ts) :
    tcpLen (server_in.create K m p tcp (some ts)).2.2 = tcpLen p := by
  unfold server_in.create server_in.clearEcho Pkt.clear_flag Pkt.set_flag
  dsimp only
  split
  · rfl
  · rw [tcpLen_put _ (by omega), tcpLen_put _ (by omega), tcpLen_put _ (by omega),
      tcpLen_put _ (by omega), tcpLen_put _ (by omega), tcpLen_put _ (by omega),
      tcpLen_put _ (by omega)]

/-- The differences that the branch takes are those of the fields that it writes,
without the tag and with an echo behind the segment. -/
theorem tcpSum_create (hK : CsumDiff K) {n : Nat} (hlen : tcp + 16 ≤ p.len) (htcp : 34 ≤ tcp)
    (hts : tcp + 20 ≤ ts) (heven : (ts - tcp) % 2 = 0) (hn : 20 ≤ n) (hn2 : n % 2 = 0)
    (hece : p.ece tcp = true) :
    tcpSum (server_in.create K m p tcp (some ts)).2.2 tcp n =
      tcpSum p tcp n - 16384 + echoBehind p ts (tcp + n) := by
  unfold server_in.create
  dsimp only
  rw [if_neg (by omega)]
  unfold server_in.clearEcho
  dsimp only
  -- The frame with the flags of a SYN, and then without the tag.
  have hflags : ∀ i, i ≠ tcp + 13 → ((p.clear_flag tcp 4).set_flag tcp 1).mem i = p.mem i :=
    fun i hi => (store_out _ _ _ _ _ (by omega)).trans (store_out _ _ _ _ _ (by omega))
  have htag : ((p.clear_flag tcp 4).set_flag tcp 1).ece tcp = true := by
    unfold Pkt.ece
    rw [Pkt.flag_set_flag _ _ _ _ (by decide), Pkt.flag_clear_flag _ _ _ _ (by decide)]
    have hece : p.flag tcp 6 = true := hece
    rw [hece]
    rfl
  have hsum := tcpSum_clear_ece htcp (by omega : 14 ≤ n) htag
  rw [tcpSum_flags htcp (by omega) hflags] at hsum
  have hkeep : ∀ lo hi, hi ≤ tcp + 13 ∨ tcp + 14 ≤ lo →
      Pkt.SameOn lo hi p (((p.clear_flag tcp 4).set_flag tcp 1).clear_flag tcp 6) := fun lo hi h =>
    (((Pkt.SameOn.refl _ _ _).put (by omega)).put (by omega)).put (by omega)
  have hseq := (hkeep 0 (tcp + 12) (by omega)).u32 (a := tcp + 4) (by omega) (by omega)
  have hack := (hkeep 0 (tcp + 12) (by omega)).u32 (a := tcp + 8) (by omega) (by omega)
  have hcheck := (hkeep (tcp + 16) (ts + 10) (by omega)).u16 (a := tcp + 16) (by omega) (by omega)
  have htsecr := (hkeep (tcp + 16) (ts + 10) (by omega)).u32 (a := ts + 6) (by omega) (by omega)
  have hbehind := echoBehind_congr ts (tcp + n) (hkeep (ts + 6) (ts + 10) (by omega))
  generalize ((p.clear_flag tcp 4).set_flag tcp 1).u32 (tcp + 12) = word at hsum ⊢
  generalize ((p.clear_flag tcp 4).set_flag tcp 1).clear_flag tcp 6 = q
    at hsum hseq hack hcheck htsecr hbehind ⊢
  rw [tcpSum_synFields _ _ _ htcp hts heven hn (.inr hn2), hsum, hbehind]
  unfold Pkt.seq Pkt.ack_seq Pkt.tcp_check Pkt.tsecr
  rw [Pkt.u32_put_ne _ (ts + 6) _ _ _ (by omega), Pkt.u32_put_ne _ (ts + 6) _ _ _ (by omega),
    Pkt.u32_put_ne _ (tcp + 4) _ _ _ (by omega), Pkt.u32_put_same, hseq, hack, hcheck, htsecr]
  rw [val_csum_fold_helper_64, hK.val_remove, hK.val_seed, hK.val_remove, hK.val_seed,
    hK.val_replace, hK.val_seed, hK.val_replace, val_seed_check]
  ring

end

/-! ## The options of the agent -/

section

variable {o : Options} {a : Agent} {p : Pkt} {w : Nat} {ts : Option Nat} {r : Int × Agent × Pkt}

theorem linuxOpts_forwardAck (h : forwardAck o a p w ts = some r)
    (ha : ∀ i, LinuxOpts (a.sa_apache_opts i)) (i : Nat) : LinuxOpts (r.2.1.sa_apache_opts i) := by
  cases ts with
  | none =>
    unfold forwardAck at h
    dsimp only at h
    split at h
    · cases h
    · rw [← Option.some.inj h]
      exact ha i
  | some ts =>
    rw [forwardAck_some] at h
    rw [← Option.some.inj h]
    unfold rewriteAck apacheOpts
    dsimp only
    split
    · dsimp only
      split
      · exact (ha w).stamped _ _
      · exact ha i
    · exact ha i

theorem linuxOpts_inboundAck (h : inboundAck o a p w ts = some r)
    (ha : ∀ i, LinuxOpts (a.sa_apache_opts i)) (i : Nat) : LinuxOpts (r.2.1.sa_apache_opts i) := by
  unfold inboundAck at h
  dsimp only at h
  split at h
  · exact linuxOpts_forwardAck h ha i
  · split at h
    · rw [← Option.some.inj h]
      exact ha i
    · exact linuxOpts_forwardAck h (fun j => ha j) i

theorem linuxOpts_agentStep {b : Agent} {f : Pkt × Nat × Nat} (h : agentStep o a f = some b)
    (ha : ∀ i, LinuxOpts (a.sa_apache_opts i)) (i : Nat) : LinuxOpts (b.sa_apache_opts i) := by
  unfold agentStep at h
  obtain ⟨r, hr, rfl⟩ := Option.map_eq_some_iff.mp h
  rcases processor_cases hr with h | h | ⟨ts, h⟩ | ⟨ts, h⟩ | ⟨ts, h⟩
  · rw [h]
    exact ha i
  · rw [h]
    exact ha i
  · obtain ⟨s, hs⟩ := inboundSyn_agent h
    rw [hs]
    exact ha i
  · exact linuxOpts_inboundAck h ha i
  · rw [← h]
    unfold outbound
    dsimp only
    split
    · exact ha i
    · exact ha i

theorem linuxOpts_boot (rands : List (U32 × U32 × U32)) (i : Nat) :
    LinuxOpts ((add_bf .boot rands).sa_apache_opts i) := ⟨rfl, rfl, rfl, rfl, rfl, rfl⟩

/-- Each worker has the options of a Linux SYN, whatever the frames were. -/
theorem linuxOpts_runM {rands : List (U32 × U32 × U32)} {fs : List (Pkt × Nat × Nat)}
    (h : runM (agentStep o) (add_bf .boot rands) fs = some a) (i : Nat) :
    LinuxOpts (a.sa_apache_opts i) :=
  runM_invariant (fun b : Agent => ∀ i, LinuxOpts (b.sa_apache_opts i))
    (fun _ _ _ hstep hb => linuxOpts_agentStep hstep hb) h (linuxOpts_boot rands) i

/-- With the options of a Linux SYN, the rewritten ACK is the one of htscookie. -/
theorem apacheOpts_normalised (ha : LinuxOpts (a.sa_apache_opts w)) (ts : Nat) :
    (apacheOpts a p w ts).2 = normalised p ts := by
  have hbytes := (ha.stamped (p.tsval ts) (p.tsecr ts)).bytes
  unfold apacheOpts normalised resummed
  dsimp only
  rw [hbytes]

end

/-! ## The two programs in a row -/

/-- The first ACK of a flow, with the number for its SYN cookie: without IP
options, without data and without ECE, with a right checksum, and with the
timestamp option at an even place. -/
structure FirstAck (a : Agent) (p : Pkt) (ts : Nat) : Prop where
  plain : PlainTcp p
  tot_len : (ntohs p.tot_len).toNat = 20 + p.doff tcpAt * 4
  tcp_ok : TcpOk p tcpAt
  ack : p.ack tcpAt = true
  syn : p.syn tcpAt = false
  ece : p.ece tcpAt = false
  stamp : stamp p = some (some ts)
  even : (ts - tcpAt) % 2 = 0
  new : bloom_filter_test a.bf (flowKey p) = false
  number : synCheck p = true

/-- An ACK with ECE that `server_in` hands on has gone through its creating branch. -/
theorem passed_create {K : Helpers} {m : Conntrack} {q : Pkt} (hq : PlainTcp q)
    (hack : q.ack tcpAt = true) (hsyn : q.syn tcpAt = false) (hece : q.ece tcpAt = true)
    (hdoff : 32 ≤ q.doff tcpAt * 4) (hpass : (server_in.xdp_router K m q).1 = .XDP_PASS) :
    tcpAt + q.doff tcpAt * 4 ≤ q.len ∧ ∃ off, server.parse_timestamp q (tcpAt + 20) tcpAt =
      some off ∧
      server_in.xdp_router K m q = server_in.create K m q tcpAt (some (tcpAt + 20 + off)) := by
  have hfits : 20 ≤ q.doff tcpAt * 4 ∧ tcpAt + q.doff tcpAt * 4 ≤ q.len := by
    by_contra hnot
    unfold server_in.xdp_router at hpass
    rw [parseHeaders_plain hq, if_neg hnot] at hpass
    cases hpass
  have hparse : server.parseHeaders q = .tcp tcpAt (q.doff tcpAt * 4) := by
    rw [parseHeaders_plain hq, if_pos hfits]
  refine ⟨hfits.2, ?_⟩
  cases hoff : server.parse_timestamp q (tcpAt + 20) tcpAt with
  | none =>
    have hstamp : server_in.stamp q tcpAt (q.doff tcpAt * 4) = none := by
      unfold server_in.stamp
      rw [if_pos hdoff, hoff]
    unfold server_in.xdp_router at hpass
    rw [hparse] at hpass
    dsimp only at hpass
    rw [hstamp] at hpass
    cases hpass
  | some off =>
    have hstamp : server_in.stamp q tcpAt (q.doff tcpAt * 4) = some (some (tcpAt + 20 + off)) := by
      unfold server_in.stamp
      rw [if_pos hdoff, hoff]
      exact if_neg (Nat.not_lt.mpr hfits.2)
    exact ⟨off, rfl, server_in.AckSeen.tagged ⟨⟨_, hparse, hstamp⟩, hack, hsyn⟩ hece⟩

/-- The gateway sends the ACK `y` on, up to the MAC addresses, and `server_in`
hands a SYN on. Its sum is that of `y` without the tag. -/
theorem passed_sum {K : Helpers} (hK : CsumDiff K) {m : Conntrack} {y : Pkt} (hy : PlainTcp y)
    (hack : y.ack tcpAt = true) (hsyn : y.syn tcpAt = false) (hece : y.ece tcpAt = true)
    (hdoff : 32 ≤ y.doff tcpAt * 4)
    (hpass : (server_in.xdp_router K m (forward y).2).1 = .XDP_PASS) :
    tcpAt + y.doff tcpAt * 4 ≤ y.len ∧ ∃ off, server.parse_timestamp y (tcpAt + 20) tcpAt =
      some off ∧
      (20 ≤ tcpLen y → tcpLen y % 2 = 0 → off % 2 = 0 →
        (TcpOk (server_in.xdp_router K m (forward y).2).2.2 tcpAt ↔
          tcpSum y tcpAt (tcpLen y) - 16384 + echoBehind y (tcpAt + 20 + off) (tcpAt + tcpLen y) =
            0)) := by
  have hsame := forward_sameFrom y
  have hplain : PlainTcp (forward y).2 :=
    hy.of_same (fun i hi _ => hsame.mem i hi) (fun i hi _ => hsame.mem i (by omega))
  have hdoff' : (forward y).2.doff tcpAt = y.doff tcpAt := hsame.doff (by decide)
  have hece' : (forward y).2.ece tcpAt = true := (forward_flag y 6).trans hece
  obtain ⟨hfits, off, hoff, hrouter⟩ := passed_create hplain ((forward_flag y 4).trans hack)
    ((forward_flag y 1).trans hsyn) hece' (by rw [hdoff']; exact hdoff) hpass
  rw [hdoff', hsame.len] at hfits
  rw [server.parse_timestamp_same hsame (by decide)] at hoff
  refine ⟨hfits, off, hoff, fun hn hn2 heven => ?_⟩
  have hsum : tcpSum (forward y).2 tcpAt (tcpLen y) = tcpSum y tcpAt (tcpLen y) :=
    tcpSum_congr (by decide) fun i hi _ => hsame.mem i (by omega)
  have hbehind := echoBehind_congr (tcpAt + 20 + off) (tcpAt + tcpLen y)
    fun i hi _ => hsame.mem i (by omega)
  have hlen : tcpAt + 16 ≤ (forward y).2.len := by
    rw [hsame.len]
    omega
  rw [hrouter, tcpOk_iff, tcpLen_create (by decide) (by omega), tcpLen_sameFrom hsame,
    tcpSum_create hK hlen (by decide) (by omega) (by omega) hn hn2 hece', hsum, hbehind]

/-! ## The ACK with the tag -/

theorem tagged_flag (p : Pkt) {i : Nat} (hi : i < 8) :
    (p.set_flag tcpAt 6).flag tcpAt i = (p.flag tcpAt i || decide (6 = i)) :=
  Pkt.flag_set_flag p tcpAt 6 i hi

theorem tagged_sameOn (p : Pkt) {lo hi : Nat} (h : hi ≤ 47 ∨ 48 ≤ lo) :
    Pkt.SameOn lo hi p (p.set_flag tcpAt 6) := (Pkt.SameOn.refl _ _ _).put h

theorem tagged_ece (p : Pkt) : (p.set_flag tcpAt 6).ece tcpAt = true :=
  (tagged_flag p (by decide)).trans (Bool.or_true _)

theorem tagged_doff (p : Pkt) : (p.set_flag tcpAt 6).doff tcpAt = p.doff tcpAt := by
  have hsame : Pkt.SameOn 46 47 p (p.set_flag tcpAt 6) := tagged_sameOn p (.inl (by decide))
  exact hsame.doff (by decide) (by decide)

namespace FirstAck

variable {a : Agent} {p : Pkt} {ts : Nat} (h : FirstAck a p ts)

include h

theorem isTcp : IsTcp p := by
  refine ⟨?_, h.plain.tcp⟩
  rw [h.plain.proto]
  exact bswap16_bswap16 _

theorem tagged_ack : (p.set_flag tcpAt 6).ack tcpAt = true := by
  rw [Pkt.ack, tagged_flag p (by decide)]
  exact (Bool.or_false _).trans h.ack

theorem tagged_syn : (p.set_flag tcpAt 6).syn tcpAt = false := by
  rw [Pkt.syn, tagged_flag p (by decide)]
  exact (Bool.or_false _).trans h.syn

theorem tagged_plain : PlainTcp (p.set_flag tcpAt 6) :=
  h.plain.of_same (tagged_sameOn p (.inl (by decide))) (tagged_sameOn p (.inl (by decide)))

theorem tagged_tot_len : (ntohs (p.set_flag tcpAt 6).tot_len).toNat =
    20 + (p.set_flag tcpAt 6).doff tcpAt * 4 := by
  have hsame : Pkt.SameOn 16 18 p (p.set_flag tcpAt 6) := tagged_sameOn p (.inl (by decide))
  have htot : (p.set_flag tcpAt 6).tot_len = p.tot_len := hsame.u16 (by decide) (by decide)
  rw [tagged_doff, htot, h.tot_len]

theorem doff_ge : 8 ≤ p.doff tcpAt := (stamp_found h.stamp).1

theorem tcpLen_eq : tcpLen p = p.doff tcpAt * 4 := by
  rw [tcpLen, h.tot_len, h.plain.ihl]
  omega

/-- The tag is the only thing that the checksum of the ACK does not know of. -/
theorem tagged_sum : tcpLen (p.set_flag tcpAt 6) = tcpLen p ∧
    tcpSum (p.set_flag tcpAt 6) tcpAt (tcpLen p) = 16384 := by
  have hdoff := h.doff_ge
  refine ⟨tcpLen_put p (by decide), ?_⟩
  rw [tcpSum_set_ece (by decide) (by rw [h.tcpLen_eq]; omega) h.ece,
    (tcpOk_iff p tcpAt).mp h.tcp_ok, zero_add]

/-- What the gateway sends on. -/
theorem processor {o : Options} {w : Nat} (hdrop : o.opt_drop = false)
    (hforward : o.opt_forward = false) (hab : o.opt_ab_test = true)
    (ha : LinuxOpts (a.sa_apache_opts w)) {r : Int × Agent × Pkt}
    (hr : xsknf_packet_processor o a p 0 w = some r) :
    r.2.2 =
      (forward (if p.tsecr ts = 1 ∧ psh p tcpAt = false then normalised (p.set_flag tcpAt 6) ts
        else p.set_flag tcpAt 6)).2 := by
  have hts := stamp_ge h.stamp
  have hsame : Pkt.SameOn (ts + 6) (ts + 10) p (p.set_flag tcpAt 6) :=
    tagged_sameOn p (.inr (by omega))
  have htsecr : (p.set_flag tcpAt 6).tsecr ts = p.tsecr ts := hsame.u32 (by omega) (by omega)
  have hpsh : psh (p.set_flag tcpAt 6) tcpAt = psh p tcpAt :=
    (tagged_flag p (by decide)).trans (Bool.or_false _)
  rw [processor_ack hdrop hforward h.isTcp h.stamp h.ack h.syn, inboundAck_checked h.new h.number,
    forwardAck_some] at hr
  rw [← Option.some.inj hr]
  refine congrArg (fun y => (forward y).2) ?_
  unfold rewriteAck
  rw [hab, htsecr, hpsh]
  by_cases hrewrite : p.tsecr ts = 1 ∧ psh p tcpAt = false
  · rw [if_pos hrewrite, if_pos (by simp [hrewrite])]
    exact apacheOpts_normalised ha ts
  · rw [if_neg hrewrite, if_neg (by simpa using hrewrite)]

/-- The full checksum of the rewritten ACK covers the tag, which the SYN has not. -/
theorem rewritten_not_ok {K : Helpers} (hK : CsumDiff K) {m : Conntrack}
    (hpass : (server_in.xdp_router K m (forward (normalised (p.set_flag tcpAt 6) ts)).2).1 =
      .XDP_PASS) :
    ¬ TcpOk
    (server_in.xdp_router K m (forward (normalised (p.set_flag tcpAt 6) ts)).2).2.2 tcpAt := by
  rw [normalised_eq] at hpass ⊢
  obtain ⟨y, hy⟩ : ∃ y, y = resummed (p.set_flag tcpAt 6)
    (linuxBytes ((p.set_flag tcpAt 6).tsval ts) ((p.set_flag tcpAt 6).tsecr ts)) := ⟨_, rfl⟩
  obtain ⟨hok, hlen⟩ : TcpOk y tcpAt ∧ tcpLen y = 40 := by
    rw [hy]
    exact tcpOk_resummed h.tagged_tot_len h.tagged_plain.ihl rfl
  have hkeep : Pkt.SameOn 47 48 (p.set_flag tcpAt 6) y := by
    rw [hy]
    exact resummed_sameOn (by decide)
  have hflag : ∀ i, y.flag tcpAt i = (p.set_flag tcpAt 6).flag tcpAt i :=
    hkeep.flag (by decide) (by decide)
  have hplain : PlainTcp y := by
    rw [hy]
    exact h.tagged_plain.of_same (resummed_sameOn (by decide)) (resummed_sameOn (by decide))
  have hopts : ∀ i < 20, y.mem (54 + i) =
      (linuxBytes ((p.set_flag tcpAt 6).tsval ts) ((p.set_flag tcpAt 6).tsecr ts)).getD i 0 := by
    rw [hy]
    exact fun i hi => resummed_opts rfl hi
  have hdoff : y.doff tcpAt = 10 := by
    rw [hy]
    exact resummed_doff rfl
  rw [← hy] at hpass ⊢
  have hack := (hflag 4).trans h.tagged_ack
  have hsyn := (hflag 1).trans h.tagged_syn
  obtain ⟨hfits, off, hoff, hsum⟩ := passed_sum hK hplain hack hsyn ((hflag 6).trans (tagged_ece p))
    (by rw [hdoff]; decide) hpass
  rw [hdoff] at hfits
  have hframe : LinuxFrame _ _ y := ⟨hdoff, hfits, hopts⟩
  obtain rfl : 6 = off := Option.some.inj ((hframe.parse hack hsyn).symm.trans hoff)
  rw [hsum (by rw [hlen]; decide) (by rw [hlen]) rfl, (tcpOk_iff y tcpAt).mp hok, hlen,
    echoBehind_inside y (by decide)]
  decide

/-- Both programs leave the tag out of their sums. But `server_in` takes the whole
echo off the checksum, also what lies of it behind the header. -/
theorem kept_ok_iff {K : Helpers} (hK : CsumDiff K) {m : Conntrack}
    (hpass : (server_in.xdp_router K m (forward (p.set_flag tcpAt 6)).2).1 = .XDP_PASS) :
    TcpOk (server_in.xdp_router K m (forward (p.set_flag tcpAt 6)).2).2.2 tcpAt ↔
      echoBehind p ts (tcpAt + p.doff tcpAt * 4) = 0 := by
  have hdoff := h.doff_ge
  obtain ⟨hlen, hsum⟩ := h.tagged_sum
  obtain ⟨-, off, hoff, hiff⟩ :=
    passed_sum hK h.tagged_plain h.tagged_ack h.tagged_syn (tagged_ece p)
    (by rw [tagged_doff]; omega) hpass
  -- The two parsers agree on where the option is.
  obtain ⟨-, off', hoff', hts⟩ := stamp_found h.stamp
  have hsame : Pkt.SameFrom (tcpAt + 20) p (p.set_flag tcpAt 6) :=
    ⟨rfl, fun i hi => store_out _ _ _ _ _ (.inr (Nat.le_trans (by decide) hi))⟩
  rw [server.parse_timestamp_opts hsame (tagged_doff p) (h.tagged_syn.trans h.syn.symm)
    (h.tagged_ack.trans h.ack.symm)] at hoff
  obtain rfl := parse_timestamp_agrees h.ack h.syn hoff' hoff
  have heven := h.even
  have hlen' := h.tcpLen_eq
  rw [hts] at heven ⊢
  have hbehind := echoBehind_congr (tcpAt + 20 + off) (tcpAt + p.doff tcpAt * 4)
    fun i hi _ => hsame.mem i (by omega)
  rw [hiff (by omega) (by omega) (by omega), hlen, hsum, hlen', hbehind, sub_self, zero_add]

end FirstAck

/-- The SYN that the server gets for the first ACK of a flow has a right
checksum, just when the ACK is not rewritten (it does not echo 1, or has PSH) and
nothing of its echo lies behind its header, or only what adds 0 to a sum. -/
theorem the_injected_syn_is_valid_iff (o : Options) (rands : List (U32 × U32 × U32))
    (fs : List (Pkt × Nat × Nat)) (a : Agent)
    (ha : runM (agentStep o) (add_bf .boot rands) fs = some a) (K : Helpers) (hK : CsumDiff K)
    (m : Conntrack) (p : Pkt) (w ts : Nat) (r : Int × Agent × Pkt) (hdrop : o.opt_drop = false)
    (hforward : o.opt_forward = false) (hab : o.opt_ab_test = true) (h : FirstAck a p ts)
    (hr : xsknf_packet_processor o a p 0 w = some r)
    (hpass : (server_in.xdp_router K m r.2.2).1 = .XDP_PASS) :
    TcpOk (server_in.xdp_router K m r.2.2).2.2 tcpAt ↔
      ¬ (p.tsecr ts = 1 ∧ psh p tcpAt = false) ∧
      echoBehind p ts (tcpAt + p.doff tcpAt * 4) = 0 := by
  rw [h.processor hdrop hforward hab (linuxOpts_runM ha w) hr] at hpass ⊢
  by_cases hrewrite : p.tsecr ts = 1 ∧ psh p tcpAt = false
  · rw [if_pos hrewrite] at hpass ⊢
    exact iff_of_false (h.rewritten_not_ok hK hpass) fun hkept => hkept.1 hrewrite
  · rw [if_neg hrewrite] at hpass ⊢
    rw [h.kept_ok_iff hK hpass, and_iff_right hrewrite]

/-- The ACK of a client for its SYN cookie, with its echo and its checksum. -/
def echoingAck (tsecr : U32) (check : U16) : Pkt :=
  (Pkt.segment client_ip server_ip 7 80 0 2690342156 0x10 5 tsecr).put16 50 check

theorem firstAck_six : FirstAck .boot (echoingAck 6 38296) 56 :=
  ⟨⟨by decide, by decide, by decide⟩, by decide, by unfold TcpOk; decide, by decide, by decide,
    by decide, by decide, by decide, by decide, by decide⟩

theorem firstAck_one : FirstAck .boot (echoingAck 1 38301) 56 :=
  ⟨⟨by decide, by decide, by decide⟩, by decide, by unfold TcpOk; decide, by decide, by decide,
    by decide, by decide, by decide, by decide, by decide⟩

theorem FirstAck.sent {a : Agent} {p : Pkt} {ts : Nat} (h : FirstAck a p ts) (w : Nat) :
    ∃ r, xsknf_packet_processor {} a p 0 w = some r := by
  obtain ⟨r, hr, -⟩ := processor_passes (o := {}) (w := w) rfl rfl ⟨h.isTcp, h.ack, h.syn, h.stamp⟩
    (.inr h.number)
  exact ⟨r, hr⟩

theorem create_pass (K : Helpers) (m : Conntrack) (p : Pkt) (tcp : Nat) (ts : Option Nat)
    (hlen : tcp + 16 ≤ p.len) : (server_in.create K m p tcp ts).1 = .XDP_PASS := by
  unfold server_in.create
  dsimp only
  rw [if_neg (by omega)]

/-- The echo is 6, and the gateway only sets the tag. -/
theorem the_syn_of_a_kept_ack_is_valid :
    ∃ r, xsknf_packet_processor {} .boot (echoingAck 6 38296) 0 0 = some r ∧
      (server_in.xdp_router server.kernelHelpers .empty r.2.2).1 = .XDP_PASS ∧
      TcpOk (server_in.xdp_router server.kernelHelpers .empty r.2.2).2.2 tcpAt := by
  obtain ⟨r, hr⟩ := firstAck_six.sent 0
  have hseen : server_in.AckSeen (forward ((echoingAck 6 38296).set_flag tcpAt 6)).2
      tcpAt (some 56) :=
    ⟨⟨32, by decide, by decide⟩, by decide, by decide⟩
  have hpass : (server_in.xdp_router server.kernelHelpers .empty r.2.2).1 = .XDP_PASS := by
    rw [firstAck_six.processor rfl rfl rfl (linuxOpts_boot [] 0) hr, if_neg (by decide),
      hseen.tagged (by decide)]
    exact create_pass _ _ _ _ _ (by decide)
  exact ⟨r, hr, hpass, (the_injected_syn_is_valid_iff {} [] [] .boot rfl server.kernelHelpers
    server.csumDiff_kernel .empty _ 0 56 r rfl rfl rfl firstAck_six hr hpass).mpr
      ⟨by decide, echoBehind_inside _ (by decide)⟩⟩

/-- The echo is 1: the gateway rewrites the ACK, and the checksum of the SYN is wrong. -/
theorem the_syn_of_a_rewritten_ack_is_not_valid :
    TcpOk (echoingAck 1 38301) tcpAt ∧
      ∃ r, xsknf_packet_processor {} .boot (echoingAck 1 38301) 0 0 = some r ∧
        (server_in.xdp_router server.kernelHelpers .empty r.2.2).1 = .XDP_PASS ∧
        ¬ TcpOk (server_in.xdp_router server.kernelHelpers .empty r.2.2).2.2 tcpAt := by
  obtain ⟨r, hr⟩ := firstAck_one.sent 0
  have hframe := firstAck_one.processor rfl rfl rfl (linuxOpts_boot [] 0) hr
  rw [if_pos (by decide)] at hframe
  have hseen :
      server_in.AckSeen (forward (normalised ((echoingAck 1 38301).set_flag tcpAt 6) 56)).2 tcpAt
      (some 60) := ⟨⟨40, by decide, by decide⟩, by decide, by decide⟩
  have hpass : (server_in.xdp_router server.kernelHelpers .empty r.2.2).1 = .XDP_PASS := by
    rw [hframe, hseen.tagged (by decide)]
    exact create_pass _ _ _ _ _ (by decide)
  refine ⟨firstAck_one.tcp_ok, r, hr, hpass, ?_⟩
  rw [hframe] at hpass ⊢
  exact firstAck_one.rewritten_not_ok server.csumDiff_kernel hpass

end edge_cookie.smartcookie
