-- The SYN of a client that the gateway has reset before. The gateway writes the
-- cookie of the client into the timestamp option, and `server_in` finds it
-- there, makes an entry of it and clears it again, so the server gets the SYN
-- that the client sent.
import EdgeCookie.AckFilter
import EdgeCookie.EntryKinds
import EdgeCookie.OptionList
import EdgeCookie.Reconnect

namespace edge_cookie

open bytes headers server
open server_in (inView)
open switch_agent

/-! ## A parser on a frame with another timestamp -/

section

variable {p q : Pkt} {past : Nat → Bool} {a k : Nat}

/-- A walk up to the timestamp option reads no byte behind its length. -/
theorem FirstStamp.same (h : FirstStamp p past a k)
    (hsame : ∀ i, a ≤ i → i < optAt p a k + 2 → q.mem i = p.mem i) :
    FirstStamp q past a k ∧ optAt q a k = optAt p a k := by
  induction k generalizing a with
  | zero =>
    have hkind : q.u8 a = p.u8 a := hsame a (Nat.le_refl a) (Nat.lt_add_of_pos_right (by decide))
    have hhere := firstStamp_zero.mp h
    exact ⟨firstStamp_zero.mpr ⟨hhere.kind_inside, hkind.trans hhere.stamp, hhere.length_inside⟩,
      rfl⟩
  | succ k ih =>
    obtain ⟨hskip, hrest⟩ := firstStamp_succ.mp h
    have hle := h.le_optAt
    have hkind : q.u8 a = p.u8 a := hsame a (Nat.le_refl a) (by omega)
    have hlength : q.u8 (a + 1) = p.u8 (a + 1) := hsame (a + 1) (by omega) (by omega)
    have hnext : nextOpt q a = nextOpt p a := by rw [nextOpt, nextOpt, hkind, hlength]
    have hskip' : Skipped q past a := by
      refine ⟨hskip.kind_inside, ?_, ?_, ?_⟩
      · rw [hkind]
        exact hskip.not_end
      · rw [hkind]
        exact hskip.not_stamp
      · rw [hkind]
        exact hskip.length_inside
    have hadv : a ≤ nextOpt p a := by
      unfold nextOpt
      split <;> omega
    obtain ⟨hfirst, hat⟩ := ih hrest fun i hi hi' => hsame i (by omega) hi'
    rw [optAt, optAt, hnext]
    exact ⟨firstStamp_succ.mpr ⟨hskip', by rw [hnext]; exact hfirst⟩, hat⟩

/-- The masks do not decide when one bit of each is missing in the first word. -/
theorem synMasks_slow {opt64 : U64} {i j : Nat} (opt32 : U32) (hi : syn_1_mask.getLsbD i = true)
    (hi' : opt64.getLsbD i = false) (hj : syn_2_mask_1.getLsbD j = true)
    (hj' : opt64.getLsbD j = false) : synMasks opt64 opt32 true = .slow := by
  have hmiss : ∀ {mask : U64} {n : Nat}, mask.getLsbD n = true → opt64.getLsbD n = false →
      ¬ hasMask mask opt64 = true := by
    intro mask n hn hn' hmask
    exact absurd (hn'.symm.trans (hasMask_bit hmask hn)) Bool.false_ne_true
  unfold synMasks
  rw [if_neg (hmiss hi hi'), if_neg (by decide), if_neg (hmiss hj hj')]
  exact if_neg (hmiss (show syn_3_mask_1.getLsbD j = true from hj) hj')

end

theorem mem_of_u32_zero {p : Pkt} {a i : Nat} (h : p.u32 a = 0) (hi : i < 4) :
    p.mem (a + i) = 0 := by
  have hload : load p.mem a 4 = 0 := by
    have hlt := load_lt p.mem a 4
    have hnat := congrArg BitVec.toNat h
    rw [Pkt.u32, BitVec.toNat_ofNat] at hnat
    exact (Nat.mod_eq_of_lt hlt).symm.trans hnat
  apply BitVec.eq_of_getLsbD_eq
  intro j hj
  rw [← testBit_load p.mem a 4 hi hj, hload, Nat.zero_testBit]
  simp

/-! ## The SYN -/

/-- A SYN without IP options whose first option is the MSS, with a timestamp
option at `off` that has no echo yet and is among the first ten options. The
gateway knows the client and holds a cookie for it. -/
structure SecondSyn (a : Agent) (p : Pkt) (off : Nat) : Prop where
  plain : PlainTcp p
  doff : 8 ≤ p.doff tcpAt
  fits : tcpAt + p.doff tcpAt * 4 ≤ p.len
  syn : p.syn tcpAt = true
  ack : p.ack tcpAt = false
  mss : p.u8 54 = 2
  mss_length : p.u8 55 = 4
  stamp : stampOffset p tcpAt = some off
  early : maskView p tcpAt = .slow → ∀ k, FirstStamp p (pastHeader p tcpAt) (tcpAt + 20) k → k < 10
  no_echo : p.tsecr (tcpAt + 20 + off) = 0
  known : bloom_filter_test a.bf (bytes32 p.saddr) = true
  cached : a.syn_cache (cacheIndex a.map_seeds p.saddr) ≠ 0

section

variable {p : Pkt} {off : Nat}

/-- Behind the MSS option the timestamp is at 4 or later; at 4 and at 5 its kind
byte keeps the masks from deciding. -/
theorem masks_slow_behind_mss {past : Nat → Bool} {k : Nat} (hmss : p.u8 54 = 2)
    (hlength : p.u8 55 = 4) (h : FirstStamp p past 54 k) (hat : optAt p 54 k = 54 + off) :
    4 ≤ off ∧ (off < 6 → ∀ opt32, synMasks (p.u64 54) opt32 true = .slow) := by
  have hnext : nextOpt p 54 = 58 := by
    rw [nextOpt, if_neg (by rw [hmss]; decide), hlength]
    rfl
  have hbit : ∀ i j, i < 8 → j < 8 → (p.u64 54).getLsbD (8 * i + j) = (p.u8 (54 + i)).getLsbD j :=
    fun i j hi hj => getLsbD_u64 p 54 hi hj
  cases k with
  | zero =>
    have hstamp := (firstStamp_zero.mp h).stamp
    rw [hmss] at hstamp
    exact absurd hstamp (by decide)
  | succ k =>
    obtain ⟨-, hrest⟩ := firstStamp_succ.mp h
    rw [optAt, hnext] at hat
    rw [hnext] at hrest
    have hle := hrest.le_optAt
    refine ⟨by omega, fun hoff opt32 => ?_⟩
    have hkind : p.u8 (54 + off) = 8 := hat ▸ hrest.here.stamp
    rcases (by omega : off = 4 ∨ off = 5) with rfl | rfl
    · exact synMasks_slow (i := 8 * 4 + 2) (j := 8 * 4 + 0) opt32 (by decide)
        (by rw [hbit _ _ (by decide) (by decide), hkind]; decide) (by decide)
        (by rw [hbit _ _ (by decide) (by decide), hkind]; decide)
    · -- Only a NOP is one byte long.
      have hnop : p.u8 58 = 1 := by
        obtain rfl | rfl : k = 0 ∨ k = 1 := by omega
        · exact absurd hat (by decide : ¬ 58 = 54 + 5)
        · by_contra hne
          have hat' : nextOpt p 58 = 59 := hat
          rw [nextOpt, if_neg hne, show p.u8 (58 + 1) = 8 from hkind] at hat'
          exact absurd hat' (by decide)
      exact synMasks_slow (i := 8 * 4 + 2) (j := 8 * 5 + 0) opt32 (by decide)
        (by rw [hbit _ _ (by decide) (by decide), hnop]; decide) (by decide)
        (by rw [hbit _ _ (by decide) (by decide), hkind]; decide)

/-- The masks of a SYN give an offset of 6 or 10. -/
theorem maskView_syn_ge (hsyn : p.syn tcpAt = true) (h : maskView p tcpAt = .found off) :
    6 ≤ off := by
  unfold maskView at h
  rw [hsyn, if_pos rfl] at h
  rcases synMasks_cases (p.u64 (tcpAt + 20)) (p.u32 (tcpAt + 20 + 8)) with hsix | hten | hslow
  · exact Nat.le_of_eq (Fast.found.inj (hsix.symm.trans h))
  · have := Fast.found.inj (hten.symm.trans h)
    omega
  · rw [hslow] at h
    cases h

end

namespace SecondSyn

variable {a : Agent} {p : Pkt} {off : Nat} (h : SecondSyn a p off)

include h

/-- `server_in` finds the timestamp option where the gateway did, whatever the
gateway wrote into it. -/
theorem parse (v : U32) :
    server.parse_timestamp (p.put32 (tcpAt + 20 + off + 6) v) (tcpAt + 20) tcpAt = some off := by
  have h54 : tcpAt + 20 = 54 := rfl
  have hflag : ∀ i, (p.put32 (tcpAt + 20 + off + 6) v).flag tcpAt i = p.flag tcpAt i := fun i =>
    Pkt.flag_put_ne p (by omega)
  have hdoff : (p.put32 (tcpAt + 20 + off + 6) v).doff tcpAt = p.doff tcpAt :=
    congrArg (·.toNat / 16) (Pkt.u8_put_ne p _ _ _ _ (by omega))
  have hpast : pastHeader (p.put32 (tcpAt + 20 + off + 6) v) tcpAt = pastHeader p tcpAt := by
    unfold pastHeader
    rw [hdoff]
  have hsyn : (p.put32 (tcpAt + 20 + off + 6) v).syn tcpAt = true := (hflag 1).trans h.syn
  have hack : (p.put32 (tcpAt + 20 + off + 6) v).ack tcpAt = false := (hflag 4).trans h.ack
  have hflags : p.syn tcpAt ≠ p.ack tcpAt := by
    rw [h.syn, h.ack]
    decide
  have h32 : 32 ≤ p.doff tcpAt * 4 := by
    have := h.doff
    omega
  obtain ⟨hlen, hplace⟩ := stampOffset_cases hflags h32 h.stamp
  -- The masks read the first twelve option bytes.
  have hmask : 6 ≤ off → maskView (p.put32 (tcpAt + 20 + off + 6) v) tcpAt = maskView p tcpAt := by
    intro hoff
    rw [maskView, maskView, hsyn, h.syn, Pkt.u64_put_ne _ _ _ _ _ (by omega),
      Pkt.u32_put_ne _ _ _ _ _ (by omega)]
  refine server_parse_some (by rw [hsyn, hack]; decide) (by rw [hdoff]; exact h32)
    (by rw [hdoff]; exact h.fits) hlen ?_
  rcases hplace with hfound | ⟨hslow, k, hfirst, hat⟩
  · exact .inl ((hmask (maskView_syn_ge h.syn hfound)).trans hfound)
  · obtain ⟨hoff, hmasks⟩ := masks_slow_behind_mss h.mss h.mss_length hfirst hat
    have hslow' : maskView (p.put32 (tcpAt + 20 + off + 6) v) tcpAt = .slow := by
      by_cases h6 : 6 ≤ off
      · exact (hmask h6).trans hslow
      · rw [maskView, hsyn, if_pos rfl, Pkt.u64_put_ne _ _ _ _ _ (by omega)]
        exact hmasks (by omega) _
    obtain ⟨hfirst', hat'⟩ := hfirst.same (q := p.put32 (tcpAt + 20 + off + 6) v)
      fun i _ hi => store_out _ _ _ _ _ (by omega)
    rw [hpast]
    exact .inr ⟨hslow', k, h.early hslow k hfirst, hfirst', hat'.trans hat⟩

/-- The frame behind the gateway. -/
theorem sent {o : Options} (w : Nat) (hdrop : o.opt_drop = false) (hforward : o.opt_forward = false)
    (hts : o.timestamp_option = .TS_ON) :
    (xsknf_packet_processor o a p 0 w).1 ≠ -1 ∧
      (xsknf_packet_processor o a p 0 w).2.2 =
        (forward (p.put32 (tcpAt + 20 + off + 6)
          (a.syn_cache (cacheIndex a.map_seeds p.saddr)))).2 := by
  have hstamp : synTs o p = some (tcpAt + 20 + off) := by
    have hoff := h.stamp
    unfold stampOffset at hoff
    unfold synTs synTsOffset
    rw [if_pos hts]
    cases hparse : switch_agent.parse_timestamp p tcpAt with
    | none =>
      rw [hparse] at hoff
      cases hoff
    | some off' =>
      rw [hparse] at hoff
      dsimp only at hoff ⊢
      split at hoff
      · cases hoff
      · rename_i hlen
        obtain rfl := Option.some.inj hoff
        rw [if_neg hlen]
  rw [processor_syn hdrop hforward h.plain.inbound h.syn h.ack, inboundSyn_some hstamp]
  dsimp only
  rw [if_pos (by exact h.known)]
  exact ⟨forward_ne _, rfl⟩

/-- `server_in` takes its SYN branch on the frame with a cookie in it. -/
theorem view {v : U32} (hv : v ≠ 0) :
    inView (forward (p.put32 (tcpAt + 20 + off + 6) v)).2 = .syn tcpAt (tcpAt + 20 + off) := by
  have hsame := forward_sameFrom (p.put32 (tcpAt + 20 + off + 6) v)
  have hplain : PlainTcp (forward (p.put32 (tcpAt + 20 + off + 6) v)).2 := by
    refine PlainTcp.of_same (p := p) h.plain ?_ ?_
    · exact ((Pkt.SameOn.refl _ _ _).put (by unfold tcpAt; omega)).trans fun i hi _ =>
        hsame.mem i hi
    · exact ((Pkt.SameOn.refl _ _ _).put (by unfold tcpAt; omega)).trans
        fun i hi _ => hsame.mem i (by omega)
  have hflag : ∀ i, (forward (p.put32 (tcpAt + 20 + off + 6) v)).2.flag tcpAt i = p.flag tcpAt i :=
    fun i => (forward_flag _ i).trans (Pkt.flag_put_ne p (by omega))
  have hdoff : (forward (p.put32 (tcpAt + 20 + off + 6) v)).2.doff tcpAt = p.doff tcpAt :=
    (hsame.doff (by decide)).trans
      (congrArg (·.toNat / 16) (Pkt.u8_put_ne p _ _ _ _ (by omega)))
  have hlen : (forward (p.put32 (tcpAt + 20 + off + 6) v)).2.len = p.len := hsame.len
  have htsecr : (forward (p.put32 (tcpAt + 20 + off + 6) v)).2.tsecr (tcpAt + 20 + off) = v :=
    (hsame.u32 (by unfold tcpAt; omega)).trans (Pkt.u32_put_same _ _ _)
  have hparse : server.parse_timestamp (forward (p.put32 (tcpAt + 20 + off + 6) v)).2 (tcpAt + 20)
      tcpAt = some off :=
    (server.parse_timestamp_same hsame (by decide)).trans (h.parse v)
  have hfits := h.fits
  have hdoff8 := h.doff
  rcases inView_plain hplain with ⟨-, -, hview⟩ | ⟨hshort, -⟩
  · have hsyn : p.flag tcpAt 1 = true := h.syn
    have hack : p.flag tcpAt 4 = false := h.ack
    rw [hview, server_in.viewTcp, hparse]
    dsimp only
    rw [Pkt.syn, Pkt.ack, hflag, hflag, hsyn, hack, if_pos (by decide), hdoff, hlen, htsecr,
      if_neg (by omega), if_neg hv]
  · refine absurd ⟨?_, ?_⟩ hshort
    · rw [hdoff]
      omega
    · rw [hdoff, hlen]
      exact hfits

end SecondSyn

/-! ## The two programs in a row -/

/-- The entry of a client that comes back with its cookie: the hybrid cookie is
made of the cookie and the seed, and the counter is 1. -/
structure ReturnEntry (ip seed cookie : U32) (val : map_val_t) : Prop where
  delta : val.delta = 0
  hash_cookie : val.hash_cookie = cookie
  cur_hash_seed : val.cur_hash_seed = seed
  hash : hashBits (ntohl val.hybrid_cookie) = foldBits cookie
  map : mapBits (ntohl val.hybrid_cookie) = mapCookie ip seed
  counter : counter (ntohl val.hybrid_cookie) = 1

theorem returnEntry_first (ip seed cookie : U32) :
    ReturnEntry ip seed cookie
      (withCookie { hash_cookie := cookie } (firstCookie cookie ip seed) seed) := by
  refine ⟨rfl, rfl, rfl, ?_, ?_, ?_⟩
  · rw [withCookie_hybrid, hashBits_firstCookie]
  · rw [withCookie_hybrid, mapBits_firstCookie]
  · rw [withCookie_hybrid, counter_firstCookie]

/-- Behind the two programs the SYN is the one that the client sent, and its flow
has the entry of the client, just when the table of the server agent has room
for the flow. `server_in` does not look at the result of the write. -/
theorem the_second_syn_is_transparent_iff (o : Options) (a : Agent) (w : Nat) (K : Helpers)
    (rnd : U32 × U32) (s : Server) (p q : Pkt) (off : Nat) (hdrop : o.opt_drop = false)
    (hforward : o.opt_forward = false) (hts : o.timestamp_option = .TS_ON) (h : SecondSyn a p off)
    (hq : (xsknf_packet_processor o a p 0 w).2.2 = q) :
    ((xsknf_packet_processor o a p 0 w).1 ≠ -1 ∧ (server_in.xdp_router K rnd s q).1 = .XDP_PASS ∧
      Pkt.SameFrom 14 p (server_in.xdp_router K rnd s q).2.2 ∧
      ∃ val, (server_in.xdp_router K rnd s q).2.1.conntrack_map.lookup (inKey p tcpAt) = some val ∧
        ReturnEntry p.saddr (seedAt s p.saddr) (a.syn_cache (cacheIndex a.map_seeds p.saddr)) val) ↔
      s.conntrack_map.HasRoom (inKey p tcpAt) := by
  obtain ⟨hverdict, hout⟩ := h.sent w hdrop hforward hts
  rw [hout] at hq
  have hview := h.view h.cached
  have hcached := h.cached
  generalize a.syn_cache (cacheIndex a.map_seeds p.saddr) = v at hq hview hcached ⊢
  have hsame := forward_sameFrom (p.put32 (tcpAt + 20 + off + 6) v)
  rw [hq] at hview hsame
  have hfield : Pkt.SameOn 14 46 p q :=
    ((Pkt.SameOn.refl 14 46 p).put (by unfold tcpAt; omega)).trans fun i hi _ =>
      hsame.mem i (by omega)
  have hkey : inKey q tcpAt = inKey p tcpAt := by
    unfold inKey Pkt.saddr Pkt.daddr Pkt.source Pkt.dest
    rw [hfield.u32 (by decide) (by decide), hfield.u32 (by decide) (by decide),
      hfield.u16 (by decide) (by decide), hfield.u16 (by decide) (by decide)]
  have htsecr : q.tsecr (tcpAt + 20 + off) = v :=
    (hsame.u32 (by unfold tcpAt; omega)).trans (Pkt.u32_put_same _ _ _)
  by_cases hroom : s.conntrack_map.HasRoom (inKey p tcpAt)
  · refine iff_of_true ⟨hverdict, creating_passes K rnd s (.inl hview), ?_, ?_⟩ hroom
    · rw [server_in.xdp_router_eq, hview]
      refine ⟨hsame.len, fun i hi => ?_⟩
      -- The cookie lies where the client had zeros, and the zeros are back.
      by_cases hin : tcpAt + 20 + off + 6 ≤ i ∧ i < tcpAt + 20 + off + 6 + 4
      · have hzero := mem_of_u32_zero (i := i - (tcpAt + 20 + off + 6)) h.no_echo (by omega)
        rw [Nat.add_sub_of_le hin.1] at hzero
        rw [hzero]
        exact (if_pos hin).trans (by simp)
      · exact (store_out _ _ _ _ _ (by omega)).trans
          ((hsame.mem i (by omega)).trans (store_out _ _ _ _ _ (by omega)))
    · rw [lookup_ingress, inEvent_syn hview hkey hroom, htsecr]
      exact ⟨_, rfl, returnEntry_first _ _ _⟩
  · refine iff_of_false ?_ hroom
    rintro ⟨-, -, -, val, hval, -⟩
    rw [lookup_ingress_full K rnd (.inl hview) hroom] at hval
    cases hval

/-- The SYN of the client with the options MSS, timestamps and SACK. The echo
lies among the bytes that the masks read. -/
def returnSyn : Pkt :=
  .ofBytes (List.replicate 12 0 ++ [0x08, 0x00] ++
    [0x45, 0, 0, 56, 0, 0, 0, 0, 64, 6, 0, 0] ++ bytes32 client_ip ++ bytes32 server_ip ++
    bytes16 7 ++ bytes16 80 ++ bytes32 1 ++ bytes32 0 ++ [0x90, 0x02, 0, 0, 0, 0, 0, 0] ++
    [2, 4, 5, 0xb4, 8, 10] ++ bytes32 5 ++ bytes32 0 ++ [4, 2])

/-- The gateway behind the ACK of the client, which it reset. -/
def resetAgent : Agent := (xsknf_packet_processor {} plainAgent provenAck 0 0).2.1

theorem returnSyn_second : SecondSyn resetAgent returnSyn 4 := by
  have hts : ackTs provenAck = some 56 := by decide
  have hlearn := effect_learn rfl rfl (by decide) (by decide) (by decide) hts (by decide)
    provenAck_checked (by decide)
  obtain ⟨hknown, hslot⟩ := learned (Nat.succ_pos 3145727) hlearn
  have hip : returnSyn.saddr = provenAck.saddr := by decide
  refine ⟨⟨by decide, by decide, by decide⟩, by decide, by decide, by decide, by decide, by decide,
    by decide, by decide, ?_, by decide, ?_, ?_⟩
  · intro _ k hk
    have hwalk : optWalk returnSyn (pastHeader returnSyn tcpAt) 2 (tcpAt + 20) = some 58 :=
      by decide
    obtain ⟨k', hk', hfirst, -⟩ := (optWalk_eq_some_iff _ _ _ _ _).mp hwalk
    have heq := hk.unique hfirst
    omega
  · rw [hip, resetAgent]
    exact hknown
  · rw [hip, resetAgent]
    intro hzero
    rw [provenAck_cookie] at hslot
    exact absurd (hslot.symm.trans hzero) (by decide)

/-- The SYN of the client reaches the server as it is. -/
theorem the_second_syn_of_the_client_is_transparent :
    Pkt.SameFrom 14 returnSyn (server_in.xdp_router kernelHelpers (0, 0) Server.boot
      (xsknf_packet_processor {} resetAgent returnSyn 0 0).2.2).2.2 :=
  ((the_second_syn_is_transparent_iff {} resetAgent 0 kernelHelpers (0, 0) Server.boot returnSyn _ 4
    rfl rfl rfl returnSyn_second rfl).mpr (.inr (by decide))).2.2.1

/-- With the full table the SYN reaches the server, and its flow has no entry. -/
theorem the_second_syn_in_a_full_table_has_no_entry :
    SecondSyn resetAgent returnSyn 4 ∧
      ¬ ∃ val,
        (server_in.xdp_router kernelHelpers (0, 0) { Server.boot with conntrack_map := fullTable }
          (xsknf_packet_processor {} resetAgent returnSyn 0 0).2.2).2.1.conntrack_map.lookup
          (inKey returnSyn tcpAt) = some val := by
  have hfull : ¬ fullTable.HasRoom (inKey returnSyn tcpAt) := by
    refine BoundedMap.not_hasRoom_fill otherFlow_injective _ fun i h => ?_
    have hip : (0 : U32) = (inKey returnSyn tcpAt).dst_ip := congrArg map_key_t.dst_ip h
    exact absurd hip (by decide)
  generalize fullTable = m at hfull ⊢
  refine ⟨returnSyn_second, ?_⟩
  rintro ⟨val, hval⟩
  have hview := returnSyn_second.view returnSyn_second.cached
  rw [← (returnSyn_second.sent (o := {}) 0 rfl rfl rfl).2] at hview
  rw [lookup_ingress_full _ _ (.inl hview) hfull] at hval
  cases hval

end edge_cookie
