-- The tables of the seeds at both ends. `server_in` sends a change of its
-- tables to the gateway in a TCP segment with the ECE flag, and the gateway
-- makes the change when the segment comes. The gateway knows such a segment by
-- this one flag, which a segment of the server may have as well.
import EdgeCookie.Link
import EdgeCookie.Translation
import EdgeCookie.SynCookie

namespace edge_cookie

open bytes headers server runs link
open server_in (inView initTables)
open server_en (enView)
open switch_agent (Agent Options tcpAt outbound recordFlow resetFirst apacheOpts synackOpts
  inboundSyn inboundAck ackTs inboundAck_none inboundAck_some xsknf_packet_processor
  SERVER_R_IF_ORDER)

/-! ## What a frame does to the keys of the gateway -/

/-- The tables and the length of the key change are the same. -/
structure KeysKept (a a' : Agent) : Prop where
  seeds : a'.map_seeds = a.map_seeds
  cookies : a'.map_cookies = a.map_cookies
  duration : a'.change_key_duration = a.change_key_duration

theorem KeysKept.refl (a : Agent) : KeysKept a a := ⟨rfl, rfl, rfl⟩

theorem KeysKept.trans {a b c : Agent} (h1 : KeysKept a b) (h2 : KeysKept b c) : KeysKept a c :=
  ⟨h2.seeds.trans h1.seeds, h2.cookies.trans h1.cookies, h2.duration.trans h1.duration⟩

section

variable (o : Options) (a : Agent) (p : Pkt) (w : Nat)

theorem recordFlow_keys : KeysKept a (recordFlow a p w) := ⟨rfl, rfl, rfl⟩

theorem synackOpts_keys (ts : Nat) : KeysKept a (synackOpts o a p w ts).1 := by
  unfold synackOpts
  dsimp only
  split <;> exact ⟨rfl, rfl, rfl⟩

theorem inboundSyn_keys : KeysKept a (inboundSyn o a p w).2.1 := by
  unfold inboundSyn
  split
  · exact .refl a
  · dsimp only
    split
    · exact .refl a
    · split
      · exact ⟨rfl, rfl, rfl⟩
      · split
        · exact synackOpts_keys o a p w _
        · exact synackOpts_keys o a p w _

theorem apacheOpts_keys (ts : Nat) : KeysKept a (apacheOpts o a p w ts).1 := by
  unfold apacheOpts
  dsimp only
  split <;> exact ⟨rfl, rfl, rfl⟩

theorem resetFirst_keys (cookie : U32) : KeysKept a (resetFirst a p cookie).1 := by
  unfold resetFirst
  split <;> exact ⟨rfl, rfl, rfl⟩

theorem inboundAck_keys : KeysKept a (inboundAck o (recordFlow a p w) p w).2.1 := by
  cases hts : ackTs p with
  | none =>
    rw [inboundAck_none hts]
    exact recordFlow_keys a p w
  | some ts =>
    rw [inboundAck_some hts]
    dsimp only
    split
    · split
      · exact recordFlow_keys a p w
      · exact ((recordFlow_keys a p w).trans (resetFirst_keys _ p _)).trans
          (apacheOpts_keys o _ _ w ts)
    · split_ifs <;> exact recordFlow_keys a p w

/-- No frame from the side of the clients changes a key. -/
theorem inbound_keys : KeysKept a (xsknf_packet_processor o a p 0 w).2.1 := by
  unfold xsknf_packet_processor
  dsimp only
  split
  · exact .refl a
  · split
    · exact .refl a
    · split
      · exact .refl a
      · rw [if_pos rfl]
        split
        · exact (recordFlow_keys a p w).trans (inboundSyn_keys o _ p w)
        · split
          · exact inboundAck_keys o a p w
          · exact recordFlow_keys a p w

/-- A frame from the side of the server changes the keys when it has ECE. -/
theorem outbound_agent :
    (outbound a p w).2.1 =
      if p.ece tcpAt then
        { a with
          map_seeds := fun i => if i = p.window tcpAt then p.seq tcpAt else a.map_seeds i
          change_key_duration := p.ack_seq tcpAt
          map_cookies := fun i => if i = p.source tcpAt then p.dest tcpAt else a.map_cookies i }
      else a := by
  unfold outbound
  dsimp only
  split
  · rfl
  · split
    · split
      · rfl
      · split <;> rfl
    · rfl

end

section

variable {o : Options} {a : Agent} {p : Pkt} {w ifindex : Nat}

theorem processor_outbound (hdrop : o.opt_drop = false) (hforward : o.opt_forward = false)
    (hp : ¬ (p.h_proto ≠ htons ETH_P_IP ∧ p.protocol ≠ IPPROTO_TCP)) (hi : ifindex ≠ 0) :
    xsknf_packet_processor o a p ifindex w = outbound a p w := by
  unfold xsknf_packet_processor
  dsimp only
  rw [hdrop, hforward, if_neg Bool.false_ne_true, if_neg hp, if_neg Bool.false_ne_true, if_neg hi]

theorem processor_other_agent (hp : p.h_proto ≠ htons ETH_P_IP ∧ p.protocol ≠ IPPROTO_TCP) :
    (xsknf_packet_processor o a p ifindex w).2.1 = a := by
  unfold xsknf_packet_processor
  dsimp only
  rw [if_pos hp, ite_self]

/-- The numbers of the frame, read as a change, are what the gateway has. -/
def AlreadyHas (a : Agent) (p : Pkt) : Prop :=
  a.map_seeds (p.window tcpAt) = p.seq tcpAt ∧ a.map_cookies (p.source tcpAt) = p.dest tcpAt ∧
    a.change_key_duration = p.ack_seq tcpAt

theorem write_eq_self_iff {α β : Type} [DecidableEq α] (f : α → β) (k : α) (v : β) :
    (fun i => if i = k then v else f i) = f ↔ f k = v := by
  constructor
  · intro h
    rw [← congrFun h k, if_pos rfl]
  · intro h
    funext i
    split
    · rename_i hi
      rw [hi, h]
    · rfl

/-- When does a frame from the side of the server keep the keys. -/
theorem keysKept_iff (hp : ¬ (p.h_proto ≠ htons ETH_P_IP ∧ p.protocol ≠ IPPROTO_TCP))
    (hi : ifindex ≠ 0) :
    KeysKept a (xsknf_packet_processor o a p ifindex w).2.1 ↔
      o.opt_drop = true ∨ o.opt_forward = true ∨ p.ece tcpAt = false ∨ AlreadyHas a p := by
  cases hdrop : o.opt_drop with
  | true =>
    rw [switch_agent.processor_drop hdrop]
    exact iff_of_true (.refl a) (.inl rfl)
  | false =>
    cases hforward : o.opt_forward with
    | true =>
      rw [switch_agent.processor_forward hdrop hforward hp]
      exact iff_of_true (.refl a) (.inr (.inl rfl))
    | false =>
      rw [processor_outbound hdrop hforward hp hi, outbound_agent]
      cases hece : p.ece tcpAt with
      | false =>
        rw [if_neg Bool.false_ne_true]
        exact iff_of_true (.refl a) (.inr (.inr (.inl rfl)))
      | true =>
        rw [if_pos rfl]
        constructor
        · intro h
          exact .inr (.inr (.inr ⟨(write_eq_self_iff _ _ _).mp h.seeds,
            (write_eq_self_iff _ _ _).mp h.cookies, h.duration.symm⟩))
        · rintro (h | h | h | ⟨h1, h2, h3⟩)
          · cases h
          · cases h
          · cases h
          · exact ⟨(write_eq_self_iff _ _ _).mpr h1, (write_eq_self_iff _ _ _).mpr h2, h3.symm⟩

end

/-! ## The segments that `server_en` passes -/

section

variable {K : Helpers} {s : Server} {p : Pkt} {tcp len : Nat}

theorem rstBranch_sameOn {lo hi : Nat} (hr : hi ≤ tcp + 4 ∨ tcp + 8 ≤ lo) (val : map_val_t) :
    Pkt.SameOn lo hi p (server_en.rstBranch s p tcp val).2.2 := by
  unfold server_en.rstBranch
  with_reducible apply (Pkt.SameOn.refl lo hi p).put
  omega

theorem ackBranch_sameOn {lo hi ts : Nat} (hr : hi ≤ tcp + 4 ∨ (tcp + 8 ≤ lo ∧ hi ≤ tcp + 22))
    (hts : tcp + 20 ≤ ts) (val : map_val_t) :
    Pkt.SameOn lo hi p (server_en.ackBranch s p tcp ts val).2.2 := by
  unfold server_en.ackBranch
  dsimp only
  with_reducible apply Pkt.SameOn.put
  · with_reducible apply (Pkt.SameOn.refl lo hi p).put
    omega
  · omega

theorem synackBranch_sameOn {lo hi ts : Nat} (hr : hi ≤ tcp + 22) (hts : tcp + 20 ≤ ts)
    (val : map_val_t) (hok : (server_en.synackBranch K s p tcp ts val).1 = .TC_ACT_OK) :
    Pkt.SameOn lo hi p (server_en.synackBranch K s p tcp ts val).2.2 := by
  unfold server_en.synackBranch at hok ⊢
  dsimp only at hok ⊢
  by_cases hd : val.delta = 0
  · rw [if_pos hd]
    with_reducible apply (Pkt.SameOn.refl lo hi p).put
    omega
  · rw [if_neg hd] at hok
    exact absurd hok (convertSynack_not_ok _ _ _ _ _)

/-- A frame of an unknown flow does not pass. -/
theorem withEntry_ok {branch : map_val_t → server_en.tc_action × Server × Pkt}
    (hok : (server_en.withEntry s p tcp branch).1 = .TC_ACT_OK) :
    ∃ val, server_en.withEntry s p tcp branch = branch val := by
  unfold server_en.withEntry at hok ⊢
  cases hl : s.conntrack_map.lookup (enKey p tcp) with
  | none =>
    rw [hl] at hok
    cases hok
  | some val => exact ⟨val, rfl⟩

/-- A segment that passes keeps all bytes but the sequence number and the
options. -/
theorem passed_sameOn (lo hi : Nat) (hp : parseHeaders p = .tcp tcp len)
    (hok : (server_en.xdp_router K s p).1 = .TC_ACT_OK)
    (hr : hi ≤ tcp + 4 ∨ (tcp + 8 ≤ lo ∧ hi ≤ tcp + 22)) :
    Pkt.SameOn lo hi p (server_en.xdp_router K s p).2.2 := by
  rw [server_en.xdp_router_eq] at hok ⊢
  rcases enView_tcp hp with hv | hv | hv | ⟨ts, hts, hv | hv⟩ <;> rw [hv] at hok ⊢
  · exact .refl lo hi p
  · exact .refl lo hi p
  all_goals
    dsimp only [server_en.runView] at hok ⊢
    obtain ⟨val, hval⟩ := withEntry_ok hok
    rw [hval] at hok ⊢
  · exact rstBranch_sameOn (by omega) val
  · exact synackBranch_sameOn (by omega) hts val hok
  · exact ackBranch_sameOn hr hts val

/-- The gateway does not drop a segment that passes for its protocol. -/
theorem passed_proto (hp : parseHeaders p = .tcp tcp len)
    (hok : (server_en.xdp_router K s p).1 = .TC_ACT_OK) :
    (server_en.xdp_router K s p).2.2.h_proto = htons ETH_P_IP := by
  obtain ⟨hproto, -, hat, hihl⟩ := parseHeaders_tcp hp
  rw [← hproto]
  exact (passed_sameOn 12 14 hp hok (by omega)).u16 (by omega) (by omega)

end

/-- A segment that `server_en` passes keeps the keys of the gateway just when
the gateway runs without its tables, the segment comes without ECE, or its
numbers are in the tables already. A segment without IP options comes with the
ECE flag that the server has set. -/
theorem a_passed_segment_keeps_the_keys_iff (K : Helpers) (s : Server) (p q : Pkt) (tcp len : Nat)
    (o : Options) (a : Agent) (ifindex w : Nat) (hp : parseHeaders p = .tcp tcp len)
    (hok : (server_en.xdp_router K s p).1 = .TC_ACT_OK)
    (hq : (server_en.xdp_router K s p).2.2 = q) (hi : ifindex ≠ 0) :
    (KeysKept a (xsknf_packet_processor o a q ifindex w).2.1 ↔
      o.opt_drop = true ∨ o.opt_forward = true ∨ q.ece tcpAt = false ∨ AlreadyHas a q) ∧
    (tcp = tcpAt → q.ece tcpAt = p.ece tcpAt) ∧
    ∀ p', KeysKept a (xsknf_packet_processor o a p' 0 w).2.1 := by
  subst hq
  refine ⟨keysKept_iff (fun h => h.1 (passed_proto hp hok)) hi, ?_, fun p' => inbound_keys o a p' w⟩
  rintro rfl
  have hsame := passed_sameOn (tcpAt + 13) (tcpAt + 14) hp hok (by omega)
  exact congrArg (·.getLsbD 6) (hsame.u8 (a := tcpAt + 13) (by omega) (by omega))

/-- The ACK of the server has no ECE. -/
theorem the_ack_of_the_server_keeps_the_keys :
    KeysKept switch_agent.plainAgent (xsknf_packet_processor {} switch_agent.plainAgent
      (server_en.xdp_router kernelHelpers connectedServer serverAck).2.2 1 0).2.1 := by
  have hok := connectedServer_passes enView_serverAck (by decide)
  obtain ⟨hkept, hece, -⟩ :=
    a_passed_segment_keeps_the_keys_iff kernelHelpers connectedServer serverAck _
    34 32 {} switch_agent.plainAgent 1 0 (by decide) hok rfl one_ne_zero
  refine hkept.mpr (.inr (.inr (.inl ?_)))
  rw [hece rfl]
  decide

/-- A segment of the server with ECE. -/
def serverEce : Pkt :=
  .segment switch_agent.server_ip switch_agent.client_ip 80 7 (htonl 6) (htonl 2) 0x50 9 5

theorem the_segment_with_ece_changes_the_keys :
    parseHeaders serverEce = .tcp 34 32 ∧
      (∃ val, connectedServer.conntrack_map.lookup (enKey serverEce 34) = some val) ∧
      (server_en.xdp_router kernelHelpers connectedServer serverEce).1 = .TC_ACT_OK ∧
      ¬ KeysKept switch_agent.plainAgent (xsknf_packet_processor {} switch_agent.plainAgent
        (server_en.xdp_router kernelHelpers connectedServer serverEce).2.2 1 0).2.1 := by
  have hp : parseHeaders serverEce = .tcp 34 32 := by decide
  have hk : enKey serverEce 34 = clientKey := by decide
  have hv : enView serverEce = .ack 34 56 := by decide
  have hok := connectedServer_passes hv hk
  refine ⟨hp, ⟨_, hk ▸ lookup_connectedServer⟩, hok, ?_⟩
  rw [keysKept_iff (fun h => h.1 (passed_proto hp hok)) one_ne_zero]
  have hece := (passed_sameOn 47 48 hp hok (by omega)).u8 (a := 47) (by omega) (by omega)
  have hack := (passed_sameOn 42 46 hp hok (by omega)).u32 (a := 42) (by omega) (by omega)
  rintro (h | h | h | ⟨-, -, h⟩)
  · cases h
  · cases h
  · have hset : (serverEce.u8 47).getLsbD 6 = false := hece ▸ h
    revert hset
    decide
  · have hzero : 0 = serverEce.u32 42 := h.trans hack
    revert hzero
    decide

/-! ## The tables at both ends -/

structure KeyTables where
  seeds : U16 → U32
  cookies : U16 → U16

def agentTables (a : Agent) : KeyTables := ⟨a.map_seeds, a.map_cookies⟩

/-- The tables that `server_in` works with: its first frame fills them. -/
def serverTables (s : Server) : KeyTables := ⟨(initTables s).map_seeds, (initTables s).map_cookies⟩

/-- What the gateway makes of its tables when a frame comes from the server. -/
def KeyTables.receive (t : KeyTables) (p : Pkt) : KeyTables :=
  if p.h_proto ≠ htons ETH_P_IP ∧ p.protocol ≠ IPPROTO_TCP then t
  else if p.ece tcpAt then
    { seeds := fun i => if i = p.window tcpAt then p.seq tcpAt else t.seeds i
      cookies := fun i => if i = p.source tcpAt then p.dest tcpAt else t.cookies i }
  else t

theorem receive_no_ece (t : KeyTables) {p : Pkt} (h : p.ece tcpAt = false) : t.receive p = t := by
  unfold KeyTables.receive
  rw [h, if_neg Bool.false_ne_true, ite_self]

theorem agentTables_of_keys {a a' : Agent} (h : KeysKept a a') :
    agentTables a' = agentTables a := by
  unfold agentTables
  rw [h.seeds, h.cookies]

theorem agentTables_processor {o : Options} (hdrop : o.opt_drop = false)
    (hforward : o.opt_forward = false) (a : Agent) (p : Pkt) {ifindex : Nat} (hi : ifindex ≠ 0)
    (w : Nat) :
    agentTables (xsknf_packet_processor o a p ifindex w).2.1 = (agentTables a).receive p := by
  unfold KeyTables.receive
  by_cases hp : p.h_proto ≠ htons ETH_P_IP ∧ p.protocol ≠ IPPROTO_TCP
  · rw [if_pos hp, processor_other_agent hp]
  · rw [if_neg hp, processor_outbound hdrop hforward hp hi, outbound_agent]
    split <;> rfl

/-! ## The change that `server_in` sends -/

theorem serverTables_of_init {s : Server} (h : s.init = true) :
    serverTables s = ⟨s.map_seeds, s.map_cookies⟩ := by
  unfold serverTables initTables
  rw [if_pos h]

theorem serverTables_congr {s s' : Server} (hi : s'.init = s.init) (hs : s'.map_seeds = s.map_seeds)
    (hc : s'.map_cookies = s.map_cookies) : serverTables s' = serverTables s := by
  unfold serverTables initTables
  rw [hi]
  split
  · rw [hs, hc]
  · rfl

/-- The fields of a change, in the segment that carries it. -/
theorem change_fields (p : Pkt) (tcp : Nat) (cookie_key new_cookie seed_key : U16)
    (new_seed rtt : U32) {q : Pkt}
    (hq : (((((p.put16 tcp cookie_key).put16 (tcp + 2) new_cookie).put16 (tcp + 14) seed_key).put32
      (tcp + 4) new_seed).put32 (tcp + 8) rtt).set_flag tcp 6 = q) :
    q.source tcp = cookie_key ∧ q.dest tcp = new_cookie ∧ q.window tcp = seed_key ∧
      q.seq tcp = new_seed ∧ q.ece tcp = true := by
  subst hq
  refine ⟨?_, ?_, ?_, ?_, ?_⟩
  · unfold Pkt.source Pkt.set_flag
    rw [Pkt.u16_put_ne _ _ _ _ _ (by omega), Pkt.u16_put_ne _ _ _ _ _ (by omega),
      Pkt.u16_put_ne _ _ _ _ _ (by omega), Pkt.u16_put_ne _ _ _ _ _ (by omega),
      Pkt.u16_put_ne _ _ _ _ _ (by omega), Pkt.u16_put_same]
  · unfold Pkt.dest Pkt.set_flag
    rw [Pkt.u16_put_ne _ _ _ _ _ (by omega), Pkt.u16_put_ne _ _ _ _ _ (by omega),
      Pkt.u16_put_ne _ _ _ _ _ (by omega), Pkt.u16_put_ne _ _ _ _ _ (by omega), Pkt.u16_put_same]
  · unfold Pkt.window Pkt.set_flag
    rw [Pkt.u16_put_ne _ _ _ _ _ (by omega), Pkt.u16_put_ne _ _ _ _ _ (by omega),
      Pkt.u16_put_ne _ _ _ _ _ (by omega), Pkt.u16_put_same]
  · unfold Pkt.seq Pkt.set_flag
    rw [Pkt.u32_put_ne _ _ _ _ _ (by omega), Pkt.u32_put_ne _ _ _ _ _ (by omega), Pkt.u32_put_same]
  · exact (Pkt.flag_set_flag _ tcp 6 6 (by decide)).trans (Bool.or_true _)

theorem change_proto (p : Pkt) (cookie_key new_cookie seed_key : U16) (new_seed rtt : U32) {q : Pkt}
    (hq : (((((p.put16 tcpAt cookie_key).put16 (tcpAt + 2) new_cookie).put16 (tcpAt + 14)
      seed_key).put32 (tcpAt + 4) new_seed).put32 (tcpAt + 8) rtt).set_flag tcpAt 6 = q) :
    q.h_proto = p.h_proto := by
  have h34 : tcpAt = 34 := rfl
  have hsame : Pkt.SameOn 12 14 p q := by
    rw [← hq]
    unfold Pkt.set_flag
    iterate 6
      with_reducible apply Pkt.SameOn.put _ (by omega)
    exact .refl 12 14 p
  exact hsame.u16 (by omega) (by omega)

theorem bytesAt_length (p : Pkt) (a n : Nat) : (bytesAt p a n).length = n := by
  unfold bytesAt
  rw [List.length_map, List.length_range]

/-- The tables of the server as they stand. -/
def rawTables (s : Server) : KeyTables := ⟨s.map_seeds, s.map_cookies⟩

/-- The tables change just when the program sends a change, and then as the
gateway will change its own. -/
def TablesFollow (s : Server) (r : server_in.xdp_action × Server × Pkt) : Prop :=
  rawTables r.2.1 = if r.1 = .XDP_TX then (rawTables s).receive r.2.2 else rawTables s

theorem tablesFollow_of_same {s : Server} {r : server_in.xdp_action × Server × Pkt}
    (hr : r.1 ≠ .XDP_TX) (h : rawTables r.2.1 = rawTables s) : TablesFollow s r := by
  unfold TablesFollow
  rw [if_neg hr, h]

theorem missBranch_tables (rnd : U32 × U32) {s : Server} {p : Pkt} (ts : Nat)
    (hp : p.h_proto = htons ETH_P_IP) : TablesFollow s (server_in.missBranch rnd s p tcpAt ts) := by
  unfold server_in.missBranch
  dsimp only
  split
  · exact tablesFollow_of_same (fun h => nomatch h) rfl
  · split
    · exact tablesFollow_of_same (fun h => nomatch h) rfl
    · unfold TablesFollow rawTables
      rw [if_pos rfl]
      dsimp only
      generalize hq : Pkt.set_flag _ tcpAt 6 = q
      obtain ⟨h1, h2, h3, h4, h5⟩ := change_fields _ tcpAt _ _ _ _ _ hq
      have hproto : q.h_proto = htons ETH_P_IP := by
        rw [change_proto _ _ _ _ _ _ hq, ← hp]
        have hsame : Pkt.SameOn 12 14 p (((p.memcpy 6 (bytesAt p 0 6)).memcpy 0
            (bytesAt p 6 6)).xor_swap 4 26 30) := by
          with_reducible apply Pkt.SameOn.xor_swap
          · with_reducible apply Pkt.SameOn.memcpy
            · with_reducible apply (Pkt.SameOn.refl 12 14 p).memcpy
              rw [bytesAt_length]
              omega
            · rw [bytesAt_length]
              omega
          · omega
          · omega
        exact hsame.u16 (by omega) (by omega)
      unfold KeyTables.receive
      rw [if_neg (fun h => h.1 hproto), if_pos h5, h1, h2, h3, h4]

theorem createBranch_tables (K : Helpers) (s : Server) (p : Pkt) (tcp ts : Nat) :
    TablesFollow s (server_in.createBranch K s p tcp ts) := by
  refine tablesFollow_of_same ?_ ?_
  · unfold server_in.createBranch
    dsimp only
    split <;> exact fun h => nomatch h
  · rw [createBranch_server]
    rfl

theorem synackBranch_tables (K : Helpers) (s : Server) (p : Pkt) (tcp : Nat) :
    TablesFollow s (server_in.synackBranch K s p tcp) := by
  refine tablesFollow_of_same ?_ ?_
  · unfold server_in.synackBranch
    dsimp only
    split <;> exact fun h => nomatch h
  · rw [synackBranch_server]

theorem hitBranch_tables (K : Helpers) (s : Server) (p : Pkt) (tcp ts : Nat) (val : map_val_t) :
    TablesFollow s (server_in.hitBranch K s p tcp ts val) := by
  refine tablesFollow_of_same (fun h => nomatch h) ?_
  unfold server_in.hitBranch
  dsimp only
  split <;> rfl

theorem runView_tables (K : Helpers) (rnd : U32 × U32) (s : Server) {p : Pkt} (hihl : p.ihl = 5) :
    TablesFollow s (server_in.runView K rnd s p (inView p)) := by
  cases hv : inView p with
  | drop => exact tablesFollow_of_same (fun h => nomatch h) rfl
  | pass => exact tablesFollow_of_same (fun h => nomatch h) rfl
  | syn tcp ts => exact tablesFollow_of_same (fun h => nomatch h) rfl
  | create tcp ts => exact createBranch_tables K s p tcp ts
  | synack tcp => exact synackBranch_tables K s p tcp
  | data tcp ts =>
    obtain ⟨len, -, hparse⟩ := server_in.inView_tcp (congrArg server_in.InView.tcpAt hv)
    obtain ⟨hproto, -, hat, -⟩ := parseHeaders_tcp hparse
    obtain rfl : tcp = tcpAt := by rw [hat, hihl]; rfl
    dsimp only [server_in.runView, server_in.dataBranch]
    split
    · exact hitBranch_tables K s p tcpAt ts _
    · exact missBranch_tables rnd ts hproto

/-- A frame changes the tables of the server just when the program sends a
change, and then as the gateway will change its own. -/
theorem ingress_tables (K : Helpers) (rnd : U32 × U32) (s : Server) {p : Pkt} (hihl : p.ihl = 5) :
    serverTables (server_in.xdp_router K rnd s p).2.1 =
      if (server_in.xdp_router K rnd s p).1 = .XDP_TX then
        (serverTables s).receive (server_in.xdp_router K rnd s p).2.2
      else serverTables s := by
  rw [serverTables_of_init (init_ingress K rnd s p), server_in.xdp_router_eq]
  exact runView_tables K rnd (initTables s) hihl

/-! ## Both ends and the channel -/

/-- The gateway, the server agent, and the changes on their way, oldest first. -/
structure Net where
  agent : Agent
  server : Server
  flight : List Pkt

/-- What can happen: a frame at an interface of the gateway, the end of a key
change there, a frame at one of the programs of the server agent, and the
arrival of the oldest change. -/
inductive NetEvent where
  | gateway (p : Pkt) (ifindex worker_id : Nat)
  | windowEnd
  | ingress (rnd : U32 × U32) (p : Pkt)
  | egress (p : Pkt)
  | deliver (worker_id : Nat)

/-- The interface of the gateway to the server. -/
def serverPort : Nat := SERVER_R_IF_ORDER.toNat

def netStep (o : Options) (K : Helpers) (n : Net) : NetEvent → Net
  | .gateway p ifindex worker_id =>
    { n with agent := (xsknf_packet_processor o n.agent p ifindex worker_id).2.1 }
  | .windowEnd => { n with agent := { n.agent with change_key_duration := 0 } }
  | .ingress rnd p =>
    let r := server_in.xdp_router K rnd n.server p
    { n with server := r.2.1, flight := if r.1 = .XDP_TX then n.flight ++ [r.2.2] else n.flight }
  | .egress p => { n with server := (server_en.xdp_router K n.server p).2.1 }
  | .deliver worker_id =>
    match n.flight with
    | [] => n
    | m :: ms =>
      { n with
        agent := (xsknf_packet_processor o n.agent m serverPort worker_id).2.1
        flight := ms }

/-- The frames for `server_in` come without IP options, and those from the side
of the server without ECE. -/
def NetEvent.Ordinary : NetEvent → Prop
  | .gateway p ifindex _ => ifindex ≠ 0 → p.ece tcpAt = false
  | .ingress _ p => p.ihl = 5
  | _ => True

/-- The tables and the channel, as a table with a copy. -/
def Net.link (n : Net) : Link KeyTables Pkt :=
  ⟨serverTables n.server, n.flight, agentTables n.agent⟩

def netMove (K : Helpers) (n : Net) : NetEvent → Move Pkt
  | .ingress rnd p =>
    let r := server_in.xdp_router K rnd n.server p
    if r.1 = .XDP_TX then .send r.2.2 else .rest
  | .deliver _ => .deliver
  | _ => .rest

/-- Each step of both ends is a step of the table with its copy. -/
theorem link_netStep {o : Options} (hdrop : o.opt_drop = false) (hforward : o.opt_forward = false)
    (K : Helpers) (n : Net) (e : NetEvent) (he : e.Ordinary) :
    (netStep o K n e).link = step KeyTables.receive n.link (netMove K n e) := by
  cases e with
  | gateway p ifindex w =>
    have htables : agentTables (xsknf_packet_processor o n.agent p ifindex w).2.1 =
        agentTables n.agent := by
      by_cases hi : ifindex = 0
      · rw [hi]
        exact agentTables_of_keys (inbound_keys o n.agent p w)
      · rw [agentTables_processor hdrop hforward _ _ hi, receive_no_ece _ (he hi)]
    exact congrArg (Link.mk _ _) htables
  | windowEnd => rfl
  | ingress rnd p =>
    have htables := ingress_tables K rnd n.server he
    unfold netStep netMove Net.link
    dsimp only
    rw [htables]
    split <;> rfl
  | egress p =>
    obtain ⟨hi, hs, hc⟩ := egress_keeps K n.server p
    exact congrArg (Link.mk · _ _) (serverTables_congr hi hs hc)
  | deliver w =>
    obtain ⟨a, s, flight⟩ := n
    cases flight with
    | nil => rfl
    | cons m ms =>
      exact congrArg (Link.mk _ _) (agentTables_processor hdrop hforward _ _ (by decide) w)

/-- The gateway after the changes `ms` have come. -/
def deliverAll (o : Options) (w : Nat) (a : Agent) (ms : List Pkt) : Agent :=
  ms.foldl (fun a m => (xsknf_packet_processor o a m serverPort w).2.1) a

theorem agentTables_deliverAll {o : Options} (hdrop : o.opt_drop = false)
    (hforward : o.opt_forward = false) (w : Nat) (ms : List Pkt) (a : Agent) :
    agentTables (deliverAll o w a ms) = ms.foldl KeyTables.receive (agentTables a) := by
  induction ms generalizing a with
  | nil => rfl
  | cons m ms ih =>
    refine (ih _).trans ?_
    rw [agentTables_processor hdrop hforward _ _ (by decide)]
    rfl

/-- Both ends start with the same tables. After any events, with any changes
among them and in any order, the tables of the server are those of the gateway
with the changes in flight; without any in flight they are the same. -/
theorem the_tables_agree_up_to_the_changes_in_flight (o : Options) (K : Helpers) (n n' : Net)
    (es : List NetEvent) (w : Nat) (hdrop : o.opt_drop = false) (hforward : o.opt_forward = false)
    (hstart : n.flight = [] ∧ serverTables n.server = agentTables n.agent)
    (hes : ∀ e ∈ es, e.Ordinary) (hn' : run (netStep o K) n es = n') :
    serverTables n'.server = agentTables (deliverAll o w n'.agent n'.flight) ∧
    (n'.server.init = true →
      n'.server.map_seeds = (deliverAll o w n'.agent n'.flight).map_seeds ∧
      n'.server.map_cookies = (deliverAll o w n'.agent n'.flight).map_cookies) ∧
    (n'.flight = [] → serverTables n'.server = agentTables n'.agent) := by
  have hbegin : Agrees KeyTables.receive n.link := by
    unfold Agrees Net.link
    rw [hstart.1]
    exact hstart.2
  have hlink : Agrees KeyTables.receive n'.link := by
    rw [← hn', run_follows_of Net.link hes (fun n e he => link_netStep hdrop hforward K n e he)]
    exact agrees_run hbegin _
  have hall : serverTables n'.server = agentTables (deliverAll o w n'.agent n'.flight) := by
    rw [agentTables_deliverAll hdrop hforward]
    exact hlink
  refine ⟨hall, fun hinit => ?_, fun hflight => ?_⟩
  · rw [serverTables_of_init hinit] at hall
    exact ⟨congrArg KeyTables.seeds hall, congrArg KeyTables.cookies hall⟩
  · rw [hall, hflight]
    rfl

/-- Both ends before a change: one more frame of an unknown flow, and
`server_in` takes a new seed. -/
def beforeChange : Net := ⟨switch_agent.plainAgent, { Server.boot with dropcnt := 4999999 }, []⟩

theorem a_change_in_flight_keeps_the_agreement :
    (run (netStep {} kernelHelpers) beforeChange [.ingress (3, 9) dataAck]).flight.length = 1 ∧
      serverTables (run (netStep {} kernelHelpers) beforeChange [.ingress (3, 9) dataAck]).server =
        agentTables (deliverAll {} 0
          (run (netStep {} kernelHelpers) beforeChange [.ingress (3, 9) dataAck]).agent
          (run (netStep {} kernelHelpers) beforeChange [.ingress (3, 9) dataAck]).flight) := by
  refine ⟨by decide, (the_tables_agree_up_to_the_changes_in_flight {} kernelHelpers beforeChange _
    [.ingress (3, 9) dataAck] 0 rfl rfl ⟨rfl, rfl⟩ ?_ rfl).1⟩
  intro e he
  rw [List.mem_singleton.mp he]
  change dataAck.ihl = 5
  decide

end edge_cookie
