-- The client agent of htscookie. `client_en` keeps the timestamp of a segment of
-- the local host and writes the cookie of the flow in its place; `client_in`
-- keeps the cookie that an ACK brings, and gives the local host its timestamp
-- back. The headers, the parsers and the checksums are those of the server agent.
import EdgeCookie.Checksum
import EdgeCookie.ServerEn
import EdgeCookie.ServerIn
import EdgeCookie.Runs

namespace edge_cookie

open bytes headers runs
open server (map_key_t map_val_t Conntrack Helpers csum_fold_helper_64 parseHeaders
  parse_timestamp inKey enKey)
open server_en (tc_action)
open server_in (xdp_action)
open switch_agent (client_ip server_ip)

/-- The globals of `client_in`, and the map that it shares with `client_en`. -/
structure Client where
  init : Bool
  map_cookies : U16 → U16
  map_seeds : U16 → U32
  conntrack_map : Conntrack

/-- The client agent when it is loaded: all zero. -/
def Client.boot : Client where
  init := false
  map_cookies _ := 0
  map_seeds _ := 0
  conntrack_map := BoundedMap.empty

namespace client_en

/-- The part of the program for a TCP header of at least 32 bytes. -/
def xdpTcp (c : Client) (p : Pkt) (tcp : Nat) : tc_action × Client × Pkt :=
  let cur := tcp + 20
  match parse_timestamp p cur tcp with
  | none => (.TC_ACT_SHOT, c, p)
  | some off =>
    let ts := cur + off
    let key := enKey p tcp
    if p.syn tcp then
      let val : map_val_t := { ts_val_s := p.tsval ts }
      (.TC_ACT_OK, { c with conntrack_map := c.conntrack_map.putAny key val }, p)
    else
      match c.conntrack_map.lookup key with
      | none => (.TC_ACT_SHOT, c, p)
      | some val =>
        -- the timestamp goes into a copy of the entry, which is not written back
        let val := { val with ts_val_s := p.tsval ts }
        (.TC_ACT_OK, c, p.put32 (ts + 2) val.hybrid_cookie)

/-- The program. -/
def xdp_router (c : Client) (p : Pkt) : tc_action × Client × Pkt :=
  match parseHeaders p with
  | .drop => (.TC_ACT_SHOT, c, p)
  | .pass => (.TC_ACT_OK, c, p)
  | .tcp tcp tcphdr_len => if 32 ≤ tcphdr_len then xdpTcp c p tcp else (.TC_ACT_OK, c, p)

end client_en

namespace client_in

/-- The first frame fills the two tables. -/
def initTables (c : Client) : Client :=
  if c.init then c
  else { c with init := true, map_cookies := fun i => i, map_seeds := fun i => i.setWidth 32 }

/-- An ACK of a known flow: its echo is the cookie of the flow, and the local
host gets the timestamp of the entry in its place. -/
def ackBranch (K : Helpers) (c : Client) (p : Pkt) (tcp ts : Nat) (val : map_val_t) :
    xdp_action × Client × Pkt :=
  let key := inKey p tcp
  let new_tsecr := val.ts_val_s
  let old_tsecr := p.tsecr ts
  let val := { val with hybrid_cookie := p.tsecr ts }
  let p := p.put32 (ts + 6) val.ts_val_s
  let c := { c with conntrack_map := c.conntrack_map.putExist key val }
  let tcp_csum : U64 := (p.tcp_check tcp).setWidth 64
  let csum := K.bpf_csum_diff (bytes32 old_tsecr) (bytes32 new_tsecr) ((~~~tcp_csum).setWidth 32)
  (.XDP_PASS, c, p.put16 (tcp + 16) (csum_fold_helper_64 csum))

/-- The part of the program for a TCP header of at least 32 bytes. For a flow
without an entry the read of the entry fails. -/
def xdpTcp (K : Helpers) (c : Client) (p : Pkt) (tcp : Nat) : xdp_action × Client × Pkt :=
  if p.ack tcp then
    let cur := tcp + 20
    match parse_timestamp p cur tcp with
    | none => (.XDP_DROP, c, p)
    | some off =>
      match c.conntrack_map.lookup (inKey p tcp) with
      | none => (.XDP_DROP, c, p)
      | some val => ackBranch K c p tcp (cur + off) val
  else (.XDP_PASS, c, p)

/-- The program. -/
def xdp_router (K : Helpers) (c : Client) (p : Pkt) : xdp_action × Client × Pkt :=
  let c := initTables c
  match parseHeaders p with
  | .drop => (.XDP_DROP, c, p)
  | .pass => (.XDP_PASS, c, p)
  | .tcp tcp tcphdr_len => if 32 ≤ tcphdr_len then xdpTcp K c p tcp else (.XDP_PASS, c, p)

theorem initTables_map (c : Client) : (initTables c).conntrack_map = c.conntrack_map := by
  unfold initTables
  split <;> rfl

end client_in

namespace client

/-! ## Frames with a timestamp option -/

/-- Where the TCP header and the timestamp option are, in a frame with a TCP
header of 32 bytes or more whose option is found. -/
def stampView (p : Pkt) : Option (Nat × Nat) :=
  match parseHeaders p with
  | .tcp tcp tcphdr_len =>
    if 32 ≤ tcphdr_len then (parse_timestamp p (tcp + 20) tcp).map fun off => (tcp, tcp + 20 + off)
    else none
  | _ => none

theorem stampView_some {p : Pkt} {tcp ts : Nat} (h : stampView p = some (tcp, ts)) :
    ∃ len off, parseHeaders p = .tcp tcp len ∧ 32 ≤ len ∧
      parse_timestamp p (tcp + 20) tcp = some off ∧
      ts = tcp + 20 + off := by
  unfold stampView at h
  split at h
  · rename_i tcp' len hparse
    split at h
    · rename_i hlen
      obtain ⟨off, hoff, hpair⟩ := Option.map_eq_some_iff.mp h
      obtain ⟨rfl, rfl⟩ := Prod.mk.inj hpair
      exact ⟨len, off, hparse, hlen, hoff, rfl⟩
    · cases h
  · cases h

section

variable {K : Helpers} {c : Client} {p : Pkt} {tcp ts : Nat}

/-- What `client_en` does with a frame that has the option. -/
theorem egress_some (h : stampView p = some (tcp, ts)) :
    client_en.xdp_router c p =
      if p.syn tcp then
        (.TC_ACT_OK,
          { c with
            conntrack_map := c.conntrack_map.putAny (enKey p tcp) { ts_val_s := p.tsval ts } }, p)
      else
        match c.conntrack_map.lookup (enKey p tcp) with
        | none => (.TC_ACT_SHOT, c, p)
        | some val => (.TC_ACT_OK, c, p.put32 (ts + 2) val.hybrid_cookie) := by
  obtain ⟨len, off, hparse, hlen, hoff, rfl⟩ := stampView_some h
  unfold client_en.xdp_router
  rw [hparse]
  dsimp only
  rw [if_pos hlen]
  unfold client_en.xdpTcp
  simp only [hoff]

theorem egress_none (h : stampView p = none) : (client_en.xdp_router c p).2.1 = c := by
  unfold client_en.xdp_router
  unfold stampView at h
  cases hparse : parseHeaders p with
  | drop => rfl
  | pass => rfl
  | tcp tcp len =>
    simp only [hparse] at h
    dsimp only
    split
    · rename_i hlen
      rw [if_pos hlen, Option.map_eq_none_iff] at h
      unfold client_en.xdpTcp
      dsimp only
      rw [h]
    · rfl

/-- What `client_in` does with an ACK that has the option. -/
theorem ingress_some (h : stampView p = some (tcp, ts)) (hack : p.ack tcp = true) :
    client_in.xdp_router K c p =
      match c.conntrack_map.lookup (inKey p tcp) with
      | none => (.XDP_DROP, client_in.initTables c, p)
      | some val => client_in.ackBranch K (client_in.initTables c) p tcp ts val := by
  obtain ⟨len, off, hparse, hlen, hoff, rfl⟩ := stampView_some h
  unfold client_in.xdp_router
  rw [hparse]
  dsimp only
  rw [if_pos hlen]
  unfold client_in.xdpTcp
  dsimp only
  rw [hack, if_pos rfl, hoff, client_in.initTables_map]

/-- Only such an ACK of a known flow changes the map. -/
theorem ingress_map (K : Helpers) (c : Client) (p : Pkt) :
    (client_in.xdp_router K c p).2.1.conntrack_map = c.conntrack_map ∨
      ∃ tcp ts val, stampView p = some (tcp, ts) ∧ c.conntrack_map.lookup (inKey p tcp) = some val ∧
        (client_in.xdp_router K c p).2.1.conntrack_map =
          c.conntrack_map.putExist (inKey p tcp) { val with hybrid_cookie := p.tsecr ts } := by
  unfold client_in.xdp_router stampView
  cases hparse : parseHeaders p with
  | drop => exact .inl (client_in.initTables_map c)
  | pass => exact .inl (client_in.initTables_map c)
  | tcp tcp len =>
    dsimp only
    by_cases hlen : 32 ≤ len
    · rw [if_pos hlen, if_pos hlen]
      unfold client_in.xdpTcp
      split
      · dsimp only
        cases hoff : parse_timestamp p (tcp + 20) tcp with
        | none => exact .inl (client_in.initTables_map c)
        | some off =>
          dsimp only
          rw [client_in.initTables_map]
          cases hval : c.conntrack_map.lookup (inKey p tcp) with
          | none => exact .inl (client_in.initTables_map c)
          | some val =>
            refine .inr ⟨tcp, tcp + 20 + off, val, rfl, hval, ?_⟩
            dsimp only [client_in.ackBranch]
            rw [client_in.initTables_map]
      · exact .inl (client_in.initTables_map c)
    · rw [if_neg hlen, if_neg hlen]
      exact .inl (client_in.initTables_map c)

end

/-! ## Runs of the client agent -/

/-- A frame of the local host, or a frame for it. -/
inductive ClientEvent where
  | egress (p : Pkt)
  | ingress (p : Pkt)

def clientStep (K : Helpers) (c : Client) : ClientEvent → Client
  | .egress p => (client_en.xdp_router c p).2.1
  | .ingress p => (client_in.xdp_router K c p).2.1

/-- The timestamp of a segment of the flow `k` that `client_en` lets pass, as the
local host has it. -/
def sent (k : map_key_t) (c : Client) : ClientEvent → Option U32
  | .ingress _ => none
  | .egress p =>
    match stampView p with
    | none => none
    | some (tcp, ts) =>
      if enKey p tcp = k ∧ (client_en.xdp_router c p).1 = .TC_ACT_OK then some (p.tsval ts)
      else none

/-- The timestamp of a SYN of the flow `k`. `client_en` lets each SYN pass. -/
def sentSyn (k : map_key_t) : ClientEvent → Option U32
  | .ingress _ => none
  | .egress p =>
    match stampView p with
    | none => none
    | some (tcp, ts) => if enKey p tcp = k ∧ p.syn tcp = true then some (p.tsval ts) else none

/-- The timestamp of the latest segment of the flow that passed. -/
def latest (K : Helpers) (k : map_key_t) (c : Client) (es : List ClientEvent) : Option U32 :=
  ((trace (clientStep K) (sent k) c es).filterMap id).getLast?

/-- The timestamp of the latest SYN of the flow. -/
def latestSyn (k : map_key_t) (es : List ClientEvent) : Option U32 :=
  (es.filterMap (sentSyn k)).getLast?

/-- The timestamp in the entry of a flow. -/
def stored (k : map_key_t) (c : Client) : Option U32 :=
  (c.conntrack_map.lookup k).map map_val_t.ts_val_s

section

variable {K : Helpers} {k : map_key_t} {c : Client} {p : Pkt} {tcp ts : Nat} {t : U32}

theorem stored_ingress (K : Helpers) (k : map_key_t) (c : Client) (p : Pkt) :
    stored k (client_in.xdp_router K c p).2.1 = stored k c := by
  unfold stored
  rcases ingress_map K c p with h | ⟨tcp, ts, val, -, hval, h⟩
  · rw [h]
  · rw [h, BoundedMap.lookup_putExist]
    split
    · rename_i hk
      rw [hk.1, hval]
      rfl
    · rfl

/-- A segment of the local host that is no SYN of the flow leaves its entry, and a
SYN of the flow writes its timestamp, when the map has room. -/
theorem stored_egress (ht : stored k (client_en.xdp_router c p).2.1 = some t) :
    (sentSyn k (.egress p)).or (stored k c) = some t := by
  cases hview : stampView p with
  | none =>
    rw [egress_none hview] at ht
    simp only [sentSyn, hview, Option.none_or, ht]
  | some v =>
    obtain ⟨tcp, ts⟩ := v
    rw [egress_some hview] at ht
    simp only [sentSyn, hview]
    by_cases hsyn : p.syn tcp = true
    · rw [if_pos hsyn] at ht
      unfold stored at ht
      rw [BoundedMap.lookup_putAny] at ht
      by_cases hk : enKey p tcp = k
      · rw [if_pos ⟨hk, hsyn⟩]
        by_cases hroom : c.conntrack_map.HasRoom (enKey p tcp)
        · rw [if_pos ⟨hk.symm, hroom⟩] at ht
          exact ht
        · rw [if_neg fun h => hroom h.2, ← hk, BoundedMap.lookup_of_full hroom] at ht
          cases ht
      · rw [if_neg fun h => hk h.1]
        rw [if_neg fun h => hk h.1.symm] at ht
        exact ht
    · rw [if_neg hsyn] at ht
      rw [if_neg fun h => hsyn h.2]
      split at ht
      · exact ht
      · exact ht

theorem stored_step {e : ClientEvent} (ht : stored k (clientStep K c e) = some t) :
    (sentSyn k e).or (stored k c) = some t := by
  cases e with
  | egress p => exact stored_egress ht
  | ingress p => exact (stored_ingress K k c p).symm.trans ht

/-- After a run the entry has the timestamp of the latest SYN. -/
theorem stored_run {es : List ClientEvent} (ht : stored k (run (clientStep K) c es) = some t)
    (hc : stored k c = none) : latestSyn k es = some t := by
  have hstart : ∀ t, stored k c = some t → none = some t := by
    intro t ht
    rw [hc] at ht
    cases ht
  have hstep : ∀ (c : Client) (e : ClientEvent) (o : Option U32),
      (∀ t, stored k c = some t → o = some t) →
      ∀ t, stored k (clientStep K c e) = some t → (sentSyn k e).or o = some t := by
    intro c e o ho t ht
    have hstored := stored_step ht
    cases hsyn : sentSyn k e with
    | some v =>
      rw [hsyn] at hstored
      exact hstored
    | none =>
      rw [hsyn] at hstored
      exact ho t hstored
  have hinv : ∀ t, stored k (run (clientStep K) c es) = some t →
      (latestSyn k es).or none = some t :=
    run_written (fun o c => ∀ t, stored k c = some t → o = some t) (sentSyn k) hstep hstart
  rw [Option.or_none] at hinv
  exact hinv t ht

theorem sent_some (hview : stampView p = some (tcp, ts))
    (hpass : (client_en.xdp_router c p).1 = .TC_ACT_OK) :
    sent (enKey p tcp) c (.egress p) = some (p.tsval ts) := by
  simp only [sent, hview, hpass, and_self, if_true]

theorem sentSyn_some (hview : stampView p = some (tcp, ts)) (hsyn : p.syn tcp = true) :
    sentSyn (enKey p tcp) (.egress p) = some (p.tsval ts) := by
  simp only [sentSyn, hview, hsyn, and_self, if_true]

/-- An ACK that is handed to the local host has the timestamp of the entry as its echo. -/
theorem handed_tsecr (hview : stampView p = some (tcp, ts)) (hack : p.ack tcp = true)
    (hpass : (client_in.xdp_router K c p).1 = .XDP_PASS) :
    stored (inKey p tcp) c = some ((client_in.xdp_router K c p).2.2.tsecr ts) := by
  obtain ⟨len, off, -, -, -, rfl⟩ := stampView_some hview
  rw [ingress_some hview hack] at hpass ⊢
  unfold stored
  cases hval : c.conntrack_map.lookup (inKey p tcp) with
  | none =>
    rw [hval] at hpass
    cases hpass
  | some val =>
    dsimp only [client_in.ackBranch, Option.map_some]
    rw [Pkt.tsecr, Pkt.u32_put_ne _ _ _ _ _ (by omega), Pkt.u32_put_same]

end

/-- Behind any interleaving of frames of both directions, an ACK `q` is handed to
the local host. Its echo is the timestamp of the latest segment of the flow that
`client_en` passed just when this is also the timestamp of the latest SYN. -/
theorem the_client_echo_is_fresh_iff (K : Helpers) (es : List ClientEvent) (q : Pkt) (tcp ts : Nat)
    (hview : stampView q = some (tcp, ts)) (hack : q.ack tcp = true)
    (hpass : (client_in.xdp_router K (run (clientStep K) .boot es) q).1 = .XDP_PASS) :
    latest K (inKey q tcp) .boot es =
        some ((client_in.xdp_router K (run (clientStep K) .boot es) q).2.2.tsecr ts) ↔
      latest K (inKey q tcp) .boot es = latestSyn (inKey q tcp) es := by
  have hstored := handed_tsecr hview hack hpass
  rw [stored_run hstored rfl]

/-- A segment of the local host with its timestamp. -/
def hostSegment (flags : U8) (tsval : U32) : Pkt :=
  .segment client_ip server_ip 7 80 1 0 flags tsval 0

/-- An ACK for the local host, on the same flow. -/
def remoteAck : Pkt := .segment server_ip client_ip 80 7 0 0 0x10 9 5

theorem remoteAck_view : stampView remoteAck = some (34, 56) := by decide

theorem hostSyn_view : stampView (hostSegment 0x02 1) = some (34, 56) := by decide

theorem hostAck_view : stampView (hostSegment 0x10 2) = some (34, 56) := by decide

theorem host_flow (flags : U8) (tsval : U32) :
    enKey (hostSegment flags tsval) 34 = inKey remoteAck 34 := rfl

theorem hostSyn_step (K : Helpers) :
    clientStep K .boot (.egress (hostSegment 0x02 1)) =
      { Client.boot with
        conntrack_map := BoundedMap.empty.putAny (inKey remoteAck 34) { ts_val_s := 1 } } := by
  unfold clientStep
  dsimp only
  rw [egress_some hostSyn_view, if_pos (by decide), host_flow,
    show (hostSegment 0x02 1).tsval 56 = 1 by decide]
  rfl

theorem hostSyn_lookup (K : Helpers) :
    (clientStep K .boot (.egress (hostSegment 0x02 1))).conntrack_map.lookup (inKey remoteAck 34) =
      some { ts_val_s := 1 } := by
  have hroom : (BoundedMap.empty : Conntrack).HasRoom (inKey remoteAck 34) :=
    .inr (Nat.succ_pos 699999)
  rw [hostSyn_step]
  exact (BoundedMap.lookup_putAny _ _ _ _).trans (if_pos ⟨rfl, hroom⟩)

theorem hostSyn_sent : sent (inKey remoteAck 34) .boot (.egress (hostSegment 0x02 1)) = some 1 := by
  have hpass : (client_en.xdp_router .boot (hostSegment 0x02 1)).1 = .TC_ACT_OK := by
    rw [egress_some hostSyn_view, if_pos (by decide)]
  rw [← host_flow 0x02 1, sent_some hostSyn_view hpass]
  decide

theorem remoteAck_handed (K : Helpers) :
    (client_in.xdp_router K (clientStep K .boot (.egress (hostSegment 0x02 1))) remoteAck).1 =
      .XDP_PASS := by
  rw [ingress_some remoteAck_view (by decide), hostSyn_lookup]
  rfl

/-- Behind the SYN with the timestamp 1 the ACK echoes 1. -/
theorem the_client_echo_behind_the_syn :
    latest server.kernelHelpers (inKey remoteAck 34) .boot [.egress (hostSegment 0x02 1)] =
      some ((client_in.xdp_router server.kernelHelpers
        (run (clientStep server.kernelHelpers) .boot [.egress (hostSegment 0x02 1)])
          remoteAck).2.2.tsecr 56) := by
  refine (the_client_echo_is_fresh_iff server.kernelHelpers [.egress (hostSegment 0x02 1)]
    remoteAck 34 56 remoteAck_view (by decide) (remoteAck_handed _)).mpr ?_
  have hsyn : sentSyn (inKey remoteAck 34) (.egress (hostSegment 0x02 1)) = some 1 := by
    rw [← host_flow 0x02 1, sentSyn_some hostSyn_view (by decide)]
    decide
  have hlast :
      latest server.kernelHelpers (inKey remoteAck 34) .boot [.egress (hostSegment 0x02 1)] =
        some 1 := by
    unfold latest
    rw [trace, trace, hostSyn_sent]
    rfl
  rw [hlast, latestSyn, List.filterMap_cons, hsyn]
  rfl

/-- A segment with the timestamp 2 passes behind the SYN, and the ACK still echoes 1. -/
theorem the_client_echo_behind_a_segment_is_old :
    latest server.kernelHelpers (inKey remoteAck 34) .boot
        [.egress (hostSegment 0x02 1), .egress (hostSegment 0x10 2)] = some 2 ∧
      (client_in.xdp_router server.kernelHelpers
        (run (clientStep server.kernelHelpers) .boot
          [.egress (hostSegment 0x02 1), .egress (hostSegment 0x10 2)]) remoteAck).1 = .XDP_PASS ∧
      (client_in.xdp_router server.kernelHelpers
        (run (clientStep server.kernelHelpers) .boot
          [.egress (hostSegment 0x02 1), .egress (hostSegment 0x10 2)]) remoteAck).2.2.tsecr 56 =
          1 := by
  have hlookup := hostSyn_lookup server.kernelHelpers
  have hpass := remoteAck_handed server.kernelHelpers
  obtain ⟨c, hc⟩ : ∃ c, clientStep server.kernelHelpers .boot (.egress (hostSegment 0x02 1)) = c :=
    ⟨_, rfl⟩
  rw [hc] at hlookup hpass
  have hegress : client_en.xdp_router c (hostSegment 0x10 2) =
      (.TC_ACT_OK, c, (hostSegment 0x10 2).put32 58 0) := by
    rw [egress_some hostAck_view, if_neg (by decide), host_flow, hlookup]
  have hsent : sent (inKey remoteAck 34) c (.egress (hostSegment 0x10 2)) = some 2 := by
    rw [← host_flow 0x10 2, sent_some hostAck_view (congrArg (·.1) hegress)]
    decide
  have hstay : clientStep server.kernelHelpers c (.egress (hostSegment 0x10 2)) = c :=
    congrArg (·.2.1) hegress
  rw [run_cons, hc, run_cons, hstay, run_nil]
  refine ⟨?_, hpass, ?_⟩
  · unfold latest
    rw [trace, hostSyn_sent, hc, trace, hsent]
    rfl
  · have hstored := handed_tsecr remoteAck_view (by decide) hpass
    unfold stored at hstored
    rw [hlookup] at hstored
    exact (Option.some.inj hstored).symm

end client

end edge_cookie
