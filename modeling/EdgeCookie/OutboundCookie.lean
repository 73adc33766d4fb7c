-- The cookie that the gateway writes into the SYN of a connection from the inside.
-- Its map part is checked when the answer of the remote host brings it back. Its
-- hash part is made of the block that an earlier inbound frame left, and always
-- with haraka, so the check of the hash part asks for another number.
import EdgeCookie.HybridCookie
import EdgeCookie.KeyTables

namespace edge_cookie.switch_agent

open bytes headers runs
open server (inKey enKey)

/-- An outbound SYN whose timestamp option is at `ts`. -/
structure OutboundSyn (p : Pkt) (ts : Nat) : Prop where
  proto : ¬ (p.h_proto ≠ htons ETH_P_IP ∧ p.protocol ≠ IPPROTO_TCP)
  ece : p.ece tcpAt = false
  syn : p.syn tcpAt = true
  ack : p.ack tcpAt = false
  stamp : ackTs p = some ts

/-- An inbound ACK whose timestamp option is at `ts`. -/
structure InboundAck (p : Pkt) (ts : Nat) : Prop where
  proto : ¬ (p.h_proto ≠ htons ETH_P_IP ∧ p.protocol ≠ IPPROTO_TCP)
  syn : p.syn tcpAt = false
  ack : p.ack tcpAt = true
  stamp : ackTs p = some ts

section

variable {o : Options} {a b : Agent} {p q : Pkt} {ifindex w ts ts' : Nat}

/-- The SYN is sent on with the cookie as its timestamp, and the agent stays. -/
theorem processor_mints (hdrop : o.opt_drop = false) (hforward : o.opt_forward = false)
    (hi : ifindex ≠ 0) (hp : OutboundSyn p ts) :
    (xsknf_packet_processor o a p ifindex w).2.1 = a ∧
      (xsknf_packet_processor o a p ifindex w).2.2.tsval ts =
        htonl (outboundCookie a p.daddr w) := by
  have hsyn : (p.syn tcpAt && !p.ack tcpAt) = true := by
    rw [hp.syn, hp.ack]
    rfl
  have hge : 54 ≤ ts := (ackTs_inside hp.stamp).1
  rw [processor_outbound hdrop hforward hp.proto hi, outbound_syn_some hp.ece hsyn hp.stamp]
  refine ⟨rfl, ?_⟩
  unfold Pkt.tsval withOutboundCookie
  rw [(forward_sameFrom _).u32 (by omega), Pkt.u32_put_ne _ _ _ _ _ (.inr (by unfold tcpAt; omega)),
    Pkt.u32_put_same]

/-! ## The cookie on its return -/

theorem mapCheck_outbound_iff (hecho : q.tsecr ts' = htonl (outboundCookie a q.saddr w)) :
    MapCheck b q ts' ↔
      mapCookie q.saddr (a.map_seeds (seedKey q.saddr)) =
        mapCookie q.saddr (b.map_seeds (seedKey q.saddr)) := by
  unfold MapCheck outboundCookie at *
  rw [hecho, ntohl_htonl]
  change mapBits _ = _ ↔ _
  rw [mapBits_or]
  rfl

theorem hashCheck_outbound_iff (hecho : q.tsecr ts' = htonl (outboundCookie a q.saddr w)) :
    HashCheck o b q w ts' ↔ (b.change_key_duration ≠ 0 ∨ o.opt_change_key) ∧
      foldBits (haraka256 (a.flows w).bytes) = foldBits (synCookie o b q w) := by
  unfold HashCheck outboundCookie at *
  rw [hecho, ntohl_htonl, hashBits_eq_iff, hashBits_or]
  rfl

/-- An ACK that brings the cookie back passes through one of the two checks. -/
theorem processor_returns_iff (hdrop : o.opt_drop = false) (hforward : o.opt_forward = false)
    (hq : InboundAck q ts) (hne : q.tsecr ts ≠ TS_START) :
    (xsknf_packet_processor o b q 0 w).1 ≠ -1 ↔ MapCheck b q ts ∨ HashCheck o b q w ts := by
  rw [processor_ack hdrop hforward hq.proto hq.syn hq.ack, inboundAck_passes_iff]
  have hsame : ∀ {ts'}, ackTs q = some ts' → ts' = ts :=
    fun h => (Option.some.inj (hq.stamp.symm.trans h)).symm
  constructor
  · intro h
    cases h with
    | syn ts' h1 h2 h3 =>
      obtain rfl := hsame h1
      exact absurd h2 hne
    | map ts' h1 h2 h3 =>
      obtain rfl := hsame h1
      exact .inl h3
    | hash ts' h1 h2 h3 =>
      obtain rfl := hsame h1
      exact .inr h3
  · rintro (h | h)
    · exact .map ts hq.stamp hne h
    · exact .hash ts hq.stamp hne h

end

/-- The chosen hash of the connection of an inbound frame, as the check has it. -/
def connectionHash (o : Options) (salt : Fin 5 → U32) (q : Pkt) : U32 :=
  hashcookie o (flowOf salt q tcpAt) q.saddr q.daddr (q.source tcpAt) (q.dest tcpAt)

/-- Behind any frames, an outbound SYN `p` gets a cookie. Behind any more frames,
an ACK `q` of the same connection brings it back. With the seed of the remote host
as it was, the ACK passes the check of the map cookie. With a new seed and
`opt_change_key` it passes just when the two seeds give one map cookie, or the
block that the worker had at the SYN gives 14 bits of the hash of the connection. -/
theorem an_outbound_cookie_returns_iff (o : Options) (salt : Nat → Fin 5 → U32) (a b : Agent)
    (p q : Pkt) (ifindex w ts ts' : Nat) (before fs : List (Pkt × Nat × Nat))
    (hdrop : o.opt_drop = false) (hforward : o.opt_forward = false)
    (ha : run (agentStep o) (.boot salt) before = a) (hi : ifindex ≠ 0) (hp : OutboundSyn p ts)
    (hb : run (agentStep o) (xsknf_packet_processor o a p ifindex w).2.1 fs = b)
    (hq : InboundAck q ts') (hconnection : inKey q tcpAt = enKey p tcpAt)
    (hecho : q.tsecr ts' = (xsknf_packet_processor o a p ifindex w).2.2.tsval ts)
    (hne : q.tsecr ts' ≠ TS_START) :
    (b.map_seeds (seedKey p.daddr) = a.map_seeds (seedKey p.daddr) →
      MapCheck b q ts' ∧ (xsknf_packet_processor o b q 0 w).1 ≠ -1) ∧
    (o.opt_change_key = true → b.map_seeds (seedKey p.daddr) ≠ a.map_seeds (seedKey p.daddr) →
      ((xsknf_packet_processor o b q 0 w).1 ≠ -1 ↔
        mapCookie p.daddr (a.map_seeds (seedKey p.daddr)) =
          mapCookie p.daddr (b.map_seeds (seedKey p.daddr)) ∨
          foldBits (haraka256 (a.flows w).bytes) = foldBits (connectionHash o (salt w) q))) := by
  have hremote : p.daddr = q.saddr := (congrArg server.map_key_t.src_ip hconnection).symm
  obtain ⟨hagent, hcookie⟩ := processor_mints (a := a) (w := w) hdrop hforward hi hp
  rw [hcookie, hremote] at hecho
  rw [hremote]
  have hmap := mapCheck_outbound_iff (b := b) hecho
  have hpass := processor_returns_iff (b := b) (w := w) hdrop hforward hq hne
  constructor
  · intro hseed
    have hcheck : MapCheck b q ts' := hmap.mpr (by rw [hseed])
    exact ⟨hcheck, hpass.mpr (.inl hcheck)⟩
  · intro hchange _
    have hsalt : (b.flows w).salt = salt w := by
      rw [← hb, agentRun_salt, hagent, ← ha, agentRun_salt]
      rfl
    have hhash : synCookie o b q w = connectionHash o (salt w) q := by
      unfold synCookie connectionHash
      rw [hsalt]
    rw [hpass, hmap, hashCheck_outbound_iff hecho, hhash]
    simp only [hchange, or_true, true_and]

def keyChanging : Options := { opt_change_key := true }

/-- A SYN from the inside to the client. -/
def insideSyn : Pkt := .segment server_ip client_ip 80 7 1 0 0x02 5 0

/-- An ACK of the client that brings a cookie back. -/
def returnAck (cookie : U32) : Pkt := .segment client_ip server_ip 7 80 0 0 0x10 5 cookie

/-- A segment of the client on the same connection, before the SYN. -/
def earlierRst : Pkt := .segment client_ip server_ip 7 80 0 0 0x04 0 0

/-- A new seed for the client. -/
def clientSeed : Pkt :=
  (Pkt.segment server_ip client_ip 0 0 9 0 0x40 0 0).put16 48 (seedKey client_ip)

theorem insideSyn_outbound : OutboundSyn insideSyn 56 :=
  ⟨by decide, by decide, by decide, by decide, by decide⟩

theorem returnAck_connection (cookie : U32) :
    inKey (returnAck cookie) tcpAt = enKey insideSyn tcpAt := rfl

/-- The gateway behind that segment. -/
def seenAgent : Agent := run (agentStep keyChanging) plainAgent [(earlierRst, 0, 0)]

theorem seenAgent_block : seenAgent.flows 0 = flowOf (fun _ => 0) (returnAck 3004425382) tcpAt := by
  have hproc : xsknf_packet_processor keyChanging plainAgent earlierRst 0 0 =
      ((forward earlierRst).1, recordFlow plainAgent earlierRst 0, (forward earlierRst).2) := by
    rw [processor_inbound rfl rfl (by decide), if_neg (by decide), if_neg (by decide)]
  unfold seenAgent
  rw [run_cons, run_nil]
  unfold agentStep
  rw [hproc, recordFlow_self]
  unfold flowOf
  rw [show earlierRst.saddr = (returnAck 3004425382).saddr by decide,
    show earlierRst.daddr = (returnAck 3004425382).daddr by decide,
    show earlierRst.source tcpAt = (returnAck 3004425382).source tcpAt by decide]
  rfl

/-- When the worker has the block of the connection at the SYN, the ACK passes
also behind a new seed. -/
theorem an_outbound_cookie_returns :
    (xsknf_packet_processor keyChanging
      (run (agentStep keyChanging) (xsknf_packet_processor keyChanging seenAgent insideSyn 1 0).2.1
        [(clientSeed, 1, 0)])
      (returnAck 3004425382) 0 0).1 ≠ -1 := by
  have hecho : (returnAck 3004425382).tsecr 56 =
      (xsknf_packet_processor keyChanging seenAgent insideSyn 1 0).2.2.tsval 56 := by decide +kernel
  have hack : InboundAck (returnAck 3004425382) 56 := ⟨by decide, by decide, by decide, by decide⟩
  have hreturns := an_outbound_cookie_returns_iff keyChanging (fun _ _ => 0) seenAgent _ insideSyn
    (returnAck 3004425382) 1 0 56 56 [(earlierRst, 0, 0)] [(clientSeed, 1, 0)] rfl rfl
      rfl (by decide)
    insideSyn_outbound rfl hack (returnAck_connection _) hecho (by decide)
  refine (hreturns.2 rfl (by decide +kernel)).mpr (.inr ?_)
  rw [seenAgent_block]
  rfl

/-- A worker that has seen no frame of the connection makes a cookie that does not
pass behind a new seed. -/
theorem an_outbound_cookie_is_refused :
    OutboundSyn insideSyn 56 ∧ InboundAck (returnAck 3004424748) 56 ∧
      inKey (returnAck 3004424748) tcpAt = enKey insideSyn tcpAt ∧
      (returnAck 3004424748).tsecr 56 =
        (xsknf_packet_processor keyChanging plainAgent insideSyn 1 0).2.2.tsval 56 ∧
      (returnAck 3004424748).tsecr 56 ≠ TS_START ∧
      (xsknf_packet_processor keyChanging
        (run (agentStep keyChanging)
          (xsknf_packet_processor keyChanging plainAgent insideSyn 1 0).2.1 [(clientSeed, 1, 0)])
        (returnAck 3004424748) 0 0).1 = -1 :=
  ⟨insideSyn_outbound, ⟨by decide, by decide, by decide, by decide⟩, returnAck_connection _,
    by decide +kernel, by decide, by decide +kernel⟩

end edge_cookie.switch_agent
