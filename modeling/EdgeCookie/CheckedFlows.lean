-- The flow block of the two gateways, and the flows that smartcookie has
-- checked: the block tells two flows apart but for the destination port, and a
-- checked flow stays in the filter whatever comes between.
import EdgeCookie.Checksum
import EdgeCookie.Runs
import EdgeCookie.SmartChecks

namespace edge_cookie

open bytes headers runs ones_sum
open switch_agent (recordFlow recordFlow_self tcpAt plainAgent client_ip server_ip)
open server (map_key_t inKey)

/-! ## The first 12 bytes of the flow block -/

theorem bytes16_inj {x y : U16} (h : bytes16 x = bytes16 y) : x = y :=
  BitVec.eq_of_toNat_eq (by rw [← listNum_bytes16, h, listNum_bytes16])

theorem bytes32_inj {x y : U32} (h : bytes32 x = bytes32 y) : x = y :=
  BitVec.eq_of_toNat_eq (by rw [← listNum_bytes32, h, listNum_bytes32])

namespace smartcookie

theorem recordFlow_key (a : switch_agent.Agent) (p : Pkt) (w : Nat) :
    ((recordFlow a p w).flows w).bytes.take 12 = flowKey p := by
  rw [recordFlow_self]
  rfl

theorem record_key (a : Agent) (p : Pkt) (w : Nat) :
    flowBytes ((record a p w).flows w) 12 = flowKey p := by
  rw [record_flow, flowBytes_flowOf]

/-- Two frames have one key just when they agree in the addresses and the source
port: the block has the source port twice. -/
theorem flowKey_eq_iff (p q : Pkt) :
    flowKey p = flowKey q ↔
      p.saddr = q.saddr ∧ p.daddr = q.daddr ∧ p.source tcpAt = q.source tcpAt := by
  constructor
  · intro h
    obtain ⟨h, -⟩ := List.append_inj' h rfl
    obtain ⟨h, hsource⟩ := List.append_inj' h rfl
    obtain ⟨hsaddr, hdaddr⟩ := List.append_inj' h rfl
    exact ⟨bytes32_inj hsaddr, bytes32_inj hdaddr, bytes16_inj hsource⟩
  · rintro ⟨hsaddr, hdaddr, hsource⟩
    unfold flowKey
    rw [hsaddr, hdaddr, hsource]

theorem inKey_eq {p q : Pkt} {t u : Nat} (hsaddr : p.saddr = q.saddr) (hdaddr : p.daddr = q.daddr)
    (hsource : p.source t = q.source u) (hdest : p.dest t = q.dest u) : inKey p t = inKey q u := by
  unfold inKey
  rw [hsaddr, hdaddr, hsource, hdest]

theorem flowKey_of_inKey {p q : Pkt} (h : inKey q tcpAt = inKey p tcpAt) :
    flowKey q = flowKey p := by
  injection h with hsaddr hdaddr hsource _
  exact (flowKey_eq_iff q p).mpr ⟨hsaddr, hdaddr, hsource⟩

end smartcookie

/-- The two frames are no pair that only the destination port tells apart. -/
def NotByPortAlone (p q : Pkt) : Prop :=
  p.dest tcpAt = q.dest tcpAt ∨ p.saddr ≠ q.saddr ∨ p.daddr ≠ q.daddr ∨
    p.source tcpAt ≠ q.source tcpAt

theorem keys_differ_iff (p q : Pkt) :
    (inKey p tcpAt ≠ inKey q tcpAt → smartcookie.flowKey p ≠ smartcookie.flowKey q) ↔
      NotByPortAlone p q := by
  constructor
  · intro h
    by_contra hnot
    simp only [NotByPortAlone, not_or, not_not] at hnot
    obtain ⟨hport, hsame⟩ := hnot
    exact h (fun hkey => hport (congrArg map_key_t.dst_port hkey))
      ((smartcookie.flowKey_eq_iff p q).mpr hsame)
  · intro h hne hkey
    obtain ⟨hsaddr, hdaddr, hsource⟩ := (smartcookie.flowKey_eq_iff p q).mp hkey
    rcases h with h | h | h | h
    · exact hne (smartcookie.inKey_eq hsaddr hdaddr hsource h)
    · exact h hsaddr
    · exact h hdaddr
    · exact h hsource

/-- Two frames of different flows get different keys, in either gateway, just
when not the destination port alone tells them apart. -/
theorem flow_keys_differ_iff (a a' : switch_agent.Agent) (b b' : smartcookie.Agent) (p q : Pkt)
    (w : Nat) :
    ((inKey p tcpAt ≠ inKey q tcpAt →
        ((recordFlow a p w).flows w).bytes.take 12 ≠ ((recordFlow a' q w).flows w).bytes.take 12) ↔
      NotByPortAlone p q) ∧
    ((inKey p tcpAt ≠ inKey q tcpAt →
        smartcookie.flowBytes ((smartcookie.record b p w).flows w) 12 ≠
          smartcookie.flowBytes ((smartcookie.record b' q w).flows w) 12) ↔
      NotByPortAlone p q) := by
  rw [smartcookie.recordFlow_key, smartcookie.recordFlow_key, smartcookie.record_key,
    smartcookie.record_key]
  exact ⟨keys_differ_iff p q, keys_differ_iff p q⟩

/-- A web server with two ports: a segment to port 80 and one to port 443. -/
def segmentTo (dest : U16) : Pkt := .segment client_ip server_ip 7 dest 0 0 0x10 0 0

/-- The flows to the two ports have one key. -/
theorem two_ports_have_one_key :
    inKey (segmentTo 80) tcpAt ≠ inKey (segmentTo 443) tcpAt ∧
      ((recordFlow plainAgent (segmentTo 80) 0).flows 0).bytes.take 12 =
        ((recordFlow plainAgent (segmentTo 443) 0).flows 0).bytes.take 12 ∧
      smartcookie.flowBytes ((smartcookie.record .boot (segmentTo 80) 0).flows 0) 12 =
        smartcookie.flowBytes ((smartcookie.record .boot (segmentTo 443) 0).flows 0) 12 := by
  have hkey : smartcookie.flowKey (segmentTo 80) = smartcookie.flowKey (segmentTo 443) := by decide
  rw [smartcookie.recordFlow_key, smartcookie.recordFlow_key, smartcookie.record_key,
    smartcookie.record_key]
  refine ⟨fun h => ?_, hkey, hkey⟩
  have hport : (segmentTo 80).dest tcpAt ≠ (segmentTo 443).dest tcpAt := by decide
  exact hport (congrArg map_key_t.dst_port h)

/-! ## Checked flows over a run -/

namespace smartcookie

section

variable {o : Options} {a : Agent} {p : Pkt} {w : Nat} {ts : Option Nat}

/-- A check that an ACK passes brings its flow into the filter, also when the
frame goes nowhere. -/
theorem learned (hdrop : o.opt_drop = false) (hforward : o.opt_forward = false) (htcp : IsTcp p)
    (hack : p.ack tcpAt = true) (hsyn : p.syn tcpAt = false) (hstamp : stamp p = some ts)
    (hnew : bloom_filter_test a.bf (flowKey p) = false) (hcheck : synCheck p = true)
    (hsize : 0 < a.bf.vect.size) {b : Agent} (hb : agentStep o a (p, 0, w) = some b) :
    bloom_filter_test b.bf (flowKey p) = true := by
  unfold agentStep at hb
  dsimp only at hb
  rw [processor_ack hdrop hforward htcp hstamp hack hsyn, inboundAck_checked hnew hcheck] at hb
  obtain ⟨r, hr, rfl⟩ := Option.map_eq_some_iff.mp hb
  rw [forwardAck_bf hr]
  exact bloom_filter_test_put (flowKey p) hsize

theorem bf_run {c : Agent} {fs : List (Pkt × Nat × Nat)} (h : runM (agentStep o) a fs = some c) :
    a.bf.Extends c.bf :=
  runM_invariant (fun c => a.bf.Extends c.bf) (fun _ _ _ hstep h => h.trans (bf_agentStep hstep)) h
    (.refl _)

theorem size_run {rands : List (U32 × U32 × U32)} {before : List (Pkt × Nat × Nat)}
    (ha : runM (agentStep o) (add_bf .boot rands) before = some a) : 0 < a.bf.vect.size := by
  rw [((bf_add_bf rands).trans (bf_run ha)).size]
  exact Nat.succ_pos 3145727

end

/-- An ACK `p` passes the SYN cookie check. Behind any packets `fs`, on any
workers, an ACK `q` of the same flow is forwarded, whatever its numbers are. -/
theorem a_checked_flow_is_never_dropped (o : Options) (a b c : Agent) (p q : Pkt) (w v : Nat)
    (ts : Option Nat) (ts' : Nat) (rands : List (U32 × U32 × U32))
    (before fs : List (Pkt × Nat × Nat)) (hdrop : o.opt_drop = false)
    (hforward : o.opt_forward = false)
    (ha : runM (agentStep o) (add_bf .boot rands) before = some a) (htcp : IsTcp p)
    (hack : p.ack tcpAt = true) (hsyn : p.syn tcpAt = false) (hstamp : stamp p = some ts)
    (hnew : bloom_filter_test a.bf (flowKey p) = false) (hcheck : synCheck p = true)
    (hb : agentStep o a (p, 0, w) = some b) (hc : runM (agentStep o) b fs = some c)
    (hq : AckWithStamp q ts') (hflow : inKey q tcpAt = inKey p tcpAt) (hdest : Configured q) :
    ∃ r, xsknf_packet_processor o c q 0 v = some r ∧ r.1 ≠ -1 := by
  have hknown := learned hdrop hforward htcp hack hsyn hstamp hnew hcheck (size_run ha) hb
  rw [← flowKey_of_inKey hflow] at hknown
  obtain ⟨r, hr, hout⟩ :=
    processor_passes (w := v) hdrop hforward hq (.inl ((bf_run hc).test hknown))
  exact ⟨r, hr, hout ▸ (forward_ne_iff q).mpr hdest⟩

/-- An ACK of a client with the number that its SYN cookie asks for. -/
def checkedAck : Pkt := .segment client_ip server_ip 7 80 0 2690342156 0x10 5 6

/-- A later segment of the same flow with any number. -/
def laterAck : Pkt := .segment client_ip server_ip 7 80 9 0 0x10 5 6

theorem checkedAck_synCheck : synCheck checkedAck = true := by decide

theorem stamp_checkedAck : stamp checkedAck = some (some 56) := by decide

theorem checkedAck_new : bloom_filter_test Agent.boot.bf (flowKey checkedAck) = false := by decide

theorem checkedAck_learned :
    ∃ b, agentStep {} .boot (checkedAck, 0, 0) = some b ∧
      bloom_filter_test b.bf (flowKey checkedAck) = true := by
  have htcp : IsTcp checkedAck := by decide
  have hack : checkedAck.ack tcpAt = true := by decide
  have hsyn : checkedAck.syn tcpAt = false := by decide
  obtain ⟨b, hb⟩ : ∃ b, agentStep {} .boot (checkedAck, 0, 0) = some b := by
    unfold agentStep
    rw [processor_ack rfl rfl htcp stamp_checkedAck hack hsyn,
      inboundAck_checked checkedAck_new checkedAck_synCheck, forwardAck_some]
    exact ⟨_, rfl⟩
  have hsize : 0 < Agent.boot.bf.vect.size := Nat.succ_pos 3145727
  exact ⟨b, hb,
    learned rfl rfl htcp hack hsyn stamp_checkedAck checkedAck_new checkedAck_synCheck hsize hb⟩

theorem the_later_ack_of_a_checked_flow :
    synCheck checkedAck = true ∧ synCheck laterAck = false ∧
      ∃ b r, agentStep {} .boot (checkedAck, 0, 0) = some b ∧
        xsknf_packet_processor {} b laterAck 0 1 = some r ∧ r.1 ≠ -1 := by
  obtain ⟨b, hb, -⟩ := checkedAck_learned
  have hlater : AckWithStamp laterAck 56 := ⟨by decide, by decide, by decide, by decide⟩
  have hflow : inKey laterAck tcpAt = inKey checkedAck tcpAt :=
    inKey_eq (by decide) (by decide) (by decide) (by decide)
  obtain ⟨r, hr⟩ :=
    a_checked_flow_is_never_dropped {} .boot b b checkedAck laterAck 0 1 (some 56) 56
    [] [] [] rfl rfl rfl (by decide) (by decide) (by decide) stamp_checkedAck checkedAck_new
    checkedAck_synCheck hb rfl hlater hflow (.inr (.inl (by decide)))
  exact ⟨checkedAck_synCheck, by decide, b, r, hb, hr⟩

end smartcookie

end edge_cookie
