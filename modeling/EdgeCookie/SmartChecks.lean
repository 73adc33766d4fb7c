-- The gateway agent of smartcookie on one frame: which ACKs it lets pass, what
-- it changes in them, and what it puts into its filter.
import EdgeCookie.SmartAgent
import EdgeCookie.SynCookie

namespace edge_cookie.smartcookie

open bytes headers
open switch_agent (pkt_5tuple client_ip server_ip attacker_ip CLIENT_R_IF_ORDER SERVER_R_IF_ORDER
  ATTACKER_R_IF_ORDER replaceOpts replaceOpts_sameOn flowOf tcpAt)

/-! ## Forwarding -/

/-- A destination that the agent has a port for. -/
def Configured (p : Pkt) : Prop := p.daddr = client_ip ∨ p.daddr = server_ip ∨ p.daddr = attacker_ip

theorem forward_sameFrom (p : Pkt) : Pkt.SameFrom 12 p (forward p).2 := by
  unfold forward
  split_ifs
  · exact p.sameFrom_hardware rfl rfl
  · exact p.sameFrom_hardware rfl rfl
  · exact p.sameFrom_hardware rfl rfl
  · exact ⟨rfl, fun _ _ => rfl⟩

theorem forward_ne_iff (p : Pkt) : (forward p).1 ≠ -1 ↔ Configured p := by
  unfold forward Configured
  split_ifs with h1 h2 h3
  · exact iff_of_true (by decide : CLIENT_R_IF_ORDER ≠ -1) (.inl h1)
  · exact iff_of_true (by decide : SERVER_R_IF_ORDER ≠ -1) (.inr (.inl h2))
  · exact iff_of_true (by decide : ATTACKER_R_IF_ORDER ≠ -1) (.inr (.inr h3))
  · refine iff_of_false (not_not_intro rfl) ?_
    rintro (h | h | h)
    · exact h1 h
    · exact h2 h
    · exact h3 h

theorem forward_flag (p : Pkt) (i : Nat) : (forward p).2.flag tcpAt i = p.flag tcpAt i :=
  (forward_sameFrom p).flag (by decide) i

/-- The verdict depends on the destination alone. -/
theorem forward_verdict {p q : Pkt} (h : q.daddr = p.daddr) : (forward q).1 = (forward p).1 := by
  unfold forward
  rw [h]
  split_ifs <;> rfl

/-! ## The flow of a frame -/

/-- A TCP segment over IPv4, as the guard of the agent has it. -/
def IsTcp (p : Pkt) : Prop := ntohs p.h_proto = ETH_P_IP ∧ p.protocol = IPPROTO_TCP

instance (p : Pkt) : Decidable (IsTcp p) := inferInstanceAs (Decidable (_ ∧ _))

/-- The bytes of the flow of an inbound frame that go to the filter. -/
def flowKey (p : Pkt) : List U8 :=
  bytes32 p.saddr ++ bytes32 p.daddr ++ bytes16 (p.source tcpAt) ++ bytes16 (p.source tcpAt)

theorem flowBytes_flowOf (salt : Fin 5 → U32) (p : Pkt) :
    flowBytes (flowOf salt p tcpAt) 12 = flowKey p :=
  rfl

/-- The agent with the flow of an inbound frame in the slot of the worker. -/
def record (a : Agent) (p : Pkt) (w : Nat) : Agent := setFlow a w (flowOf (a.flows w).salt p tcpAt)

theorem record_flow (a : Agent) (p : Pkt) (w : Nat) :
    (record a p w).flows w = flowOf (a.flows w).salt p tcpAt := if_pos rfl

theorem record_bf (a : Agent) (p : Pkt) (w : Nat) : (record a p w).bf = a.bf := rfl

section

variable {o : Options} {a : Agent} {p : Pkt} {w : Nat} {ts : Option Nat}

/-- An inbound frame takes one of three ways, by its flags. -/
theorem processor_inbound (hdrop : o.opt_drop = false) (hforward : o.opt_forward = false)
    (htcp : IsTcp p) (hstamp : stamp p = some ts) :
    xsknf_packet_processor o a p 0 w =
      if p.syn tcpAt && !p.ack tcpAt then inboundSyn o (record a p w) p w ts
      else if p.ack tcpAt && !p.syn tcpAt then inboundAck o (record a p w) p w ts
      else some ((forward p).1, record a p w, (forward p).2) := by
  unfold xsknf_packet_processor
  dsimp only
  have htcp : ¬ ¬ (ntohs p.h_proto = ETH_P_IP ∧ p.protocol = IPPROTO_TCP) := not_not_intro htcp
  rw [hdrop, hforward, if_neg Bool.false_ne_true, if_neg htcp, if_neg Bool.false_ne_true, hstamp]
  rfl

theorem processor_drop (hdrop : o.opt_drop = true) :
    xsknf_packet_processor o a p 0 w = some (-1, a, p) := by
  unfold xsknf_packet_processor
  exact if_pos hdrop

theorem processor_forward (hdrop : o.opt_drop = false) (hforward : o.opt_forward = true)
    (htcp : IsTcp p) :
    xsknf_packet_processor o a p 0 w = some ((forward p).1, a, (forward p).2) := by
  unfold xsknf_packet_processor
  dsimp only
  have htcp : ¬ ¬ (ntohs p.h_proto = ETH_P_IP ∧ p.protocol = IPPROTO_TCP) := not_not_intro htcp
  rw [hdrop, hforward, if_neg Bool.false_ne_true, if_neg htcp]
  rfl

/-- A frame that is sent on has gone through in the mode that checks nothing, or
has gone past the search for its timestamp option. -/
theorem processor_sent {r : Int × Agent × Pkt} (h : xsknf_packet_processor o a p 0 w = some r)
    (hout : r.1 ≠ -1) :
    o.opt_drop = false ∧ IsTcp p ∧
      ((o.opt_forward = true ∧ r = ((forward p).1, a, (forward p).2)) ∨
        (o.opt_forward = false ∧ ∃ ts, stamp p = some ts)) := by
  have hne : ∀ {b : Agent} {q : Pkt}, some (-1, b, q) ≠ some r := by
    intro b q hr
    exact hout (congrArg (·.1) (Option.some.inj hr)).symm
  unfold xsknf_packet_processor at h
  dsimp only at h
  split at h
  · exact absurd h hne
  rename_i hdrop
  split at h
  · exact absurd h hne
  rename_i htcp
  refine ⟨Bool.eq_false_iff.mpr hdrop, not_not.mp htcp, ?_⟩
  split at h
  · rename_i hforward
    exact .inl ⟨hforward, (Option.some.inj h).symm⟩
  rename_i hforward
  split at h
  · exact absurd h hne
  · rename_i ts hstamp
    exact .inr ⟨Bool.eq_false_iff.mpr hforward, ts, hstamp⟩

theorem processor_syn (hdrop : o.opt_drop = false) (hforward : o.opt_forward = false)
    (htcp : IsTcp p) (hstamp : stamp p = some ts) (hsyn : p.syn tcpAt = true)
    (hack : p.ack tcpAt = false) :
    xsknf_packet_processor o a p 0 w = inboundSyn o (record a p w) p w ts := by
  rw [processor_inbound hdrop hforward htcp hstamp, hsyn, hack]
  rfl

theorem processor_ack (hdrop : o.opt_drop = false) (hforward : o.opt_forward = false)
    (htcp : IsTcp p) (hstamp : stamp p = some ts) (hack : p.ack tcpAt = true)
    (hsyn : p.syn tcpAt = false) :
    xsknf_packet_processor o a p 0 w = inboundAck o (record a p w) p w ts := by
  rw [processor_inbound hdrop hforward htcp hstamp, hsyn, hack]
  rfl

end

/-! ## ACKs -/

section

variable (o : Options) (a : Agent) (p : Pkt) (w ts : Nat) {lo hi : Nat}

theorem apacheOpts_sameOn
    (h : hi ≤ 16 ∨ (18 ≤ lo ∧ hi ≤ 24) ∨ (26 ≤ lo ∧ hi ≤ 46) ∨ (47 ≤ lo ∧ hi ≤ 50)) :
    Pkt.SameOn lo hi p (apacheOpts a p w ts).2 :=
  ((replaceOpts_sameOn p _ (by omega)).put (by unfold tcpAt; omega)).put (by unfold tcpAt; omega)

/-- What becomes of an ACK with a timestamp option behind the check. -/
def rewriteAck : Agent × Pkt :=
  if o.opt_ab_test && decide (p.tsecr ts = 1) && !psh p tcpAt then apacheOpts a p w ts else (a, p)

theorem rewriteAck_sameOn
    (h : hi ≤ 16 ∨ (18 ≤ lo ∧ hi ≤ 24) ∨ (26 ≤ lo ∧ hi ≤ 46) ∨ (47 ≤ lo ∧ hi ≤ 50)) :
    Pkt.SameOn lo hi p (rewriteAck o a p w ts).2 := by
  unfold rewriteAck
  split
  · exact apacheOpts_sameOn a p w ts h
  · exact Pkt.SameOn.refl _ _ _

theorem rewriteAck_bf : (rewriteAck o a p w ts).1.bf = a.bf := by
  unfold rewriteAck
  split <;> rfl

theorem forwardAck_some :
    forwardAck o a p w (some ts) =
      some ((forward (rewriteAck o a p w ts).2).1, (rewriteAck o a p w ts).1,
        (forward (rewriteAck o a p w ts).2).2) := rfl

end

/-- The agent behind a check that an ACK of the flow passed. -/
def learn (a : Agent) (p : Pkt) (w : Nat) : Agent :=
  { record a p w with bf := bloom_filter_put a.bf (flowKey p) }

section

variable {o : Options} {a : Agent} {p : Pkt} {w : Nat} {ts : Option Nat}

/-- An ACK of a flow in the filter goes on without a check. -/
theorem inboundAck_known (h : bloom_filter_test a.bf (flowKey p) = true) :
    inboundAck o (record a p w) p w ts = forwardAck o (record a p w) p w ts := by
  unfold inboundAck
  dsimp only
  rw [record_flow, flowBytes_flowOf]
  exact if_pos h

/-- The first ACK of a flow is tagged when it passes the check. -/
theorem inboundAck_checked (h : bloom_filter_test a.bf (flowKey p) = false)
    (hcheck : synCheck p = true) :
    inboundAck o (record a p w) p w ts = forwardAck o (learn a p w) (p.set_flag tcpAt 6) w ts := by
  unfold inboundAck
  dsimp only
  rw [record_flow, flowBytes_flowOf, if_neg (by exact Bool.eq_false_iff.mp h), hcheck,
    if_neg (by decide)]
  rfl

theorem inboundAck_refused (h : bloom_filter_test a.bf (flowKey p) = false)
    (hcheck : synCheck p = false) :
    inboundAck o (record a p w) p w ts = some (-1, record a p w, p) := by
  unfold inboundAck
  dsimp only
  rw [record_flow, flowBytes_flowOf, if_neg (by exact Bool.eq_false_iff.mp h), hcheck]
  rfl

end

/-- An inbound segment that the agent takes for an ACK, with a header of 32
bytes or more, whose timestamp option it finds at `ts`. -/
structure AckWithStamp (p : Pkt) (ts : Nat) : Prop where
  tcp : IsTcp p
  ack : p.ack tcpAt = true
  syn : p.syn tcpAt = false
  stamp : stamp p = some (some ts)

/-- An ACK of a flow in the filter, and one that passes the check, is forwarded
by its destination. -/
theorem processor_passes {o : Options} {a : Agent} {p : Pkt} {w ts : Nat}
    (hdrop : o.opt_drop = false) (hforward : o.opt_forward = false) (hp : AckWithStamp p ts)
    (hpass : bloom_filter_test a.bf (flowKey p) = true ∨ synCheck p = true) :
    ∃ r, xsknf_packet_processor o a p 0 w = some r ∧ r.1 = (forward p).1 := by
  have hout : ∀ (b : Agent) (q : Pkt), Pkt.SameOn 30 34 p q →
      (forward (rewriteAck o b q w ts).2).1 = (forward p).1 := by
    intro b q hq
    exact forward_verdict
      ((hq.trans (rewriteAck_sameOn o b q w ts (by decide))).u32 (by decide) (by decide))
  rw [processor_ack hdrop hforward hp.tcp hp.stamp hp.ack hp.syn]
  cases hbf : bloom_filter_test a.bf (flowKey p) with
  | true =>
    rw [inboundAck_known hbf, forwardAck_some]
    exact ⟨_, rfl, hout _ p (.refl _ _ _)⟩
  | false =>
    have hcheck : synCheck p = true := hpass.resolve_left (Bool.eq_false_iff.mp hbf)
    rw [inboundAck_checked hbf hcheck, forwardAck_some]
    exact ⟨_, rfl, hout _ _ ((Pkt.SameOn.refl _ _ _).put (by decide))⟩

/-! ## The filter over a run -/

/-- One packet of a run: the frame, its interface and the worker. `none` when
the agent stops. -/
def agentStep (o : Options) (a : Agent) (f : Pkt × Nat × Nat) : Option Agent :=
  (xsknf_packet_processor o a f.1 f.2.1 f.2.2).map (·.2.1)

section

variable {o : Options} {a : Agent} {p : Pkt} {w : Nat} {ts : Option Nat} {r : Int × Agent × Pkt}

/-- The answer to a SYN may change the options for SYN-ACKs, and nothing else. -/
theorem inboundSyn_agent (h : inboundSyn o a p w ts = some r) :
    ∃ s, r.2.1 = { a with sa_opts := s } := by
  have hanswer : ∀ ts, ∃ s, (answerSyn o a p w ts).1 = { a with sa_opts := s } := by
    intro ts
    unfold answerSyn synackOpts
    dsimp only
    split_ifs
    · exact ⟨_, rfl⟩
    · exact ⟨a.sa_opts, rfl⟩
    · exact ⟨a.sa_opts, rfl⟩
    · exact ⟨a.sa_opts, rfl⟩
  cases ts with
  | none => cases h
  | some ts =>
    unfold inboundSyn at h
    dsimp only at h
    split at h
    · rw [← Option.some.inj h]
      exact hanswer ts
    · rw [← Option.some.inj h]
      exact hanswer ts

theorem forwardAck_bf (h : forwardAck o a p w ts = some r) : r.2.1.bf = a.bf := by
  cases ts with
  | none =>
    unfold forwardAck at h
    dsimp only at h
    split at h
    · cases h
    · cases h
      rfl
  | some ts =>
    rw [forwardAck_some] at h
    cases h
    exact rewriteAck_bf o a p w ts

theorem inboundAck_bf (h : inboundAck o a p w ts = some r) : a.bf.Extends r.2.1.bf := by
  unfold inboundAck at h
  dsimp only at h
  split at h
  · rw [forwardAck_bf h]
    exact .refl _
  · split at h
    · cases h
      exact .refl _
    · rw [forwardAck_bf h]
      exact bloom_filter_put_extends _ _

theorem outbound_bf (a : Agent) (p : Pkt) (w : Nat) (ts : Option Nat) :
    a.bf.Extends (outbound a p w ts).2.1.bf := by
  unfold outbound
  dsimp only
  split
  · exact bloom_filter_put_extends _ _
  · exact .refl _

/-- Where the globals behind a frame come from. -/
theorem processor_cases {ifindex : Nat} (h : xsknf_packet_processor o a p ifindex w = some r) :
    r.2.1 = a ∨ r.2.1 = record a p w ∨
      (∃ ts, inboundSyn o (record a p w) p w ts = some r) ∨
      (∃ ts, inboundAck o (record a p w) p w ts = some r) ∨ ∃ ts, outbound a p w ts = r := by
  unfold xsknf_packet_processor at h
  dsimp only at h
  split at h
  · exact .inl (congrArg (·.2.1) (Option.some.inj h)).symm
  split at h
  · exact .inl (congrArg (·.2.1) (Option.some.inj h)).symm
  split at h
  · exact .inl (congrArg (·.2.1) (Option.some.inj h)).symm
  split at h
  · exact .inl (congrArg (·.2.1) (Option.some.inj h)).symm
  next ts _ =>
    split at h
    · split at h
      · exact .inr (.inr (.inl ⟨ts, h⟩))
      split at h
      · exact .inr (.inr (.inr (.inl ⟨ts, h⟩)))
      · exact .inr (.inl (congrArg (·.2.1) (Option.some.inj h)).symm)
    · exact .inr (.inr (.inr (.inr ⟨ts, Option.some.inj h⟩)))

theorem bf_add_bf (rands : List (U32 × U32 × U32)) : a.bf.Extends (add_bf a rands).bf := by
  unfold add_bf
  dsimp only
  generalize a.bf = f
  induction rands generalizing f with
  | nil => exact .refl f
  | cons x xs ih => exact (bloom_filter_put_extends f _).trans (ih _)

/-- No flow leaves the filter. -/
theorem bf_agentStep {b : Agent} {f : Pkt × Nat × Nat} (h : agentStep o a f = some b) :
    a.bf.Extends b.bf := by
  unfold agentStep at h
  obtain ⟨r, hr, rfl⟩ := Option.map_eq_some_iff.mp h
  rcases processor_cases hr with h | h | ⟨ts, h⟩ | ⟨ts, h⟩ | ⟨ts, h⟩
  · rw [h]
    exact .refl _
  · rw [h, record_bf]
    exact .refl _
  · obtain ⟨s, hs⟩ := inboundSyn_agent h
    rw [hs, record_bf]
    exact .refl _
  · have hext := inboundAck_bf h
    rwa [record_bf] at hext
  · rw [← h]
    exact outbound_bf a f.1 f.2.2 ts

end

/-! ## Headers too short for a timestamp -/

/-- The agent goes through `ts` on this frame, whether it has set it or not: on
every inbound SYN, and on an inbound ACK that is in the filter or passes the
check. -/
def GoesThroughStamp (a : Agent) (p : Pkt) (ingress_ifindex : Nat) : Prop :=
  ingress_ifindex = 0 ∧
    ((p.syn tcpAt = true ∧ p.ack tcpAt = false) ∨
      (p.ack tcpAt = true ∧ p.syn tcpAt = false ∧
        (bloom_filter_test a.bf (flowKey p) = true ∨ synCheck p = true)))

section

variable {o : Options} {a : Agent} {p : Pkt} {w : Nat} {ts : Option Nat}

theorem stamp_short (h : p.doff tcpAt < 8) : stamp p = some none := by
  unfold stamp
  exact if_neg (Nat.not_le.mpr h)

/-- A frame of a long header is dropped, or its `ts` is set. -/
theorem stamp_long (h : 8 ≤ p.doff tcpAt) : stamp p = none ∨ ∃ off, stamp p = some (some off) := by
  unfold stamp
  rw [if_pos h]
  rcases switch_agent.parse_timestamp p tcpAt with _ | off
  · exact .inl rfl
  · dsimp only
    split
    · exact .inl rfl
    · exact .inr ⟨_, rfl⟩

theorem inboundSyn_isSome (o : Options) (a : Agent) (p : Pkt) (w : Nat) (ts : Option Nat) :
    (inboundSyn o a p w ts).isSome = ts.isSome := by
  unfold inboundSyn
  rcases ts with _ | ts
  · rfl
  · dsimp only
    split <;> rfl

theorem forwardAck_isSome (hab : o.opt_ab_test = true) :
    (forwardAck o a p w ts).isSome = ts.isSome := by
  rcases ts with _ | ts
  · unfold forwardAck
    rw [hab]
    rfl
  · rfl

/-- An ACK that is refused goes through no pointer. -/
theorem inboundAck_isSome (hab : o.opt_ab_test = true) :
    (inboundAck o (record a p w) p w ts).isSome = true ↔
      ts.isSome = true ∨ ¬ (bloom_filter_test a.bf (flowKey p) = true ∨ synCheck p = true) := by
  rcases hknown : bloom_filter_test a.bf (flowKey p) with _ | _
  · rcases hcheck : synCheck p with _ | _
    · rw [inboundAck_refused hknown hcheck]
      simp
    · rw [inboundAck_checked hknown hcheck, forwardAck_isSome hab]
      simp
  · rw [inboundAck_known hknown, forwardAck_isSome hab]
    simp

/-- Outbound frames, and all frames in the modes that check nothing, need no timestamp. -/
theorem processor_isSome {ingress_ifindex : Nat}
    (h : o.opt_drop = true ∨ o.opt_forward = true ∨ ingress_ifindex ≠ 0) :
    (xsknf_packet_processor o a p ingress_ifindex w).isSome = true := by
  unfold xsknf_packet_processor
  dsimp only
  split
  · rfl
  split
  · rfl
  split
  · rfl
  split
  · rfl
  · have hif : ingress_ifindex ≠ 0 := by tauto
    rw [if_neg hif]
    rfl

/-- A frame that is dropped in the search for its option goes through no pointer. -/
theorem processor_unstamped (hdrop : o.opt_drop = false) (hforward : o.opt_forward = false)
    (htcp : IsTcp p) (hstamp : stamp p = none) (ingress_ifindex : Nat) :
    xsknf_packet_processor o a p ingress_ifindex w = some (-1, a, p) := by
  unfold xsknf_packet_processor
  dsimp only
  have htcp : ¬ ¬ (ntohs p.h_proto = ETH_P_IP ∧ p.protocol = IPPROTO_TCP) := not_not_intro htcp
  rw [hdrop, hforward, if_neg Bool.false_ne_true, if_neg htcp, if_neg Bool.false_ne_true, hstamp]

/-- An inbound frame past the search makes the agent go through `ts` by its flags. -/
theorem processor_inbound_isSome (hab : o.opt_ab_test = true) (hdrop : o.opt_drop = false)
    (hforward : o.opt_forward = false) (htcp : IsTcp p) (hstamp : stamp p = some ts) :
    (xsknf_packet_processor o a p 0 w).isSome = true ↔ ts.isSome = true ∨
    ¬ GoesThroughStamp a p 0 := by
  rw [processor_inbound hdrop hforward htcp hstamp]
  unfold GoesThroughStamp
  rcases hsyn : p.syn tcpAt with _ | _ <;> rcases hack : p.ack tcpAt with _ | _
  · simp
  · simpa using inboundAck_isSome hab
  · simpa using inboundSyn_isSome o (record a p w) p w ts
  · simp

end

/-- The agent, as it is built, never goes through a null `ts` on a segment just
when it checks nothing, the header has room for a timestamp, or the segment
takes a way that needs none. -/
theorem stamp_is_set_when_read_iff (o : Options) (a : Agent) (p : Pkt) (ingress_ifindex w : Nat)
    (hab : o.opt_ab_test = true) (htcp : IsTcp p) :
    (xsknf_packet_processor o a p ingress_ifindex w).isSome = true ↔
      o.opt_drop = true ∨ o.opt_forward = true ∨ 8 ≤ p.doff tcpAt ∨
        ¬ GoesThroughStamp a p ingress_ifindex := by
  by_cases hmode : o.opt_drop = true ∨ o.opt_forward = true ∨ ingress_ifindex ≠ 0
  · refine iff_of_true (processor_isSome hmode) ?_
    rcases hmode with h | h | h
    · exact .inl h
    · exact .inr (.inl h)
    · exact .inr (.inr (.inr fun hgo => h hgo.1))
  simp only [not_or, not_not, Bool.not_eq_true] at hmode
  obtain ⟨hdrop, hforward, rfl⟩ := hmode
  rw [hdrop, hforward]
  rcases Nat.lt_or_ge (p.doff tcpAt) 8 with hshort | hlong
  · rw [processor_inbound_isSome hab hdrop hforward htcp (stamp_short hshort)]
    simp [Nat.not_le.mpr hshort]
  · refine iff_of_true ?_ (.inr (.inr (.inl hlong)))
    rcases stamp_long hlong with hstamp | ⟨off, hstamp⟩
    · rw [processor_unstamped hdrop hforward htcp hstamp]
      rfl
    · exact (processor_inbound_isSome hab hdrop hforward htcp hstamp).mpr (.inl rfl)

/-- A SYN of a client with a timestamp option. -/
def openingSyn : Pkt := .segment client_ip server_ip 7 80 0 0 0x02 5 0

/-- The agent goes through `ts` on the SYN, and has set it. -/
theorem stamp_is_set_when_read_of_a_syn :
    GoesThroughStamp .boot openingSyn 0 ∧
      (xsknf_packet_processor {} .boot openingSyn 0 0).isSome = true := by
  refine ⟨⟨rfl, .inl ⟨by decide, by decide⟩⟩, ?_⟩
  exact (stamp_is_set_when_read_iff {} .boot openingSyn 0 0 rfl (by decide)).mpr
    (.inr (.inr (.inl (by decide))))

/-- A SYN of a client without any option. -/
def bareSyn : Pkt := .bareSegment client_ip server_ip 7 80 0 0 0x02

/-- A SYN with the shortest header makes the agent read through the null pointer. -/
theorem bare_syn_reads_null :
    IsTcp bareSyn ∧ xsknf_packet_processor {} .boot bareSyn 0 0 = none := by
  have htcp : IsTcp bareSyn := by decide
  have hstamp : stamp bareSyn = some none := stamp_short (by decide)
  refine ⟨htcp, ?_⟩
  rw [processor_syn rfl rfl htcp hstamp (by decide) (by decide)]
  rfl

end edge_cookie.smartcookie
