-- The resets of the gateway: over a whole run it answers at most one ACK of an
-- address with an RST, since the answer puts the address into the filter and
-- no address leaves the filter.
import EdgeCookie.CreateGate
import EdgeCookie.Reconnect

namespace edge_cookie.switch_agent

open bytes headers runs

/-- The agent answers the frame with an RST: the frame is an inbound ACK of the
address, and goes out with RST and without ACK. -/
def answersRst (o : Options) (ip : U32) (a : Agent) : Pkt × Nat × Nat → Bool
  | (p, ifindex, w) =>
    let x := xsknf_packet_processor o a p ifindex w
    decide (ifindex = 0) && p.ack tcpAt && !p.syn tcpAt && decide (p.saddr = ip) &&
      decide (x.1 ≠ -1) && x.2.2.rst tcpAt && !x.2.2.ack tcpAt

theorem apacheOpts_flag (o : Options) (a : Agent) (p : Pkt) (w ts i : Nat) :
    (apacheOpts o a p w ts).2.flag tcpAt i = p.flag tcpAt i := by
  have hsame : Pkt.SameOn 47 48 p (apacheOpts o a p w ts).2 :=
    apacheOpts_sameOn o a p w ts (by omega)
  exact hsame.flag (by decide) (by decide) i

section

variable {o : Options} {a : Agent} {p : Pkt} {w : Nat}

/-- An accepted ACK that loses its ACK flag comes from an address that was not
in the filter, and is there now. -/
theorem inboundAck_reset (hsize : 0 < a.bf.vect.size) (hack : p.ack tcpAt = true)
    (hpass : (inboundAck o (recordFlow a p w) p w).1 ≠ -1)
    (hlost : (inboundAck o (recordFlow a p w) p w).2.2.ack tcpAt = false) :
    bloom_filter_test a.bf (bytes32 p.saddr) = false ∧
      bloom_filter_test (inboundAck o (recordFlow a p w) p w).2.1.bf (bytes32 p.saddr) = true := by
  obtain ⟨ts, -, ⟨-, y, hy, hout⟩ | ⟨-, hout⟩⟩ := inboundAck_out hpass
  · rw [hout] at hlost ⊢
    have hflag : y.2.ack tcpAt = false := (forward_flag y.2 4).symm.trans hlost
    have hbf : y.1.bf = (resetFirst (recordFlow a p w) p (synCookie o a p w)).1.bf := by
      rw [hy]
      exact congrArg Memory.bf (memory_apacheOpts o _ _ w ts)
    have hkeep :
        y.2.ack tcpAt = (resetFirst (recordFlow a p w) p (synCookie o a p w)).2.ack tcpAt := by
      rw [hy]
      exact apacheOpts_flag o _ _ w ts 4
    rw [hkeep] at hflag
    dsimp only
    rw [hbf]
    cases hnew : bloom_filter_test a.bf (bytes32 p.saddr) with
    | true =>
      rw [resetFirst_known (recordFlow a p w) _ _ hnew] at hflag
      exact absurd (hflag.symm.trans hack) Bool.false_ne_true
    | false =>
      refine ⟨rfl, ?_⟩
      rw [resetFirst_new (recordFlow a p w) _ _ hnew]
      exact bloom_filter_test_put _ hsize
  · rw [hout] at hlost
    exact absurd (((forward_flag p 4).symm.trans hlost).symm.trans hack) Bool.false_ne_true

theorem processor_reset {ip : U32} {f : Pkt × Nat × Nat} (hsize : 0 < a.bf.vect.size)
    (h : answersRst o ip a f = true) :
    bloom_filter_test a.bf (bytes32 ip) = false ∧
      bloom_filter_test (agentStep o a f).bf (bytes32 ip) = true := by
  obtain ⟨p, ifindex, w⟩ := f
  unfold answersRst at h
  simp only [Bool.and_eq_true, decide_eq_true_eq, Bool.not_eq_true'] at h
  obtain ⟨⟨⟨⟨⟨⟨rfl, hack⟩, hsyn⟩, rfl⟩, hpass⟩, -⟩, hlost⟩ := h
  unfold agentStep
  by_cases hdrop : o.opt_drop = true
  · rw [processor_drop hdrop] at hpass
    exact absurd rfl hpass
  by_cases hp : p.h_proto ≠ htons ETH_P_IP ∧ p.protocol ≠ IPPROTO_TCP
  · exact absurd (processor_other hp 0) hpass
  have hdrop' := Bool.eq_false_iff.mpr hdrop
  by_cases hforward : o.opt_forward = true
  · rw [processor_forward hdrop' hforward hp] at hlost
    exact absurd (((forward_flag p 4).symm.trans hlost).symm.trans hack) Bool.false_ne_true
  rw [processor_ack hdrop' (Bool.eq_false_iff.mpr hforward) hp hsyn hack] at hpass hlost ⊢
  exact inboundAck_reset hsize hack hpass hlost

/-- The first ACK of an address that passes the SYN cookie check is answered. -/
theorem answersRst_first {ts : Nat} (hdrop : o.opt_drop = false) (hforward : o.opt_forward = false)
    (hp : ¬ (p.h_proto ≠ htons ETH_P_IP ∧ p.protocol ≠ IPPROTO_TCP)) (hack : p.ack tcpAt = true)
    (hsyn : p.syn tcpAt = false) (hts : ackTs p = some ts) (hstart : p.tsecr ts = TS_START)
    (hcheck : SynCheck o a p w) (hnew : bloom_filter_test a.bf (bytes32 p.saddr) = false) :
    answersRst o p.saddr a (p, 0, w) = true := by
  have hreset : resetFirst (recordFlow a p w) p (synCookie o a p w) =
      answerRst (recordFlow a p w) p (synCookie o a p w) := resetFirst_new _ _ _ hnew
  have hflag : ∀ i < 8, (xsknf_packet_processor o a p 0 w).2.2.flag tcpAt i =
      ((p.flag tcpAt i || decide (2 = i)) && !decide (4 = i)) := by
    intro i hi
    rw [processor_ack hdrop hforward hp hsyn hack, inboundAck_some hts]
    dsimp only
    rw [if_pos hstart, if_neg (fun hne => hne hcheck), hreset, forward_flag,
      ← answerRst_flag (recordFlow a p w) p (synCookie o a p w) hi]
    exact apacheOpts_flag o _ _ w ts i
  have hpass : (xsknf_packet_processor o a p 0 w).1 ≠ -1 := by
    rw [processor_ack hdrop hforward hp hsyn hack]
    exact inboundAck_passes_iff.mpr (.syn ts hts hstart hcheck)
  unfold answersRst
  simp [hack, hsyn, hpass, Pkt.rst, hflag]

end

/-- Over every run the agent answers at most one ACK of an address with an RST. -/
theorem an_address_is_reset_at_most_once (o : Options) (salt : Nat → Fin 5 → U32) (ip : U32)
    (fs : List (Pkt × Nat × Nat)) :
    (trace (agentStep o) (answersRst o ip) (Agent.boot salt) fs).count true ≤ 1 := by
  apply count_trace_le_one (fun a : Agent => 0 < a.bf.vect.size)
    (fun a : Agent => bloom_filter_test a.bf (bytes32 ip) = true)
  · intro a f h
    rw [(bf_agentStep o a f).size]
    exact h
  · intro a f h
    exact (bf_agentStep o a f).test h
  · intro a f hsize h
    obtain ⟨hnew, hknown⟩ := processor_reset hsize h
    exact ⟨Bool.eq_false_iff.mp hnew, hknown⟩
  · exact Nat.succ_pos 3145727

example : answersRst {} client_ip plainAgent (provenAck, 0, 0) = true :=
  have hts : ackTs provenAck = some 56 := by decide
  answersRst_first rfl rfl (by decide) (by decide) (by decide) hts (by decide)
    provenAck_checked (by decide)

end edge_cookie.switch_agent
