-- The frames with ECE by which the server of smartcookie tells its gateway that
-- a flow is confirmed. The gateway puts the address of the client into its
-- filter, and asks the filter for the twelve bytes of a flow.
import EdgeCookie.CheckedFlows

namespace edge_cookie.smartcookie

open bytes headers runs
open switch_agent (tcpAt client_ip server_ip)
open server (inKey enKey)

/-- The frame gets as far as the put: the agent checks frames, takes this one for
TCP, and finds its timestamp option where the header has room for one. -/
def Confirms (o : Options) (p : Pkt) : Prop :=
  o.opt_drop = false ∧ IsTcp p ∧ o.opt_forward = false ∧ stamp p ≠ none

section

variable {o : Options} {a b : Agent} {p q : Pkt} {ifindex w : Nat}

/-- A frame with ECE from the side of the server puts the client into the filter,
or changes nothing. -/
theorem confirmation_cases (hi : ifindex ≠ 0) (hece : p.ece tcpAt = true)
    (hb : agentStep o a (p, ifindex, w) = some b) :
    (Confirms o p ∧ b.bf = bloom_filter_put a.bf (bytes32 p.daddr)) ∨
    (¬ Confirms o p ∧ b.bf = a.bf) := by
  unfold agentStep xsknf_packet_processor at hb
  obtain ⟨r, hr, rfl⟩ := Option.map_eq_some_iff.mp hb
  dsimp only at hr
  split at hr
  · rename_i hdrop
    exact .inr ⟨fun h => Bool.false_ne_true (h.1.symm.trans hdrop), by rw [← Option.some.inj hr]⟩
  rename_i hdrop
  split at hr
  · rename_i htcp
    exact .inr ⟨fun h => htcp h.2.1, by rw [← Option.some.inj hr]⟩
  rename_i htcp
  split at hr
  · rename_i hforward
    exact .inr ⟨fun h => Bool.false_ne_true (h.2.2.1.symm.trans hforward),
      by rw [← Option.some.inj hr]⟩
  rename_i hforward
  split at hr
  · rename_i hstamp
    exact .inr ⟨fun h => h.2.2.2 hstamp, by rw [← Option.some.inj hr]⟩
  · rename_i ts hstamp
    refine .inl ⟨⟨Bool.eq_false_iff.mpr hdrop, not_not.mp htcp, Bool.eq_false_iff.mpr hforward, ?_⟩,
      ?_⟩
    · rw [hstamp]
      exact Option.some_ne_none ts
    · rw [← Option.some.inj hr]
      unfold outbound
      dsimp only
      rw [if_pos hece]
      rfl

end

/-- The gateway `a` processes a frame `p` with ECE from the server. The later
ACKs `q` of its flow are all in the filter just when every bit of the flow was
set before, or is one of the bits of the address of the client alone. -/
theorem a_confirmed_flow_is_in_the_filter_iff (o : Options) (a b : Agent) (p q : Pkt)
    (ifindex w : Nat) (rands : List (U32 × U32 × U32)) (before : List (Pkt × Nat × Nat))
    (ha : runM (agentStep o) (add_bf .boot rands) before = some a)
    (hi : ifindex ≠ 0) (hece : p.ece tcpAt = true) (hb : agentStep o a (p, ifindex, w) = some b)
    (hflow : inKey q tcpAt = enKey p tcpAt) :
    (∀ fs c v, runM (agentStep o) b fs = some c →
        bloom_filter_test (record c q v).bf (flowBytes ((record c q v).flows v) 12) = true) ↔
      ∀ hash ∈ a.bf.hash_functions,
        a.bf.vect.bit ((hash (flowKey q)).toNat % a.bf.vect.size) = true ∨
          Confirms o p ∧ ∃ put ∈ a.bf.hash_functions,
            (hash (flowKey q)).toNat % a.bf.vect.size =
              (put (bytes32 q.saddr)).toNat % a.bf.vect.size := by
  have haddr : q.saddr = p.daddr := congrArg server.map_key_t.src_ip hflow
  -- the filter only grows, so the first later ACK decides
  have hfirst : (∀ fs c v, runM (agentStep o) b fs = some c →
      bloom_filter_test (record c q v).bf (flowBytes ((record c q v).flows v) 12) = true) ↔
        bloom_filter_test b.bf (flowKey q) = true := by
    simp only [record_bf, record_key]
    constructor
    · intro h
      exact h [] b w rfl
    · intro h fs c _ hc
      exact (bf_run hc).test h
  rw [hfirst, haddr]
  rcases confirmation_cases hi hece hb with ⟨hput, hbf⟩ | ⟨hnot, hbf⟩
  · rw [hbf, bloom_filter_test_put_iff _ _ (size_run ha)]
    simp only [hput, true_and]
  · rw [hbf, bloom_filter_test_iff]
    simp only [hnot, false_and, or_false]

/-- The server confirms the flow of `checkedAck`. -/
def confirmation : Pkt := .segment server_ip client_ip 80 7 0 0 0x50 5 6

theorem confirmation_flow : inKey laterAck tcpAt = enKey confirmation tcpAt := by
  unfold inKey enKey
  rw [show laterAck.saddr = confirmation.daddr by decide,
    show laterAck.daddr = confirmation.saddr by decide,
    show laterAck.source tcpAt = confirmation.dest tcpAt by decide,
    show laterAck.dest tcpAt = confirmation.source tcpAt by decide]

theorem confirmation_outbound (a : Agent) :
    agentStep {} a (confirmation, 1, 0) = some (outbound a confirmation 0 (some 56)).2.1 := by
  have htcp : ¬ ¬ (ntohs confirmation.h_proto = ETH_P_IP ∧ confirmation.protocol = IPPROTO_TCP) :=
    by decide
  have hstamp : stamp confirmation = some (some 56) := by decide
  unfold agentStep xsknf_packet_processor
  dsimp only
  rw [if_neg Bool.false_ne_true, if_neg htcp, if_neg Bool.false_ne_true, hstamp]
  rfl

/-- A flow that passed the SYN cookie check before its confirmation stays in the
filter. -/
theorem a_checked_flow_stays_confirmed :
    ∃ a b, agentStep {} .boot (checkedAck, 0, 0) = some a ∧
      agentStep {} a (confirmation, 1, 0) = some b ∧
      bloom_filter_test (record b laterAck 0).bf (flowBytes ((record b laterAck 0).flows 0) 12) =
        true := by
  obtain ⟨a, ha, hknown⟩ := checkedAck_learned
  have hrun : runM (agentStep {}) (add_bf .boot []) [(checkedAck, 0, 0)] = some a := by
    change (agentStep {} .boot (checkedAck, 0, 0)).bind _ = some a
    rw [ha]
    rfl
  have hsame : flowKey laterAck = flowKey checkedAck := by decide
  refine ⟨a, _, ha, confirmation_outbound a, ?_⟩
  refine (a_confirmed_flow_is_in_the_filter_iff {} a _ confirmation laterAck 1 0 []
    [(checkedAck, 0, 0)] hrun
    (by decide) (by decide) (confirmation_outbound a) confirmation_flow).mpr ?_ [] _ 0 rfl
  intro hash hmem
  rw [hsame]
  exact .inl ((bloom_filter_test_iff _ _).mp hknown hash hmem)

/-- A flow that was not in the filter is not in it behind its confirmation. -/
theorem a_confirmed_flow_is_not_in_the_filter :
    inKey laterAck tcpAt = enKey confirmation tcpAt ∧ confirmation.ece tcpAt = true ∧
      ∃ b, agentStep {} .boot (confirmation, 1, 0) = some b ∧
        bloom_filter_test (record b laterAck 0).bf (flowBytes ((record b laterAck 0).flows 0) 12) =
          false := by
  refine ⟨confirmation_flow, by decide, _, confirmation_outbound .boot, ?_⟩
  rw [record_bf, record_key]
  have hput : (outbound .boot confirmation 0 (some 56)).2.1.bf =
      bloom_filter_put Agent.boot.bf (bytes32 confirmation.daddr) := rfl
  rw [hput]
  decide

end edge_cookie.smartcookie
