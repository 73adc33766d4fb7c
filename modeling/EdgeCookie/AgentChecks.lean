-- The gateway agent on one frame: the three checks that decide about an ACK,
-- and what stays the same in the frame and in the tables.
import EdgeCookie.SwitchAgent

namespace edge_cookie.switch_agent

open bytes headers

/-! ## Forwarding -/

/-- Forwarding writes the two hardware addresses and nothing else. -/
theorem forward_sameFrom (p : Pkt) : Pkt.SameFrom 12 p (forward p).2 := by
  unfold forward
  split
  · exact p.sameFrom_hardware rfl rfl
  · split
    · exact p.sameFrom_hardware rfl rfl
    · exact p.sameFrom_hardware rfl rfl

theorem forward_ne (p : Pkt) : (forward p).1 ≠ -1 := by
  unfold forward
  split
  · exact (by decide : CLIENT_R_IF_ORDER ≠ -1)
  · split
    · exact (by decide : SERVER_R_IF_ORDER ≠ -1)
    · exact (by decide : ATTACKER_R_IF_ORDER ≠ -1)

theorem forward_server (p : Pkt) : (forward p).1 = SERVER_R_IF_ORDER ↔ p.daddr = server_ip := by
  have hne : client_ip ≠ server_ip := by decide
  have hclient : CLIENT_R_IF_ORDER ≠ SERVER_R_IF_ORDER := by decide
  have hattacker : ATTACKER_R_IF_ORDER ≠ SERVER_R_IF_ORDER := by decide
  unfold forward
  split
  · rename_i h
    rw [h]
    exact ⟨fun h1 => absurd h1 hclient, fun h1 => absurd h1 hne⟩
  · split
    · rename_i h
      exact ⟨fun _ => h, fun _ => rfl⟩
    · rename_i h
      exact ⟨fun h1 => absurd h1 hattacker, fun h1 => absurd h1 h⟩

/-! ## The tables -/

section

variable (o : Options) (a : Agent) (p : Pkt) (w : Nat)

theorem recordFlow_self : (recordFlow a p w).flows w = flowOf (a.flows w).salt p tcpAt := if_pos rfl

theorem recordFlow_salt (i : Nat) : ((recordFlow a p w).flows i).salt = (a.flows i).salt := by
  unfold recordFlow
  dsimp only
  split
  · rename_i h
    rw [h]
    rfl
  · rfl

theorem synackOpts_flows (ts : Nat) : (synackOpts o a p w ts).1.flows = a.flows := by
  unfold synackOpts
  dsimp only
  split <;> rfl

theorem inboundSyn_flows : (inboundSyn o a p w).2.1.flows = a.flows := by
  unfold inboundSyn
  split
  · rfl
  · dsimp only
    split
    · rfl
    · split
      · rfl
      · split
        · exact synackOpts_flows o a p w _
        · exact synackOpts_flows o a p w _

theorem apacheOpts_flows (ts : Nat) : (apacheOpts o a p w ts).1.flows = a.flows := by
  unfold apacheOpts
  dsimp only
  split <;> rfl

/-- The first ACK of an address becomes a RST, a later one stays. -/
def resetFirst (cookie : U32) : Agent × Pkt :=
  if !bloom_filter_test a.bf (bytes32 p.saddr) then answerRst a p cookie else (a, p)

theorem resetFirst_new (cookie : U32) (h : bloom_filter_test a.bf (bytes32 p.saddr) = false) :
    resetFirst a p cookie = answerRst a p cookie := by
  unfold resetFirst
  rw [h]
  rfl

theorem resetFirst_known (cookie : U32) (h : bloom_filter_test a.bf (bytes32 p.saddr) = true) :
    resetFirst a p cookie = (a, p) := by
  unfold resetFirst
  rw [h]
  rfl

theorem resetFirst_flows (cookie : U32) : (resetFirst a p cookie).1.flows = a.flows := by
  unfold resetFirst
  split <;> rfl

end

/-! ## The three checks -/

/-- Where the timestamp option of an ACK is, when the agent finds it. -/
def ackTs (p : Pkt) : Option Nat :=
  match parse_timestamp p tcpAt with
  | none => none
  | some off => if p.len < tcpAt + 20 + off + 10 then none else some (tcpAt + 20 + off)

/-- The SYN cookie that the agent computes for an inbound frame. -/
def synCookie (o : Options) (a : Agent) (p : Pkt) (w : Nat) : U32 :=
  hashcookie o (flowOf (a.flows w).salt p tcpAt) p.saddr p.daddr (p.source tcpAt) (p.dest tcpAt)

/-- The ACK acknowledges the SYN cookie. -/
def SynCheck (o : Options) (a : Agent) (p : Pkt) (w : Nat) : Prop :=
  htonl (ntohl (p.ack_seq tcpAt) - 1) = synCookie o a p w

/-- The timestamp holds the map cookie of the source address. -/
def MapCheck (a : Agent) (p : Pkt) (ts : Nat) : Prop :=
  (ntohl (p.tsecr ts)).setWidth 16 = get_map_cookie_sip a.map_seeds p.saddr

/-- A key change is open, and the timestamp holds 14 bits of the SYN cookie. -/
def HashCheck (o : Options) (a : Agent) (p : Pkt) (w ts : Nat) : Prop :=
  (a.change_key_duration ≠ 0 ∨ o.opt_change_key) ∧
    (ntohl (p.tsecr ts) >>> 16) &&& 0x3fff#32 = fold16 (synCookie o a p w) &&& 0x3fff#32

/-- The agent accepts the ACK through one of its checks. -/
inductive Accepted (o : Options) (a : Agent) (p : Pkt) (w : Nat) : Prop where
  | syn (ts : Nat) : ackTs p = some ts → p.tsecr ts = TS_START → SynCheck o a p w → Accepted o a p w
  | map (ts : Nat) : ackTs p = some ts → p.tsecr ts ≠ TS_START → MapCheck a p ts → Accepted o a p w
  | hash (ts : Nat) : ackTs p = some ts → p.tsecr ts ≠ TS_START → HashCheck o a p w ts →
    Accepted o a p w

section

variable {o : Options} {a : Agent} {p : Pkt} {w : Nat}

/-- The option lies behind the fixed header and inside the frame. -/
theorem ackTs_inside {ts : Nat} (h : ackTs p = some ts) : tcpAt + 20 ≤ ts ∧ ts + 10 ≤ p.len := by
  unfold ackTs at h
  split at h
  · cases h
  · split at h
    · cases h
    · rw [← Option.some.inj h]
      omega

theorem inboundAck_none (h : ackTs p = none) :
    inboundAck o (recordFlow a p w) p w = (-1, recordFlow a p w, p) := by
  unfold inboundAck
  unfold ackTs at h
  dsimp only
  split
  · rfl
  · rename_i off hoff
    rw [hoff] at h
    dsimp only at h
    split at h
    · rename_i hlen
      rw [if_pos hlen]
    · cases h

/-- With the timestamp option at `ts` the branch is a choice among the checks. -/
theorem inboundAck_some {ts : Nat} (h : ackTs p = some ts) :
    inboundAck o (recordFlow a p w) p w =
      (let r := recordFlow a p w
      if p.tsecr ts = TS_START then
        if htonl (ntohl (p.ack_seq tcpAt) - 1) ≠ synCookie o a p w then (-1, r, p)
        else
          let x := resetFirst r p (synCookie o a p w)
          let y := apacheOpts o x.1 x.2 w ts
          ((forward y.2).1, y.1, (forward y.2).2)
      else if (ntohl (p.tsecr ts)).setWidth 16 = get_map_cookie_sip a.map_seeds p.saddr then
        ((forward p).1, r, (forward p).2)
      else if a.change_key_duration ≠ 0 ∨ o.opt_change_key then
        if (ntohl (p.tsecr ts) >>> 16) &&& 0x3fff#32 = fold16 (synCookie o a p w) &&& 0x3fff#32 then
          ((forward p).1, r, (forward p).2)
        else (-1, r, p)
      else (-1, r, p)) := by
  unfold inboundAck
  unfold ackTs at h
  dsimp only
  split
  · rename_i hoff
    rw [hoff] at h
    cases h
  · rename_i off hoff
    rw [hoff] at h
    dsimp only at h
    split at h
    · cases h
    · rename_i hlen
      obtain rfl := Option.some.inj h
      rw [if_neg hlen, recordFlow_self]
      rfl

theorem accepted_of_inboundAck (h : (inboundAck o (recordFlow a p w) p w).1 ≠ -1) :
    Accepted o a p w := by
  cases hts : ackTs p with
  | none =>
    rw [inboundAck_none hts] at h
    exact absurd rfl h
  | some ts =>
    rw [inboundAck_some hts] at h
    dsimp only at h
    split at h
    · rename_i h1
      split at h
      · exact absurd rfl h
      · rename_i h2
        exact .syn ts hts h1 (not_not.mp h2)
    · rename_i h1
      split at h
      · rename_i h2
        exact .map ts hts h1 h2
      · split at h
        · rename_i h3
          split at h
          · rename_i h4
            exact .hash ts hts h1 ⟨h3, h4⟩
          · exact absurd rfl h
        · exact absurd rfl h

/-- Each check alone lets the ACK pass. -/
theorem inboundAck_of_accepted (h : Accepted o a p w) :
    (inboundAck o (recordFlow a p w) p w).1 ≠ -1 := by
  cases h with
  | syn ts hts hstart hcheck =>
    unfold SynCheck at hcheck
    rw [inboundAck_some hts]
    dsimp only
    rw [if_pos hstart, if_neg (not_not_intro hcheck)]
    exact forward_ne _
  | map ts hts hstart hcheck =>
    unfold MapCheck at hcheck
    rw [inboundAck_some hts]
    dsimp only
    rw [if_neg hstart, if_pos hcheck]
    exact forward_ne _
  | hash ts hts hstart hcheck =>
    rw [inboundAck_some hts]
    dsimp only
    rw [if_neg hstart]
    split
    · exact forward_ne _
    · rw [if_pos hcheck.1, if_pos hcheck.2]
      exact forward_ne _

/-- The branch lets an ACK pass just when a check accepts it. -/
theorem inboundAck_passes_iff :
    (inboundAck o (recordFlow a p w) p w).1 ≠ -1 ↔ Accepted o a p w :=
  ⟨accepted_of_inboundAck, inboundAck_of_accepted⟩

/-- What an accepted ACK becomes: behind the SYN cookie check it may be
rewritten, and else it goes on as it is. -/
theorem inboundAck_out (h : (inboundAck o (recordFlow a p w) p w).1 ≠ -1) :
    ∃ ts, ackTs p = some ts ∧
      ((SynCheck o a p w ∧ ∃ y : Agent × Pkt,
          y = apacheOpts o (resetFirst (recordFlow a p w) p (synCookie o a p w)).1
            (resetFirst (recordFlow a p w) p (synCookie o a p w)).2 w ts ∧
          inboundAck o (recordFlow a p w) p w = ((forward y.2).1, y.1, (forward y.2).2)) ∨
        (p.tsecr ts ≠ TS_START ∧
          inboundAck o (recordFlow a p w) p w =
            ((forward p).1, recordFlow a p w, (forward p).2))) := by
  cases hts : ackTs p with
  | none =>
    rw [inboundAck_none hts] at h
    exact absurd rfl h
  | some ts =>
    refine ⟨ts, rfl, ?_⟩
    rw [inboundAck_some hts] at h ⊢
    dsimp only at h ⊢
    split at h
    · rename_i h1
      split at h
      · exact absurd rfl h
      · rename_i h2
        rw [if_pos h1, if_neg h2]
        exact .inl ⟨not_not.mp h2, _, rfl, rfl⟩
    · rename_i h1
      rw [if_neg h1]
      refine .inr ⟨h1, ?_⟩
      split at h
      · rename_i h2
        rw [if_pos h2]
      · rename_i h2
        rw [if_neg h2]
        split at h
        · rename_i h3
          rw [if_pos h3]
          split at h
          · rename_i h4
            rw [if_pos h4]
          · exact absurd rfl h
        · exact absurd rfl h

theorem inboundAck_flows :
    (inboundAck o (recordFlow a p w) p w).2.1.flows = (recordFlow a p w).flows := by
  by_cases h : (inboundAck o (recordFlow a p w) p w).1 = -1
  · cases hts : ackTs p with
    | none => rw [inboundAck_none hts]
    | some ts =>
      rw [inboundAck_some hts] at h ⊢
      dsimp only at h ⊢
      split_ifs at h ⊢ <;> first | rfl | exact absurd h (forward_ne _)
  · obtain ⟨ts, -, ⟨-, y, hy, hout⟩ | ⟨-, hout⟩⟩ := inboundAck_out h
    · rw [hout, hy]
      exact (apacheOpts_flows o _ _ w ts).trans (resetFirst_flows _ p _)
    · rw [hout]

end

/-! ## The packet processor -/

section

variable {o : Options} {a : Agent} {p : Pkt} {w : Nat}

/-- An inbound frame takes one of three ways, by its flags. -/
theorem processor_inbound (hdrop : o.opt_drop = false) (hforward : o.opt_forward = false)
    (hp : ¬ (p.h_proto ≠ htons ETH_P_IP ∧ p.protocol ≠ IPPROTO_TCP)) :
    xsknf_packet_processor o a p 0 w =
      if p.syn tcpAt && !p.ack tcpAt then inboundSyn o (recordFlow a p w) p w
      else if p.ack tcpAt && !p.syn tcpAt then inboundAck o (recordFlow a p w) p w
      else ((forward p).1, recordFlow a p w, (forward p).2) := by
  unfold xsknf_packet_processor
  dsimp only
  rw [hdrop, hforward, if_neg Bool.false_ne_true, if_neg hp,
    if_neg Bool.false_ne_true, if_pos rfl]

/-- An inbound SYN is answered or sent on. -/
theorem processor_syn (hdrop : o.opt_drop = false) (hforward : o.opt_forward = false)
    (hp : ¬ (p.h_proto ≠ htons ETH_P_IP ∧ p.protocol ≠ IPPROTO_TCP)) (hsyn : p.syn tcpAt = true)
    (hack : p.ack tcpAt = false) :
    xsknf_packet_processor o a p 0 w = inboundSyn o (recordFlow a p w) p w := by
  rw [processor_inbound hdrop hforward hp, hsyn, hack]
  rfl

/-- An inbound ACK is checked. -/
theorem processor_ack (hdrop : o.opt_drop = false) (hforward : o.opt_forward = false)
    (hp : ¬ (p.h_proto ≠ htons ETH_P_IP ∧ p.protocol ≠ IPPROTO_TCP)) (hsyn : p.syn tcpAt = false)
    (hack : p.ack tcpAt = true) :
    xsknf_packet_processor o a p 0 w = inboundAck o (recordFlow a p w) p w := by
  rw [processor_inbound hdrop hforward hp, hsyn, hack]
  rfl

/-- The last ACK of a handshake is no reset, when the gateway knows its client. -/
theorem processor_known (hdrop : o.opt_drop = false) (hforward : o.opt_forward = false)
    (hp : ¬ (p.h_proto ≠ htons ETH_P_IP ∧ p.protocol ≠ IPPROTO_TCP)) (hsyn : p.syn tcpAt = false)
    (hack : p.ack tcpAt = true) {ts : Nat} (hts : ackTs p = some ts)
    (hstart : p.tsecr ts = TS_START) (hcheck : SynCheck o a p w)
    (hknown : bloom_filter_test a.bf (bytes32 p.saddr) = true) :
    xsknf_packet_processor o a p 0 w =
      (let y := apacheOpts o (recordFlow a p w) p w ts
      ((forward y.2).1, y.1, (forward y.2).2)) := by
  have hreset : resetFirst (recordFlow a p w) p (synCookie o a p w) = (recordFlow a p w, p) :=
    resetFirst_known _ _ _ hknown
  rw [processor_ack hdrop hforward hp hsyn hack, inboundAck_some hts]
  dsimp only
  rw [if_pos hstart, if_neg (fun hne => hne hcheck), hreset]

/-- Without `-c` it goes on as it is. -/
theorem processor_known_ack (hdrop : o.opt_drop = false) (hforward : o.opt_forward = false)
    (hab : o.opt_ab_test = false)
    (hp : ¬ (p.h_proto ≠ htons ETH_P_IP ∧ p.protocol ≠ IPPROTO_TCP)) (hsyn : p.syn tcpAt = false)
    (hack : p.ack tcpAt = true) {ts : Nat} (hts : ackTs p = some ts)
    (hstart : p.tsecr ts = TS_START) (hcheck : SynCheck o a p w)
    (hknown : bloom_filter_test a.bf (bytes32 p.saddr) = true) :
    xsknf_packet_processor o a p 0 w = ((forward p).1, recordFlow a p w, (forward p).2) := by
  have hopts : apacheOpts o (recordFlow a p w) p w ts = (recordFlow a p w, p) := by
    unfold apacheOpts
    rw [hab]
    rfl
  rw [processor_known hdrop hforward hp hsyn hack hts hstart hcheck hknown, hopts]

theorem processor_drop (hdrop : o.opt_drop = true) (ifindex : Nat) :
    xsknf_packet_processor o a p ifindex w = (-1, a, p) := if_pos hdrop

theorem processor_other (hp : p.h_proto ≠ htons ETH_P_IP ∧ p.protocol ≠ IPPROTO_TCP)
    (ifindex : Nat) : (xsknf_packet_processor o a p ifindex w).1 = -1 := by
  unfold xsknf_packet_processor
  dsimp only
  rw [if_pos hp, ite_self]

theorem processor_forward (hdrop : o.opt_drop = false) (hforward : o.opt_forward = true)
    (hp : ¬ (p.h_proto ≠ htons ETH_P_IP ∧ p.protocol ≠ IPPROTO_TCP)) (ifindex : Nat) :
    xsknf_packet_processor o a p ifindex w = ((forward p).1, a, (forward p).2) := by
  unfold xsknf_packet_processor
  dsimp only
  rw [hdrop, if_neg Bool.false_ne_true, if_neg hp, if_pos hforward]

theorem outbound_flows : (outbound a p w).2.1.flows = a.flows := by
  unfold outbound
  dsimp only
  split
  · rfl
  · split
    · split
      · rfl
      · split <;> rfl
    · rfl

theorem outbound_syn_none (hece : p.ece tcpAt = false) (hsyn : (p.syn tcpAt && !p.ack tcpAt) = true)
    (hts : ackTs p = none) : outbound a p w = (-1, a, p) := by
  unfold outbound
  unfold ackTs at hts
  dsimp only
  rw [hece, if_neg Bool.false_ne_true, if_pos hsyn]
  split
  · rfl
  · rename_i off hoff
    simp only [hoff] at hts
    split at hts
    · rename_i hlen
      rw [if_pos hlen]
    · cases hts

/-- The cookie of an outbound SYN in host order, from the block that the worker has. -/
def outboundCookie (a : Agent) (daddr : U32) (w : Nat) : U32 :=
  fold16 (haraka256 (a.flows w).bytes) <<< 16 ||| (get_map_cookie_sip a.map_seeds daddr).setWidth 32

/-- An outbound SYN with the cookie in the timestamp option at `ts`. -/
def withOutboundCookie (a : Agent) (p : Pkt) (w ts : Nat) : Pkt :=
  let q := p.put32 (ts + 2) (htonl (outboundCookie a p.daddr w))
  q.put16 (tcpAt + 16) (csumUpdate (q.tcp_check tcpAt) [~~~(p.tsval ts), q.tsval ts])

theorem outbound_syn_some {ts : Nat} (hece : p.ece tcpAt = false)
    (hsyn : (p.syn tcpAt && !p.ack tcpAt) = true) (hts : ackTs p = some ts) :
    outbound a p w =
      ((forward (withOutboundCookie a p w ts)).1, a,
        (forward (withOutboundCookie a p w ts)).2) := by
  unfold outbound
  unfold ackTs at hts
  dsimp only
  rw [hece, if_neg Bool.false_ne_true, if_pos hsyn]
  split
  · rename_i hoff
    simp only [hoff] at hts
    cases hts
  · rename_i off hoff
    simp only [hoff] at hts
    split at hts
    · cases hts
    · rename_i hlen
      obtain rfl := Option.some.inj hts
      rw [if_neg hlen]
      rfl

/-- No frame changes a salt. -/
theorem processor_salt (ifindex i : Nat) :
    ((xsknf_packet_processor o a p ifindex w).2.1.flows i).salt = (a.flows i).salt := by
  unfold xsknf_packet_processor
  dsimp only
  split
  · rfl
  · split
    · rfl
    · split
      · rfl
      · split
        · split
          · rw [inboundSyn_flows, recordFlow_salt]
          · split
            · rw [inboundAck_flows, recordFlow_salt]
            · exact recordFlow_salt a p w i
        · rw [outbound_flows]

end

end edge_cookie.switch_agent
