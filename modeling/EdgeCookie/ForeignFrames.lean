-- Frames that are not for the gateway. Its guard drops a frame that is neither
-- IPv4 nor TCP, and lets a frame through that is one of the two. Such a frame is
-- read as a TCP segment, and is left alone only when a later check refuses it.
import EdgeCookie.Reconnect

namespace edge_cookie.switch_agent

open bytes headers

/-! ## Refused frames -/

section

variable {o : Options} {a : Agent} {p : Pkt} {w : Nat}

theorem inboundAck_refused (h : (inboundAck o (recordFlow a p w) p w).1 = -1) :
    inboundAck o (recordFlow a p w) p w = (-1, recordFlow a p w, p) := by
  cases hts : ackTs p with
  | none => exact inboundAck_none hts
  | some ts =>
    rw [inboundAck_some hts] at h ⊢
    dsimp only at h ⊢
    split_ifs at h ⊢
    · rfl
    · exact absurd h (forward_ne _)
    · exact absurd h (forward_ne _)
    · exact absurd h (forward_ne _)
    · rfl
    · rfl

theorem outbound_sent (hece : p.ece tcpAt = false)
    (h : (p.syn tcpAt && !p.ack tcpAt) = true → ackTs p ≠ none) : (outbound a p w).1 ≠ -1 := by
  by_cases hsyn : (p.syn tcpAt && !p.ack tcpAt) = true
  · obtain ⟨ts, hts⟩ := Option.ne_none_iff_exists'.mp (h hsyn)
    rw [outbound_syn_some hece hsyn hts]
    exact forward_ne _
  · unfold outbound
    dsimp only
    rw [hece, if_neg Bool.false_ne_true, if_neg hsyn]
    exact forward_ne _

end

/-! ## Frames that are left alone -/

/-- The gateway sends the frame nowhere, and keeps the frame, its keys, its
filter and its cache. -/
structure LeftAlone (o : Options) (a : Agent) (p : Pkt) (ifindex w : Nat) : Prop where
  out : (xsknf_packet_processor o a p ifindex w).1 = -1
  len : (xsknf_packet_processor o a p ifindex w).2.2.len = p.len
  bytes : ∀ i < p.len, (xsknf_packet_processor o a p ifindex w).2.2.mem i = p.mem i
  keys : KeysKept a (xsknf_packet_processor o a p ifindex w).2.1
  memory : memory (xsknf_packet_processor o a p ifindex w).2.1 = memory a

/-- A check behind the guard refuses the frame, read as a TCP segment: its
timestamp option is not found, its cookie is wrong, or it is a seed change with
what the gateway has. -/
def Refused (o : Options) (a : Agent) (p : Pkt) (ifindex w : Nat) : Prop :=
  if ifindex = 0 then
    if p.syn tcpAt && !p.ack tcpAt then synTs o p = none
    else if p.ack tcpAt && !p.syn tcpAt then ¬ Accepted o a p w
    else False
  else if p.ece tcpAt then AlreadyHas a p
  else if p.syn tcpAt && !p.ack tcpAt then ackTs p = none
  else False

section

variable {o : Options} {a : Agent} {p : Pkt} {w ifindex : Nat}

theorem leftAlone_of_eq {r : Agent} (h : xsknf_packet_processor o a p ifindex w = (-1, r, p))
    (hkeys : KeysKept a r) (hmemory : memory r = memory a) : LeftAlone o a p ifindex w := by
  refine ⟨?_, ?_, ?_, ?_, ?_⟩
  · rw [h]
  · rw [h]
  · intro i _
    rw [h]
  · rw [h]
    exact hkeys
  · rw [h]
    exact hmemory

/-- An inbound SYN with a timestamp option is sent on, or it becomes a SYN-ACK. -/
theorem inboundSyn_touched {ts : Nat} (hack : p.ack tcpAt = false) (hts : synTs o p = some ts)
    (hout : (inboundSyn o (recordFlow a p w) p w).1 = -1)
    (hbytes : ∀ i < p.len, (inboundSyn o (recordFlow a p w) p w).2.2.mem i = p.mem i) : False := by
  have hge := synTs_ge hts
  have hflag : 47 < p.len := by
    unfold synTs at hts
    split at hts
    · cases hts
    · split at hts
      · cases hts
      · have hat : tcpAt = 34 := rfl
        omega
  rw [inboundSyn_some hts] at hout hbytes
  dsimp only at hout hbytes
  split_ifs at hout hbytes
  · exact forward_ne _ hout
  · have hset :=
      answerSyn_flag (o := o) (p := p) (w := w) (recordFlow a p w) hge (by decide : 4 < 8)
    have hsame : (answerSyn o (recordFlow a p w) p w ts).2.flag tcpAt 4 = p.flag tcpAt 4 :=
      congrArg (BitVec.getLsbD · 4) (hbytes 47 hflag)
    rw [hsame] at hset
    simp only [decide_true, Bool.or_true] at hset
    exact Bool.false_ne_true (hack.symm.trans hset)
  · exact forward_ne _ hout

theorem inbound_leftAlone_iff (hdrop : o.opt_drop = false) (hforward : o.opt_forward = false)
    (hp : ¬ (p.h_proto ≠ htons ETH_P_IP ∧ p.protocol ≠ IPPROTO_TCP)) :
    LeftAlone o a p 0 w ↔ Refused o a p 0 w := by
  have hproc := processor_inbound (a := a) (w := w) hdrop hforward hp
  unfold Refused
  rw [if_pos rfl]
  by_cases hsyn : (p.syn tcpAt && !p.ack tcpAt) = true
  · rw [if_pos hsyn] at hproc ⊢
    constructor
    · intro h
      cases hts : synTs o p with
      | none => rfl
      | some ts =>
        have hout := h.out
        have hbytes := h.bytes
        rw [hproc] at hout hbytes
        simp only [Bool.and_eq_true, Bool.not_eq_true'] at hsyn
        exact (inboundSyn_touched hsyn.2 hts hout hbytes).elim
    · intro hts
      rw [inboundSyn_none hts] at hproc
      exact leftAlone_of_eq hproc (recordFlow_keys a p w) rfl
  rw [if_neg hsyn] at hproc ⊢
  by_cases hack : (p.ack tcpAt && !p.syn tcpAt) = true
  · rw [if_pos hack] at hproc ⊢
    constructor
    · intro h haccepted
      have hout := h.out
      rw [hproc] at hout
      exact inboundAck_passes_iff.mpr haccepted hout
    · intro hrefused
      have hout := not_not.mp (mt inboundAck_passes_iff.mp hrefused)
      rw [inboundAck_refused hout] at hproc
      exact leftAlone_of_eq hproc (recordFlow_keys a p w) rfl
  · rw [if_neg hack] at hproc ⊢
    refine iff_of_false (fun h => ?_) id
    have hout := h.out
    rw [hproc] at hout
    exact forward_ne _ hout

/-- A seed change is dropped, and changes nothing just when the gateway has its seed already. -/
theorem seedChange_leftAlone_iff (hproc : xsknf_packet_processor o a p ifindex w = outbound a p w)
    (hece : p.ece tcpAt = true) : LeftAlone o a p ifindex w ↔ AlreadyHas a p := by
  have hagent := outbound_agent a p w
  rw [hece, if_pos rfl] at hagent
  constructor
  · intro h
    have hkeys := h.keys
    rw [hproc, hagent] at hkeys
    exact ⟨(write_eq_self_iff _ _ _).mp hkeys.seeds, (write_eq_self_iff _ _ _).mp hkeys.cookies,
      hkeys.duration.symm⟩
  · intro h
    have hout : outbound a p w = (-1, (outbound a p w).2.1, p) := by
      simp only [outbound, hece, if_true]
    rw [hout] at hproc
    refine leftAlone_of_eq hproc ?_ ?_
    · rw [hagent]
      exact ⟨(write_eq_self_iff _ _ _).mpr h.1, (write_eq_self_iff _ _ _).mpr h.2.1, h.2.2.symm⟩
    · rw [hagent]
      rfl

theorem outbound_leftAlone_iff (hdrop : o.opt_drop = false) (hforward : o.opt_forward = false)
    (hp : ¬ (p.h_proto ≠ htons ETH_P_IP ∧ p.protocol ≠ IPPROTO_TCP)) (hi : ifindex ≠ 0) :
    LeftAlone o a p ifindex w ↔ Refused o a p ifindex w := by
  have hproc := processor_outbound (a := a) (w := w) hdrop hforward hp hi
  unfold Refused
  rw [if_neg hi]
  cases hece : p.ece tcpAt with
  | true =>
    rw [if_pos rfl]
    exact seedChange_leftAlone_iff hproc hece
  | false =>
    rw [if_neg Bool.false_ne_true]
    by_cases hsyn : (p.syn tcpAt && !p.ack tcpAt) = true
    · rw [if_pos hsyn]
      constructor
      · intro h
        by_contra hts
        have hout := h.out
        rw [hproc] at hout
        exact outbound_sent hece (fun _ => hts) hout
      · intro hts
        rw [outbound_syn_none hece hsyn hts] at hproc
        exact leftAlone_of_eq hproc (.refl a) rfl
    · rw [if_neg hsyn]
      refine iff_of_false (fun h => ?_) id
      have hout := h.out
      rw [hproc] at hout
      exact outbound_sent hece (fun h => absurd h hsyn) hout

end

/-- A frame is left alone just when it is neither IPv4 nor TCP, or when a check
behind the guard refuses it: a frame that is only one of the two passes the
guard. -/
theorem a_foreign_frame_is_left_alone_iff (o : Options) (a : Agent) (p : Pkt) (ifindex w : Nat)
    (hdrop : o.opt_drop = false) (hforward : o.opt_forward = false) :
    LeftAlone o a p ifindex w ↔
      (p.h_proto ≠ htons ETH_P_IP ∧ p.protocol ≠ IPPROTO_TCP) ∨ Refused o a p ifindex w := by
  by_cases hboth : p.h_proto ≠ htons ETH_P_IP ∧ p.protocol ≠ IPPROTO_TCP
  · refine iff_of_true ?_ (.inl hboth)
    have hproc : xsknf_packet_processor o a p ifindex w = (-1, a, p) := by
      unfold xsknf_packet_processor
      dsimp only
      rw [if_pos hboth, ite_self]
    exact leftAlone_of_eq hproc (.refl a) rfl
  · rw [or_iff_right hboth]
    rcases Nat.eq_zero_or_pos ifindex with rfl | hi
    · exact inbound_leftAlone_iff hdrop hforward hboth
    · exact outbound_leftAlone_iff hdrop hforward hboth (Nat.pos_iff_ne_zero.mp hi)

/-- A frame with the bytes of a TCP segment, under another type or protocol. -/
def foreignFrame (type : U16) (protocol flags : U8) : Pkt :=
  ((Pkt.segment client_ip server_ip 7 80 1 0 flags 5 0).put16 12 type).put8 23 protocol

/-- An ARP frame is left alone: it is neither IPv4 nor TCP. -/
theorem an_arp_frame_is_left_alone : LeftAlone {} plainAgent (foreignFrame 0x0608 1 0) 0 0 :=
  (a_foreign_frame_is_left_alone_iff {} plainAgent (foreignFrame 0x0608 1 0) 0 0 rfl rfl).mpr
    (.inl (by decide))

/-- A UDP datagram from the side of the server, with the bit of ECE in its data,
changes a seed. -/
theorem a_udp_datagram_changes_a_seed :
    (foreignFrame 0x0008 17 0x40).protocol ≠ IPPROTO_TCP ∧
      ¬ LeftAlone {} plainAgent (foreignFrame 0x0008 17 0x40) 1 0 := by
  refine ⟨by decide, fun h => ?_⟩
  have hseed :
      (xsknf_packet_processor {} plainAgent (foreignFrame 0x0008 17 0x40) 1 0).2.1.map_seeds 0 =
        1 := by
    decide
  rw [h.keys.seeds] at hseed
  exact absurd hseed (by decide)

end edge_cookie.switch_agent
