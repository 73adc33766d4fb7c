-- The SYN cookie of smartcookie: the gateway mints it, checks it, and
-- `server_in` checks it again where the filter let an ACK pass. The three
-- compute one hash of one flow.
import EdgeCookie.CheckedFlows
import EdgeCookie.SmartServer

namespace edge_cookie.smartcookie

open bytes headers
open switch_agent (replaceOpts_sameOn tcpAt client_ip server_ip)
open server (Helpers parseHeaders inKey)

/-! ## Minting -/

section

variable (o : Options) (a : Agent) (p : Pkt) (w : Nat) {ts lo hi : Nat}

theorem synackOpts_sameOn (hts : 54 ≤ ts)
    (h : hi ≤ 16 ∨ (18 ≤ lo ∧ hi ≤ 24) ∨ (26 ≤ lo ∧ hi ≤ 46) ∨ (47 ≤ lo ∧ hi ≤ 54)) :
    Pkt.SameOn lo hi p (synackOpts o a p w ts).2 := by
  unfold synackOpts
  dsimp only
  split_ifs
  · exact replaceOpts_sameOn p _ h
  · exact ((Pkt.SameOn.refl lo hi p).put (by omega)).put (by omega)
  · exact replaceOpts_sameOn p _ h
  · exact .refl _ _ _

/-- The cookie is the hash of the flow as the SYN has it: the addresses are
exchanged in the frame and in the call, and the ports in neither. -/
theorem synackHeader_seq (rx_tsval rx_tsecr : U32) :
    (synackHeader o p ts rx_tsval rx_tsecr).seq tcpAt =
      hsiphash p.saddr p.daddr (p.source tcpAt) (p.dest tcpAt) := by
  obtain ⟨hsaddr, hdaddr, hsource, hdest⟩ := switch_agent.swap_addresses p
  have hkeep : Pkt.SameOn 38 42 ((p.xor_swap 4 26 30).put32 38 (hsiphash
      (p.xor_swap 4 26 30).daddr (p.xor_swap 4 26 30).saddr ((p.xor_swap 4 26 30).source tcpAt)
      ((p.xor_swap 4 26 30).dest tcpAt))) (synackHeader o p ts rx_tsval rx_tsecr) := by
    unfold synackHeader Pkt.set_flag cksumTcp tcpAt
    dsimp only
    split_ifs
    all_goals
      repeat' first
        | with_reducible exact Pkt.SameOn.refl _ _ _
        | with_reducible apply Pkt.SameOn.put
        | with_reducible apply Pkt.SameOn.xor_swap
        | omega
  have hseq := hkeep.u32 (a := 38) (by omega) (by omega)
  rw [Pkt.u32_put_same, hsaddr, hdaddr, hsource, hdest] at hseq
  exact hseq

theorem answerSyn_seq (hts : 54 ≤ ts) :
    (answerSyn o a p w ts).2.seq tcpAt =
      hsiphash p.saddr p.daddr (p.source tcpAt) (p.dest tcpAt) := by
  have hkeep : Pkt.SameOn 26 38 p (synackOpts o a p w ts).2 :=
    synackOpts_sameOn o a p w hts (by decide)
  refine (synackHeader_seq o (synackOpts o a p w ts).2 _ _).trans ?_
  rw [show (synackOpts o a p w ts).2.saddr = p.saddr from hkeep.u32 (by decide) (by decide),
    show (synackOpts o a p w ts).2.daddr = p.daddr from hkeep.u32 (by decide) (by decide),
    show (synackOpts o a p w
      ts).2.source tcpAt = p.source tcpAt from hkeep.u16 (by decide) (by decide),
    show (synackOpts o a p w ts).2.dest tcpAt = p.dest tcpAt from hkeep.u16 (by decide) (by decide)]

end

/-- The timestamp option is the one that the parser finds in a header of 32 bytes or more. -/
theorem stamp_found {p : Pkt} {ts : Nat} (h : stamp p = some (some ts)) :
    8 ≤ p.doff tcpAt ∧ ∃ off, switch_agent.parse_timestamp p tcpAt = some off ∧
    ts = tcpAt + 20 + off := by
  unfold stamp at h
  split at h
  · rename_i hdoff
    split at h
    · cases h
    · rename_i off hoff
      dsimp only at h
      split at h
      · cases h
      · cases h
        exact ⟨hdoff, off, hoff, rfl⟩
  · cases h

theorem stamp_ge {p : Pkt} {ts : Nat} (h : stamp p = some (some ts)) : 54 ≤ ts := by
  obtain ⟨-, off, -, rfl⟩ := stamp_found h
  exact Nat.le_add_right 54 off

/-- The answer to a SYN carries the hash of its flow as its number. -/
theorem answered_seq {o : Options} {a : Agent} {p : Pkt} {w ts : Nat} {r : Int × Agent × Pkt}
    (hdrop : o.opt_drop = false) (hforward : o.opt_forward = false) (htcp : IsTcp p)
    (hsyn : p.syn tcpAt = true) (hack : p.ack tcpAt = false) (hstamp : stamp p = some (some ts))
    (hr : xsknf_packet_processor o a p 0 w = some r) :
    r.2.2.seq tcpAt = hsiphash p.saddr p.daddr (p.source tcpAt) (p.dest tcpAt) := by
  have hseq := answerSyn_seq o (record a p w) p w (stamp_ge hstamp)
  rw [processor_syn hdrop hforward htcp hstamp hsyn hack] at hr
  unfold inboundSyn at hr
  dsimp only at hr
  split at hr
  · rw [← Option.some.inj hr]
    exact hseq
  · rw [← Option.some.inj hr]
    exact ((forward_sameFrom _).u32 (by decide)).trans hseq

/-! ## Checking -/

theorem get_hash_eq (src dst : U32) (src_port dst_port : U16) :
    server_in.get_hash src dst src_port dst_port = hsiphash src dst src_port dst_port := rfl

/-- The number of an ACK for the cookie of the flow `k`. -/
def Acks (ack_seq : U32) (k : server.map_key_t) : Prop :=
  ntohl ack_seq = ntohl (hsiphash k.src_ip k.dst_ip k.src_port k.dst_port) + 1

theorem number_iff {x c : U32} : htonl (ntohl x - 1) = c ↔ ntohl x = ntohl c + 1 := by
  constructor
  · rintro rfl
    rw [ntohl_htonl, BitVec.sub_add_cancel]
  · intro h
    rw [h, BitVec.add_sub_cancel]
    exact bswap32_bswap32 c

theorem synCheck_iff (p : Pkt) : synCheck p = true ↔ Acks (p.ack_seq tcpAt) (inKey p tcpAt) := by
  unfold synCheck Acks
  rw [decide_eq_true_eq]
  exact number_iff

namespace server_in

theorem synCheck_iff (p : Pkt) (tcp : Nat) :
    synCheck p tcp = true ↔ Acks (p.ack_seq tcp) (inKey p tcp) := by
  unfold synCheck Acks
  rw [decide_eq_true_eq, get_hash_eq]
  exact number_iff

/-- A segment that the program takes for an ACK: the TCP header is at `tcp`, and
`ts` is the pointer to the timestamp option. -/
structure AckSeen (p : Pkt) (tcp : Nat) (ts : Option Nat) : Prop where
  parse : ∃ len, parseHeaders p = .tcp tcp len ∧ stamp p tcp len = some ts
  ack : p.ack tcp = true
  syn : p.syn tcp = false

/-- An ACK without the tag, of a flow without an entry. -/
structure Untagged (m : Conntrack) (p : Pkt) (tcp : Nat) (ts : Option Nat) : Prop
    extends AckSeen p tcp ts where
  ece : p.ece tcp = false
  new : m.lookup (inKey p tcp) = none

section

variable {K : Helpers} {m : Conntrack} {p : Pkt} {tcp : Nat} {ts : Option Nat}

theorem AckSeen.router (h : AckSeen p tcp ts) : xdp_router K m p = ackBranch K m p tcp ts := by
  obtain ⟨len, hparse, hstamp⟩ := h.parse
  unfold xdp_router
  rw [hparse]
  dsimp only
  rw [hstamp]
  dsimp only
  rw [h.ack, h.syn]
  rfl

theorem Untagged.router (h : Untagged m p tcp ts) :
    xdp_router K m p = if synCheck p tcp then create K m p tcp ts else (.XDP_DROP, m, p) := by
  rw [h.toAckSeen.router]
  unfold ackBranch
  rw [h.new, h.ece]

end

end server_in

/-- A SYN `p` is answered with `r`. An ACK of its flow for the number of the
answer passes the check of the gateway, which then forwards it, and makes an
entry at `server_in` without the tag. And the gateway takes each number that
`server_in` takes. -/
theorem a_minted_cookie_passes_both_checks (o : Options) (a : Agent) (p : Pkt) (w ts : Nat)
    (r : Int × Agent × Pkt) (hdrop : o.opt_drop = false) (hforward : o.opt_forward = false)
    (htcp : IsTcp p) (hsyn : p.syn tcpAt = true) (hack : p.ack tcpAt = false)
    (hstamp : stamp p = some (some ts)) (hr : xsknf_packet_processor o a p 0 w = some r) :
    (∀ q : Pkt, inKey q tcpAt = inKey p tcpAt →
      ntohl (q.ack_seq tcpAt) = ntohl (r.2.2.seq tcpAt) + 1 →
      synCheck q = true ∧
        ∀ (b : Agent) (v ts' : Nat), AckWithStamp q ts' →
          ∃ r', xsknf_packet_processor o b q 0 v = some r' ∧ r'.1 = (forward q).1) ∧
    (∀ (K : Helpers) (m : Conntrack) (q : Pkt) (tcp : Nat) (ts' : Option Nat),
      server_in.Untagged m q tcp ts' → inKey q tcp = inKey p tcpAt →
      ntohl (q.ack_seq tcp) = ntohl (r.2.2.seq tcpAt) + 1 →
      server_in.xdp_router K m q = server_in.create K m q tcp ts') ∧
    (∀ (K : Helpers) (m : Conntrack) (u : Pkt) (tcp : Nat) (ts' : Option Nat) (q : Pkt),
      server_in.Untagged m u tcp ts' → (server_in.xdp_router K m u).1 ≠ .XDP_DROP →
      inKey q tcpAt = inKey u tcp → q.ack_seq tcpAt = u.ack_seq tcp → synCheck q = true) := by
  have hseq := answered_seq hdrop hforward htcp hsyn hack hstamp hr
  rw [hseq]
  refine ⟨fun q hkey hnum => ?_, fun K m q tcp ts' hq hkey hnum => ?_,
    fun K m u tcp ts' q hu hpass hkey hnum => ?_⟩
  · have hcheck : synCheck q = true := by
      rw [synCheck_iff, hkey]
      exact hnum
    exact ⟨hcheck, fun b v ts' hq => processor_passes hdrop hforward hq (.inr hcheck)⟩
  · have hcheck : server_in.synCheck q tcp = true := by
      rw [server_in.synCheck_iff, hkey]
      exact hnum
    rw [hq.router, if_pos hcheck]
  · have hcheck : server_in.synCheck u tcp = true := by
      by_contra hnot
      rw [hu.router, if_neg hnot] at hpass
      exact hpass rfl
    rw [synCheck_iff, hkey, hnum]
    exact (server_in.synCheck_iff u tcp).mp hcheck

/-- The ACK `checkedAck` answers what the gateway sends for `openingSyn`. -/
theorem the_cookie_of_the_opening_syn_passes :
    ∃ r, xsknf_packet_processor {} .boot openingSyn 0 0 = some r ∧
      ntohl (checkedAck.ack_seq tcpAt) = ntohl (r.2.2.seq tcpAt) + 1 ∧ synCheck checkedAck = true ∧
      server_in.Untagged .empty checkedAck tcpAt (some 56) ∧
      server_in.xdp_router server.kernelHelpers .empty checkedAck =
        server_in.create server.kernelHelpers .empty checkedAck tcpAt (some 56) := by
  have htcp : IsTcp openingSyn := by decide
  have hsyn : openingSyn.syn tcpAt = true := by decide
  have hack : openingSyn.ack tcpAt = false := by decide
  have hstamp : stamp openingSyn = some (some 56) := by decide
  obtain ⟨r, hr⟩ : ∃ r, xsknf_packet_processor {} .boot openingSyn 0 0 = some r := by
    rw [processor_syn rfl rfl htcp hstamp hsyn hack]
    exact ⟨_, rfl⟩
  have hkey : inKey checkedAck tcpAt = inKey openingSyn tcpAt :=
    inKey_eq (by decide) (by decide) (by decide) (by decide)
  have hnum : ntohl (checkedAck.ack_seq tcpAt) = ntohl (r.2.2.seq tcpAt) + 1 := by
    rw [answered_seq rfl rfl htcp hsyn hack hstamp hr]
    decide
  have hack' : server_in.Untagged .empty checkedAck tcpAt (some 56) :=
    ⟨⟨⟨32, by decide, by decide⟩, by decide, by decide⟩, by decide, rfl⟩
  obtain ⟨hgateway, hserver, -⟩ :=
    a_minted_cookie_passes_both_checks {} .boot openingSyn 0 56 r rfl rfl htcp hsyn hack hstamp hr
  exact ⟨r, hr, hnum, (hgateway _ hkey hnum).1, hack', hserver _ _ _ _ _ hack' hkey hnum⟩

end edge_cookie.smartcookie
