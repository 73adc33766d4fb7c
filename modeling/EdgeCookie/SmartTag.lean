-- The tag of smartcookie: `server_in` takes ECE for the word of the gateway that
-- the SYN cookie was right. The gateway sets the flag, but it never clears it,
-- and it looks for the TCP header behind an IP header without options.
import EdgeCookie.CreateGate
import EdgeCookie.SmartCookie

namespace edge_cookie.smartcookie

open bytes headers
open switch_agent (replaceOpts_sameOn tcpAt client_ip server_ip SERVER_R_IF_ORDER)
open server (Helpers parseHeaders parseHeaders_tcp inKey)

/-! ## What the gateway does to the flags -/

section

variable (o : Options) (a : Agent) (p : Pkt) (w : Nat) {ts lo hi : Nat}

theorem synackHeader_sameOn (rx_tsval rx_tsecr : U32) (h : hi ≤ 26) :
    Pkt.SameOn lo hi p (synackHeader o p ts rx_tsval rx_tsecr) := by
  unfold synackHeader Pkt.set_flag cksumTcp tcpAt
  dsimp only
  split_ifs
  all_goals
    repeat' first
      | with_reducible exact Pkt.SameOn.refl lo hi p
      | with_reducible apply Pkt.SameOn.put
      | with_reducible apply Pkt.SameOn.xor_swap
      | omega

/-- The answer to a SYN has SYN set, and the IP header length of the SYN. -/
theorem answerSyn_reads (hts : 54 ≤ ts) :
    (answerSyn o a p w ts).2.syn tcpAt = true ∧ (answerSyn o a p w ts).2.ihl = p.ihl := by
  have hput : ∀ (q : Pkt) b n v, 48 ≤ b → (q.put b n v).flag tcpAt 1 = q.flag tcpAt 1 := by
    intro q b n v hb
    unfold Pkt.flag tcpAt
    rw [Pkt.u8_put_ne _ _ _ _ _ (by omega)]
  constructor
  · unfold answerSyn synackHeader cksumTcp
    dsimp only
    split_ifs
    all_goals
      simp only [hput _ 50 _ _ (by decide), hput _ 48 _ _ (by decide),
        show tcpAt + 16 = 50 from rfl, show tcpAt + 14 = 48 from rfl,
        Pkt.flag_set_flag _ _ _ _ (by decide : 1 < 8)]
      simp
  · have hkeep : Pkt.SameOn 14 15 p (answerSyn o a p w ts).2 :=
      (synackOpts_sameOn o a p w hts (by decide)).trans (synackHeader_sameOn o _ _ _ (by decide))
    unfold Pkt.ihl
    rw [hkeep.u8 (by decide) (by decide)]

end

theorem forward_ihl (p : Pkt) : (forward p).2.ihl = p.ihl := by
  unfold Pkt.ihl
  rw [(forward_sameFrom p).u8 (by decide)]

theorem forward_fields (p : Pkt) : Pkt.SameOn 26 46 p (forward p).2 := fun i hi _ =>
  (forward_sameFrom p).2 i (by omega)

/-- The gateway has looked at the SYN cookie of this frame, and it was right. -/
structure CookieChecked (o : Options) (a : Agent) (p : Pkt) : Prop where
  mode : o.opt_forward = false
  ack : p.ack tcpAt = true
  syn : p.syn tcpAt = false
  new : bloom_filter_test a.bf (flowKey p) = false
  number : synCheck p = true

/-- The gateway does not check the cookie of the frame: it forwards everything, it
reads no ACK, or it knows the flow. -/
def Unchecked (o : Options) (a : Agent) (p : Pkt) : Prop :=
  o.opt_forward = true ∨ ¬ (p.ack tcpAt = true ∧ p.syn tcpAt = false) ∨
    bloom_filter_test a.bf (flowKey p) = true

/-- What the gateway may have done to a frame that it sends on: it has made a
SYN-ACK of it, it has left the flags as they are, or it has set ECE. It leaves the
addresses, the ports and the numbers of an ACK alone. -/
inductive HeaderChange (o : Options) (a : Agent) (p q : Pkt) : Prop where
  | answer (h : q.syn tcpAt = true)
  | keep (h : ∀ i < 8, q.flag tcpAt i = p.flag tcpAt i) (fields : Pkt.SameOn 26 46 p q)
      (unchecked : Unchecked o a p)
  | tag (h : ∀ i < 8, q.flag tcpAt i = (p.flag tcpAt i || decide (6 = i)))
      (fields : Pkt.SameOn 26 46 p q) (checked : CookieChecked o a p)

section

variable {o : Options} {a : Agent} {p : Pkt} {w : Nat} {r : Int × Agent × Pkt}

/-- An ACK behind the check keeps its IP header length, its flags and its numbers. -/
theorem forwardAck_reads {b : Agent} {ts : Option Nat} (h : forwardAck o b p w ts = some r) :
    r.2.2.ihl = p.ihl ∧ (∀ i, r.2.2.flag tcpAt i = p.flag tcpAt i) ∧
      Pkt.SameOn 26 46 p r.2.2 := by
  have hout : ∀ q : Pkt, Pkt.SameOn 14 15 p q → Pkt.SameOn 47 48 p q → Pkt.SameOn 26 46 p q →
      (forward q).2.ihl = p.ihl ∧ (∀ i, (forward q).2.flag tcpAt i = p.flag tcpAt i) ∧
        Pkt.SameOn 26 46 p (forward q).2 := by
    intro q hlow hflag hfields
    refine ⟨(forward_ihl q).trans ?_, fun i => (forward_flag q i).trans ?_, hfields.trans ?_⟩
    · unfold Pkt.ihl
      rw [hlow.u8 (by decide) (by decide)]
    · unfold Pkt.flag
      rw [hflag.u8 (by decide) (by decide)]
    · exact forward_fields q
  cases ts with
  | none =>
    unfold forwardAck at h
    dsimp only at h
    split at h
    · cases h
    · rw [← Option.some.inj h]
      exact hout p (.refl _ _ _) (.refl _ _ _) (.refl _ _ _)
  | some ts =>
    rw [forwardAck_some] at h
    rw [← Option.some.inj h]
    exact hout _ (rewriteAck_sameOn o b p w ts (by decide))
      (rewriteAck_sameOn o b p w ts (by decide)) (rewriteAck_sameOn o b p w ts (by decide))

theorem inboundSyn_reads {ts : Option Nat} (hstamp : stamp p = some ts)
    (h : inboundSyn o (record a p w) p w ts = some r) (hout : r.1 ≠ -1) :
    r.2.2.ihl = p.ihl ∧ HeaderChange o a p r.2.2 := by
  cases ts with
  | none => cases h
  | some ts =>
    obtain ⟨hsyn, hihl⟩ := answerSyn_reads o (record a p w) p w (stamp_ge hstamp)
    unfold inboundSyn at h
    dsimp only at h
    split at h
    · rw [← Option.some.inj h] at hout
      exact absurd rfl hout
    · rw [← Option.some.inj h]
      refine ⟨?_, .answer ((forward_flag _ 1).trans hsyn)⟩
      rw [← hihl]
      exact forward_ihl _

/-- An ACK is tagged only behind the check of its cookie. -/
theorem inboundAck_reads {ts : Option Nat} (hforward : o.opt_forward = false)
    (hack : p.ack tcpAt = true) (hsyn : p.syn tcpAt = false)
    (h : inboundAck o (record a p w) p w ts = some r) (hout : r.1 ≠ -1) :
    r.2.2.ihl = p.ihl ∧ HeaderChange o a p r.2.2 := by
  cases hbf : bloom_filter_test a.bf (flowKey p) with
  | true =>
    rw [inboundAck_known hbf] at h
    obtain ⟨hihl, hflag, hfields⟩ := forwardAck_reads h
    exact ⟨hihl, .keep (fun i _ => hflag i) hfields (.inr (.inr hbf))⟩
  | false =>
    cases hcheck : synCheck p with
    | false =>
      rw [inboundAck_refused hbf hcheck] at h
      rw [← Option.some.inj h] at hout
      exact absurd rfl hout
    | true =>
      rw [inboundAck_checked hbf hcheck] at h
      obtain ⟨hihl, hflag, hfields⟩ := forwardAck_reads h
      have htag : Pkt.SameOn 26 46 p (p.set_flag tcpAt 6) :=
        (Pkt.SameOn.refl _ _ _).put (.inl (by decide))
      refine ⟨hihl.trans ?_, .tag (fun i hi => ?_) (htag.trans hfields)
        ⟨hforward, hack, hsyn, hbf, hcheck⟩⟩
      · unfold Pkt.ihl Pkt.set_flag
        rw [Pkt.u8_put_ne _ _ _ _ _ (by decide)]
      · rw [hflag, Pkt.flag_set_flag p tcpAt 6 i hi]

theorem processor_reads (h : xsknf_packet_processor o a p 0 w = some r) (hout : r.1 ≠ -1) :
    r.2.2.ihl = p.ihl ∧ HeaderChange o a p r.2.2 := by
  have hkeep : (forward p).2.ihl = p.ihl ∧ ∀ i < 8, (forward p).2.flag tcpAt i = p.flag tcpAt i :=
    ⟨forward_ihl p, fun i _ => forward_flag p i⟩
  obtain ⟨hdrop, htcp, ⟨hforward, rfl⟩ | ⟨hforward, ts, hstamp⟩⟩ := processor_sent h hout
  · exact ⟨hkeep.1, .keep hkeep.2 (forward_fields p) (.inl hforward)⟩
  rw [processor_inbound hdrop hforward htcp hstamp] at h
  split at h
  · exact inboundSyn_reads hstamp h hout
  split at h
  · rename_i hflags
    rw [Bool.and_eq_true, Bool.not_eq_true'] at hflags
    exact inboundAck_reads hforward hflags.1 hflags.2 h hout
  · rename_i hflags
    rw [Bool.and_eq_true, Bool.not_eq_true'] at hflags
    rw [← Option.some.inj h]
    exact ⟨hkeep.1, .keep hkeep.2 (forward_fields p) (.inr (.inl hflags))⟩

end

/-! ## Who may tag -/

namespace server_in

theorem AckSeen.header_at {p : Pkt} {tcp : Nat} {ts : Option Nat} (h : AckSeen p tcp ts) :
    tcp = 14 + p.ihl * 4 := by
  obtain ⟨len, hparse, -⟩ := h.parse
  exact (parseHeaders_tcp hparse).2.2.1

/-- An ACK with the tag makes an entry without a check. -/
theorem AckSeen.tagged {K : Helpers} {m : Conntrack} {p : Pkt} {tcp : Nat} {ts : Option Nat}
    (h : AckSeen p tcp ts) (hece : p.ece tcp = true) : xdp_router K m p = create K m p tcp ts := by
  rw [h.router]
  unfold ackBranch
  rw [hece]
  cases m.lookup (inKey p tcp) <;> rfl

theorem create_table (K : Helpers) (m : Conntrack) (p : Pkt) (tcp : Nat) (ts : Option Nat) :
    (create K m p tcp ts).2.1 = m.putAny (inKey p tcp) { delta := ntohl (p.ack_seq tcp) } := by
  unfold create
  dsimp only
  split <;> rfl

theorem translate_table (K : Helpers) (m : Conntrack) (p : Pkt) (tcp : Nat) (ts : Option Nat)
    (val : map_val_t) : (translate K m p tcp ts val).2.1 = m := by
  unfold translate
  dsimp only
  split <;> rfl

/-- An ACK leaves the entry of its flow alone when it has no tag, or when the new
entry is the old one. -/
theorem AckSeen.entry_iff {K : Helpers} {m : Conntrack} {p : Pkt} {tcp : Nat} {ts : Option Nat}
    {val : map_val_t} (h : AckSeen p tcp ts) (hval : m.lookup (inKey p tcp) = some val) :
    (xdp_router K m p).2.1.lookup (inKey p tcp) = some val ↔
      p.ece tcp = false ∨ val = { delta := ntohl (p.ack_seq tcp) } := by
  cases hece : p.ece tcp with
  | false =>
    rw [h.router]
    unfold ackBranch
    rw [hval, hece]
    dsimp only
    rw [translate_table]
    exact iff_of_true hval (.inl rfl)
  | true =>
    have hroom := BoundedMap.hasRoom_of_lookup hval
    rw [h.tagged hece, create_table, BoundedMap.lookup_putAny, if_pos ⟨rfl, hroom⟩]
    constructor
    · intro hnew
      exact .inr (Option.some.inj hnew).symm
    · rintro (hclear | rfl)
      · cases hclear
      · rfl

end server_in

/-- When `server_in` makes an entry of the frame without a check of its own, the
gateway has checked the SYN cookie of the frame. -/
def TagGated (o : Options) (a : Agent) (w : Nat) (p : Pkt) : Prop :=
  ∀ r tcp ts, xsknf_packet_processor o a p 0 w = some r → r.1 = SERVER_R_IF_ORDER →
    server_in.AckSeen r.2.2 tcp ts → r.2.2.ece tcp = true → CookieChecked o a p

/-- The client has not set ECE, or the gateway will set it behind a check. -/
def NoFreeTag (o : Options) (a : Agent) (p : Pkt) : Prop :=
  p.ece tcpAt = false ∨ (o.opt_forward = false ∧ bloom_filter_test a.bf (flowKey p) = false)

/-- Neither the client nor the gateway sets ECE. -/
def NoTag (o : Options) (a : Agent) (p : Pkt) : Prop := p.ece tcpAt = false ∧ Unchecked o a p

/-- When `server_in` sees an ACK of a flow with an entry in the frame, the entry
stays as it is. -/
def EntryKept (o : Options) (a : Agent) (w : Nat) (p : Pkt) : Prop :=
  ∀ K m r tcp ts val, xsknf_packet_processor o a p 0 w = some r → r.1 = SERVER_R_IF_ORDER →
    server_in.AckSeen r.2.2 tcp ts → m.lookup (inKey r.2.2 tcp) = some val →
    (server_in.xdp_router K m r.2.2).2.1.lookup (inKey r.2.2 tcp) = some val

section

variable {o : Options} {a : Agent} {p : Pkt} {w : Nat} {r : Int × Agent × Pkt} {tcp : Nat}
  {ts : Option Nat}

/-- Without IP options `server_in` finds the TCP header where the gateway does, and
an ACK there is no answer of the gateway. -/
theorem seen_change (hihl : p.ihl = 5) (h : xsknf_packet_processor o a p 0 w = some r)
    (hserver : r.1 = SERVER_R_IF_ORDER) (hack : server_in.AckSeen r.2.2 tcp ts) :
    tcp = tcpAt ∧ Pkt.SameOn 26 46 p r.2.2 ∧
      ((r.2.2.ece tcpAt = p.ece tcpAt ∧ p.ack tcpAt = true ∧ p.syn tcpAt = false ∧
          Unchecked o a p) ∨
        (r.2.2.ece tcpAt = true ∧ CookieChecked o a p)) := by
  have hout : r.1 ≠ -1 := by
    rw [hserver]
    decide
  obtain ⟨hihl', hchange⟩ := processor_reads h hout
  have hat : tcp = tcpAt := by
    rw [hack.header_at, hihl', hihl]
    rfl
  subst hat
  refine ⟨rfl, ?_⟩
  cases hchange with
  | answer hsyn => exact absurd (hack.syn.symm.trans hsyn) Bool.false_ne_true
  | keep hflag hfields hunchecked =>
    exact ⟨hfields, .inl ⟨hflag 6 (by decide), (hflag 4 (by decide)).symm.trans hack.ack,
      (hflag 1 (by decide)).symm.trans hack.syn, hunchecked⟩⟩
  | tag hflag hfields hchecked =>
    refine ⟨hfields, .inr ⟨?_, hchecked⟩⟩
    rw [Pkt.ece, hflag 6 (by decide)]
    exact Bool.or_true _

theorem CookieChecked.not_unchecked (h : CookieChecked o a p) : ¬ Unchecked o a p := by
  rintro (hforward | hflags | hknown)
  · exact Bool.false_ne_true (h.mode.symm.trans hforward)
  · exact hflags ⟨h.ack, h.syn⟩
  · exact Bool.false_ne_true (h.new.symm.trans hknown)

theorem tagged_iff (hihl : p.ihl = 5) (h : xsknf_packet_processor o a p 0 w = some r)
    (hserver : r.1 = SERVER_R_IF_ORDER) (hack : server_in.AckSeen r.2.2 tcp ts) :
    (r.2.2.ece tcp = true → CookieChecked o a p) ↔ NoFreeTag o a p := by
  obtain ⟨rfl, -, ⟨hece, hpack, hpsyn, hunchecked⟩ | ⟨-, hchecked⟩⟩ :=
    seen_change hihl h hserver hack
  · rw [hece]
    constructor
    · intro himp
      by_cases hp : p.ece tcpAt = true
      · exact .inr ⟨(himp hp).mode, (himp hp).new⟩
      · exact .inl (Bool.eq_false_iff.mpr hp)
    · rintro (hp | ⟨hmode, hnew⟩) hp'
      · exact absurd (hp.symm.trans hp') Bool.false_ne_true
      · rcases hunchecked with hf | hf | hf
        · exact absurd (hmode.symm.trans hf) Bool.false_ne_true
        · exact absurd ⟨hpack, hpsyn⟩ hf
        · exact absurd (hnew.symm.trans hf) Bool.false_ne_true
  · exact iff_of_true (fun _ => hchecked) (.inr ⟨hchecked.mode, hchecked.new⟩)

/-- `server_in` sees the tag unless neither the client nor the gateway sets it. -/
theorem ece_clear_iff (hihl : p.ihl = 5) (h : xsknf_packet_processor o a p 0 w = some r)
    (hserver : r.1 = SERVER_R_IF_ORDER) (hack : server_in.AckSeen r.2.2 tcp ts) :
    r.2.2.ece tcp = false ↔ NoTag o a p := by
  obtain ⟨rfl, -, ⟨hece, -, -, hunchecked⟩ | ⟨hece, hchecked⟩⟩ := seen_change hihl h hserver hack
  · rw [hece]
    exact ⟨fun hclear => ⟨hclear, hunchecked⟩, fun hno => hno.1⟩
  · rw [hece]
    exact iff_of_false Bool.noConfusion fun hno => hchecked.not_unchecked hno.2

/-- What a forwarded ACK does to the entry of its flow. -/
theorem entry_kept_iff {K : Helpers} {m : Conntrack} {val : map_val_t} (hihl : p.ihl = 5)
    (h : xsknf_packet_processor o a p 0 w = some r) (hserver : r.1 = SERVER_R_IF_ORDER)
    (hack : server_in.AckSeen r.2.2 tcp ts) (hval : m.lookup (inKey p tcpAt) = some val) :
    (server_in.xdp_router K m r.2.2).2.1.lookup (inKey p tcpAt) = some val ↔
      NoTag o a p ∨ val = { delta := ntohl (p.ack_seq tcpAt) } := by
  obtain ⟨rfl, hfields, -⟩ := seen_change hihl h hserver hack
  have hkey : inKey r.2.2 tcpAt = inKey p tcpAt :=
    inKey_eq (hfields.u32 (by decide) (by decide)) (hfields.u32 (by decide) (by decide))
      (hfields.u16 (by decide) (by decide)) (hfields.u16 (by decide) (by decide))
  have hnumber : r.2.2.ack_seq tcpAt = p.ack_seq tcpAt := hfields.u32 (by decide) (by decide)
  rw [← hkey] at hval ⊢
  rw [hack.entry_iff hval, ece_clear_iff hihl h hserver hack, hnumber]

end

/-! ## Frames with IP options -/

/-- An ACK with ECE behind an IP header of `n` words. The gateway reads zeros as
its flags and as its header length. -/
def taggedFrame (n : Nat) : Pkt := (optionsFrame n 0#32).set_flag (14 + n * 4) 6

/-- What the gateway and `server_in` read in such a frame. -/
structure ReadsTagged (n : Nat) (p : Pkt) : Prop where
  tcp : IsTcp p
  ihl : p.ihl = n
  daddr : p.daddr = server_ip
  stamp : stamp p = some none
  flags : p.syn tcpAt = false ∧ p.ack tcpAt = false ∧ p.ece tcpAt = false
  parse : parseHeaders (forward p).2 = .tcp (14 + n * 4) 32
  option : server_in.stamp (forward p).2 (14 + n * 4) 32 = some (some (14 + n * 4 + 22))
  tag : (forward p).2.ack (14 + n * 4) = true ∧ (forward p).2.syn (14 + n * 4) = false ∧
    (forward p).2.ece (14 + n * 4) = true

theorem taggedFrame_reads {n : Nat} (hn : 5 < n) (hn' : n ≤ 15) :
    ReadsTagged n (taggedFrame n) := by
  have hagent : ∀ n < 16, 5 < n → IsTcp (taggedFrame n) ∧ (taggedFrame n).ihl = n ∧
      (taggedFrame n).daddr = server_ip ∧ stamp (taggedFrame n) = some none ∧
      (taggedFrame n).syn tcpAt = false ∧ (taggedFrame n).ack tcpAt = false ∧
      (taggedFrame n).ece tcpAt = false := by
    decide
  have hserver : ∀ n < 16, 5 < n →
      parseHeaders (forward (taggedFrame n)).2 = .tcp (14 + n * 4) 32 ∧
      server_in.stamp (forward (taggedFrame n)).2 (14 + n * 4) 32 = some (some (14 + n * 4 + 22)) ∧
      (forward (taggedFrame n)).2.ack (14 + n * 4) = true ∧
      (forward (taggedFrame n)).2.syn (14 + n * 4) = false ∧
      (forward (taggedFrame n)).2.ece (14 + n * 4) = true := by
    decide
  obtain ⟨htcp, hihl, hdaddr, hstamp, hflags⟩ := hagent n (by omega) hn
  obtain ⟨hparse, hoption, htag⟩ := hserver n (by omega) hn
  exact ⟨htcp, hihl, hdaddr, hstamp, hflags, hparse, hoption, htag⟩

theorem forward_server {p : Pkt} (h : p.daddr = server_ip) : (forward p).1 = SERVER_R_IF_ORDER := by
  unfold forward
  rw [h, if_neg (by decide), if_pos rfl]

section

variable {o : Options} {n : Nat} {p : Pkt}

/-- The gateway sends the frame on without a check, and `server_in` sees the tag. -/
theorem ReadsTagged.sent (a : Agent) (w : Nat) (hdrop : o.opt_drop = false)
    (hreads : ReadsTagged n p) :
    (∃ b, xsknf_packet_processor o a p 0 w = some ((forward p).1, b, (forward p).2)) ∧
      server_in.AckSeen (forward p).2 (14 + n * 4) (some (14 + n * 4 + 22)) := by
  refine ⟨?_, ⟨32, hreads.parse, hreads.option⟩, hreads.tag.1, hreads.tag.2.1⟩
  cases hforward : o.opt_forward with
  | true => exact ⟨a, processor_forward hdrop hforward hreads.tcp⟩
  | false =>
    rw [processor_inbound hdrop hforward hreads.tcp hreads.stamp, hreads.flags.1, hreads.flags.2.1]
    exact ⟨_, rfl⟩

theorem not_tagGated (a : Agent) (w : Nat) (hdrop : o.opt_drop = false)
    (hreads : ReadsTagged n p) : ¬ TagGated o a w p := by
  intro hgated
  obtain ⟨⟨b, hproc⟩, hseen⟩ := hreads.sent a w hdrop
  have hchecked := hgated _ _ _ hproc (forward_server hreads.daddr) hseen hreads.tag.2.2
  exact absurd (hreads.flags.2.1.symm.trans hchecked.ack) Bool.false_ne_true

theorem exists_entry (k : server.map_key_t) (val : map_val_t) :
    ∃ m : Conntrack, m.lookup k = some val := by
  have hroom : (BoundedMap.empty : Conntrack).HasRoom k := .inr (by decide)
  refine ⟨BoundedMap.empty.putAny k val, ?_⟩
  rw [BoundedMap.lookup_putAny, if_pos ⟨rfl, hroom⟩]

/-- The frame resets an entry with a timestamp. -/
theorem not_entryKept (a : Agent) (w : Nat) (hdrop : o.opt_drop = false)
    (hreads : ReadsTagged n p) : ¬ EntryKept o a w p := by
  intro hkept
  obtain ⟨⟨b, hproc⟩, hseen⟩ := hreads.sent a w hdrop
  obtain ⟨m, hval⟩ := exists_entry (inKey (forward p).2 (14 + n * 4)) ⟨77, 5⟩
  have hsame := hkept server.kernelHelpers m _ _ _ _ hproc (forward_server hreads.daddr) hseen hval
  rcases (hseen.entry_iff hval).mp hsame with hece | hnew
  · exact Bool.false_ne_true (hece.symm.trans hreads.tag.2.2)
  · injection hnew with hstamp
    exact absurd hstamp (by decide)

theorem taggedFrame_noTag (o : Options) (a : Agent) (hreads : ReadsTagged n p) : NoTag o a p := by
  refine ⟨hreads.flags.2.2, .inr (.inl fun hflags => ?_)⟩
  exact Bool.false_ne_true (hreads.flags.2.1.symm.trans hflags.1)

/-- A property that the frames without IP options have, and the frame above has not,
holds for the header lengths where the gateway drops all frames, and for 5. -/
theorem forall_ihl_iff {C P : Pkt → Prop} (hn : 5 ≤ n) (hn' : n ≤ 15)
    (hfail : ∀ q, o.opt_drop = false → ReadsTagged n q → C q ∧ ¬ P q)
    (hdrop : o.opt_drop = true → ∀ q, P q) (hplain : ∀ q, q.ihl = 5 → C q → P q) :
    (∀ q : Pkt, q.ihl = n → C q → P q) ↔ o.opt_drop = true ∨ n = 5 := by
  constructor
  · intro h
    by_contra hcond
    rw [not_or] at hcond
    have hreads := taggedFrame_reads (n := n) (by omega) hn'
    obtain ⟨hC, hP⟩ := hfail _ (Bool.eq_false_iff.mpr hcond.1) hreads
    exact hP (h _ hreads.ihl hC)
  · rintro (hall | rfl) q hihl hC
    · exact hdrop hall q
    · exact hplain q hihl hC

theorem dropped_ne_server {a : Agent} {w : Nat} {r : Int × Agent × Pkt} (hdrop : o.opt_drop = true)
    (h : xsknf_packet_processor o a p 0 w = some r) : r.1 ≠ SERVER_R_IF_ORDER := by
  rw [processor_drop hdrop] at h
  rw [← Option.some.inj h]
  exact (by decide : (-1 : Int) ≠ SERVER_R_IF_ORDER)

end

/-- Without IP options: an ACK that makes an entry by its tag was checked by the
gateway, just when the client has not set ECE or the gateway checks its flow. And
an ACK leaves the entry of its flow alone just when neither the client nor the
gateway sets ECE, or when the entry is what the ACK makes it. For the frames with
an IP header of `n` words the two conditions are enough just when the gateway drops
all frames or `n` is 5. -/
theorem only_the_gateway_tags_iff (o : Options) (a : Agent) (w : Nat) :
    (∀ (p : Pkt) (r : Int × Agent × Pkt) (tcp : Nat) (ts : Option Nat), p.ihl = 5 →
      xsknf_packet_processor o a p 0 w = some r → r.1 = SERVER_R_IF_ORDER →
      server_in.AckSeen r.2.2 tcp ts →
      ((r.2.2.ece tcp = true → CookieChecked o a p) ↔ NoFreeTag o a p) ∧
      ∀ (K : Helpers) (m : Conntrack) (val : map_val_t), m.lookup (inKey p tcpAt) = some val →
        ((server_in.xdp_router K m r.2.2).2.1.lookup (inKey p tcpAt) = some val ↔
          NoTag o a p ∨ val = { delta := ntohl (p.ack_seq tcpAt) })) ∧
    (∀ n, 5 ≤ n → n ≤ 15 →
      ((∀ p : Pkt, p.ihl = n → NoFreeTag o a p → TagGated o a w p) ↔
        o.opt_drop = true ∨ n = 5) ∧
      ((∀ p : Pkt, p.ihl = n → NoTag o a p → EntryKept o a w p) ↔
        o.opt_drop = true ∨ n = 5)) := by
  constructor
  · intro p r tcp ts hihl h hserver hack
    exact ⟨tagged_iff hihl h hserver hack,
      fun K m val hval => entry_kept_iff hihl h hserver hack hval⟩
  · intro n hn hn'
    constructor
    · refine forall_ihl_iff hn hn' (fun q hdrop hreads => ?_) (fun hdrop q => ?_)
        fun q hihl hfree r tcp ts h hserver hack => (tagged_iff hihl h hserver hack).mpr hfree
      · exact ⟨.inl hreads.flags.2.2, not_tagGated a w hdrop hreads⟩
      · intro r tcp ts h hserver
        exact absurd hserver (dropped_ne_server hdrop h)
    · refine forall_ihl_iff hn hn' (fun q hdrop hreads => ?_) (fun hdrop q => ?_)
        fun q hihl hno K m r tcp ts val h hserver hack hval => ?_
      · exact ⟨taggedFrame_noTag o a hreads, not_entryKept a w hdrop hreads⟩
      · intro K m r tcp ts val h hserver
        exact absurd hserver (dropped_ne_server hdrop h)
      · exact (hack.entry_iff hval).mpr (.inl ((ece_clear_iff hihl h hserver hack).mpr hno))

/-- An ACK of the same flow with ECE, which the client has set, and any number. -/
def clientTag : Pkt := .segment client_ip server_ip 7 80 9 0 0x50 5 6

/-- The table with the entry of the flow. -/
def flowTable : Conntrack :=
  BoundedMap.empty.putAny (inKey clientTag tcpAt) { ts_val_s := 77, delta := 5 }

theorem flowTable_lookup : flowTable.lookup (inKey clientTag tcpAt) = some ⟨77, 5⟩ := by
  have hroom : (BoundedMap.empty : Conntrack).HasRoom (inKey clientTag tcpAt) := .inr (by decide)
  rw [flowTable, BoundedMap.lookup_putAny, if_pos ⟨rfl, hroom⟩]

theorem laterAck_flow : flowTable.lookup (inKey laterAck tcpAt) = some ⟨77, 5⟩ := by
  have hkey : inKey laterAck tcpAt = inKey clientTag tcpAt :=
    inKey_eq (by decide) (by decide) (by decide) (by decide)
  rw [hkey]
  exact flowTable_lookup

theorem rewriteAck_plain {o : Options} {p : Pkt} {ts : Nat} (h : p.tsecr ts ≠ 1) (a : Agent)
    (w : Nat) : rewriteAck o a p w ts = (a, p) := by
  unfold rewriteAck
  rw [decide_eq_false h, Bool.and_false, Bool.false_and, if_neg Bool.false_ne_true]

/-- The gateway knows the flow behind its first ACK, and sends a later ACK on. -/
theorem known_sent {p : Pkt} (htcp : IsTcp p) (hstamp : stamp p = some (some 56))
    (hack : p.ack tcpAt = true) (hsyn : p.syn tcpAt = false)
    (hkey : inKey p tcpAt = inKey checkedAck tcpAt) (hecho : p.tsecr 56 ≠ 1) :
    bloom_filter_test (learn .boot checkedAck 0).bf (flowKey p) = true ∧
      xsknf_packet_processor {} (learn .boot checkedAck 0) p 0 0 =
        some ((forward p).1, record (learn .boot checkedAck 0) p 0, (forward p).2) := by
  have hknown : bloom_filter_test (learn .boot checkedAck 0).bf (flowKey p) = true := by
    rw [flowKey_of_inKey hkey]
    exact bloom_filter_test_put _ (Nat.succ_pos 3145727)
  refine ⟨hknown, ?_⟩
  rw [processor_ack rfl rfl htcp hstamp hack hsyn, inboundAck_known hknown, forwardAck_some,
    rewriteAck_plain hecho]

/-- The first ACK of a client without ECE makes an entry by the tag that the gateway
has set behind its check. A later ACK without ECE leaves the entry alone. -/
theorem the_tag_of_the_first_ack_is_checked :
    (∃ r, xsknf_packet_processor {} .boot checkedAck 0 0 = some r ∧ r.2.2.ece tcpAt = true ∧
      server_in.AckSeen r.2.2 tcpAt (some 56) ∧ CookieChecked {} .boot checkedAck) ∧
    flowTable.lookup (inKey laterAck tcpAt) = some ⟨77, 5⟩ ∧
    ∃ r, xsknf_packet_processor {} (learn .boot checkedAck 0) laterAck 0 0 = some r ∧
      r.1 = SERVER_R_IF_ORDER ∧
      (server_in.xdp_router server.kernelHelpers flowTable r.2.2).2.1.lookup
        (inKey laterAck tcpAt) = some ⟨77, 5⟩ := by
  constructor
  · have htcp : IsTcp checkedAck := by decide
    have hack : checkedAck.ack tcpAt = true := by decide
    have hsyn : checkedAck.syn tcpAt = false := by decide
    have hproc : xsknf_packet_processor {} .boot checkedAck 0 0 =
        some ((forward (checkedAck.set_flag tcpAt 6)).1, learn .boot checkedAck 0,
          (forward (checkedAck.set_flag tcpAt 6)).2) := by
      rw [processor_ack rfl rfl htcp stamp_checkedAck hack hsyn,
        inboundAck_checked checkedAck_new checkedAck_synCheck, forwardAck_some,
        rewriteAck_plain (by decide)]
    have hseen : server_in.AckSeen (forward (checkedAck.set_flag tcpAt 6)).2 tcpAt (some 56) :=
      ⟨⟨32, by decide, by decide⟩, by decide, by decide⟩
    have hece : (forward (checkedAck.set_flag tcpAt 6)).2.ece tcpAt = true := by decide
    have hchecked := ((only_the_gateway_tags_iff {} .boot 0).1 checkedAck _ tcpAt (some 56)
      (by decide) hproc (forward_server (by decide)) hseen).1.mpr (.inr ⟨rfl, checkedAck_new⟩) hece
    exact ⟨_, hproc, hece, hseen, hchecked⟩
  · have hkey : inKey laterAck tcpAt = inKey checkedAck tcpAt :=
      inKey_eq (by decide) (by decide) (by decide) (by decide)
    obtain ⟨hknown, hproc⟩ := known_sent (p := laterAck) (by decide) (by decide) (by decide)
      (by decide) hkey (by decide)
    have hseen : server_in.AckSeen (forward laterAck).2 tcpAt (some 56) :=
      ⟨⟨32, by decide, by decide⟩, by decide, by decide⟩
    have hkept := (((only_the_gateway_tags_iff {} (learn .boot checkedAck 0) 0).1 laterAck _ tcpAt
      (some 56) (by decide) hproc (forward_server (by decide)) hseen).2 server.kernelHelpers
      flowTable _ laterAck_flow).mpr (.inl ⟨by decide, .inr (.inr hknown)⟩)
    exact ⟨laterAck_flow, _, hproc, forward_server (by decide), hkept⟩

/-- The gateway knows the flow and checks nothing; the entry of the flow is lost. -/
theorem a_tag_of_the_client_resets_its_entry :
    synCheck clientTag = false ∧ flowTable.lookup (inKey clientTag tcpAt) = some ⟨77, 5⟩ ∧
      ∃ r, xsknf_packet_processor {} (learn .boot checkedAck 0) clientTag 0 0 = some r ∧
        r.1 = SERVER_R_IF_ORDER ∧
        (server_in.xdp_router server.kernelHelpers flowTable r.2.2).2.1.lookup
          (inKey clientTag tcpAt) = some ⟨0, 0⟩ := by
  have hkey : inKey clientTag tcpAt = inKey checkedAck tcpAt :=
    inKey_eq (by decide) (by decide) (by decide) (by decide)
  obtain ⟨-, hproc⟩ := known_sent (p := clientTag) (by decide) (by decide) (by decide)
    (by decide) hkey (by decide)
  have hseen : server_in.AckSeen (forward clientTag).2 tcpAt (some 56) :=
    ⟨⟨32, by decide, by decide⟩, by decide, by decide⟩
  have hkey' : inKey (forward clientTag).2 tcpAt = inKey clientTag tcpAt :=
    inKey_eq (by decide) (by decide) (by decide) (by decide)
  have hnum : ntohl ((forward clientTag).2.ack_seq tcpAt) = 0 := by decide
  refine ⟨by decide, flowTable_lookup, _, hproc, forward_server (by decide), ?_⟩
  rw [hseen.tagged (by decide), server_in.create_table, hkey', hnum, BoundedMap.lookup_putAny,
    if_pos ⟨rfl, BoundedMap.hasRoom_of_lookup flowTable_lookup⟩]

end edge_cookie.smartcookie
