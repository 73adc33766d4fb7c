-- A connection of smartcookie as its two ends see it. The client has the cookie
-- of the gateway for the first number of the server, and the server has one of
-- its own. The server agent makes the handshake of the server, and then gives
-- each end the numbers that it knows, in every segment.
import EdgeCookie.FinalAck
import EdgeCookie.SmartEcho

namespace edge_cookie.smartcookie

open bytes headers runs
open server (Helpers map_key_t parseHeaders parseHeaders_tcp parseHeaders_fits inKey enKey)
open switch_agent (tcpAt client_ip server_ip)

/-! ## The entry of a flow between handshakes -/

/-- The step begins no handshake of the flow `k` that has an entry: an ACK of the
client has no tag, and a segment of the server is no SYN-ACK. -/
def Quiet (k : map_key_t) : ServerEvent → Prop
  | .ingress p => ∀ tcp ts, server_in.AckSeen p tcp ts → inKey p tcp = k → p.ece tcp = false
  | .egress p =>
    ∀ tcp len, parseHeaders p = .tcp tcp len → enKey p tcp = k → (p.ack tcp && p.syn tcp) = false

/-- The difference in the entry of a flow. -/
def storedDelta (k : map_key_t) (m : Conntrack) : Option U32 := (m.lookup k).map map_val_t.delta

section

variable {K : Helpers} {k : map_key_t} {m : Conntrack} {d : U32} {e : ServerEvent}
  {es : List ServerEvent}

theorem storedDelta_eq_some :
    storedDelta k m = some d ↔ ∃ val, m.lookup k = some val ∧ val.delta = d :=
  Option.map_eq_some_iff

theorem stampVal_delta (p : Pkt) (val : map_val_t) (ts : Option Nat) :
    (server_en.stampVal p val ts).delta = val.delta := by
  cases ts <;> rfl

theorem segmentBranch_delta {p : Pkt} {tcp : Nat} {ts : Option Nat} {val : map_val_t}
    (hval : m.lookup (enKey p tcp) = some val) :
    storedDelta (enKey p tcp) (server_en.segmentBranch m p tcp ts val).2.1 = some val.delta := by
  unfold server_en.segmentBranch storedDelta
  dsimp only
  split
  · rw [BoundedMap.lookup_putExist_same hval]
    exact congrArg some (stampVal_delta p val ts)
  · rw [hval]
    rfl

theorem delta_step (he : Quiet k e) (hk : storedDelta k m = some d) :
    storedDelta k (serverStep K m e) = some d := by
  obtain ⟨val, hval, rfl⟩ := storedDelta_eq_some.mp hk
  cases e with
  | ingress p => exact storedDelta_eq_some.mpr ⟨val, ingress_stamp he hval, rfl⟩
  | egress p =>
    by_cases hflow : ∃ tcp len, parseHeaders p = .tcp tcp len ∧ enKey p tcp = k
    · obtain ⟨tcp, len, hparse, rfl⟩ := hflow
      change storedDelta _ (server_en.xdp_router K m p).2.1 = _
      cases hstamp : server_en.stamp p tcp len with
      | none =>
        rw [server_en.router_unread hparse hstamp]
        exact hk
      | some ts =>
        rw [server_en.router_tcp hparse hstamp hval, he tcp len hparse rfl]
        exact segmentBranch_delta hval
    · have hother : ∀ tcp len, parseHeaders p = .tcp tcp len → enKey p tcp ≠ k :=
        fun tcp len hparse hkey => hflow ⟨tcp, len, hparse, hkey⟩
      exact storedDelta_eq_some.mpr ⟨val, (server_en.router_other hother).trans hval, rfl⟩

theorem delta_run (hes : ∀ e ∈ es, Quiet k e) (hk : storedDelta k m = some d) :
    storedDelta k (run (serverStep K) m es) = some d :=
  run_invariant_of (fun m => storedDelta k m = some d) hes (fun _ _ he h => delta_step he h) hk

end

/-! ## The SYN for the server -/

/-- The SYN that the ACK `p` of the client becomes. -/
structure OpeningSyn (p q : Pkt) (tcp : Nat) : Prop where
  flow : inKey q tcp = inKey p tcp
  seq : ntohl (q.seq tcp) = ntohl (p.seq tcp) - 1
  ack_seq : q.ack_seq tcp = 0
  syn : q.syn tcp = true
  ack : q.ack tcp = false
  ece : q.ece tcp = false

section

variable {K : Helpers} {m : Conntrack} {p : Pkt} {tcp : Nat} {ts : Option Nat}

/-- The header of the SYN, before its checksum and its echo are written. -/
def synHeader (p : Pkt) (tcp : Nat) : Pkt :=
  let p := ((p.clear_flag tcp 4).set_flag tcp 1).clear_flag tcp 6
  (p.put32 (tcp + 4) (htonl (ntohl (p.seq tcp) - 1))).put32 (tcp + 8) 0

theorem clearEcho_header (csum : U64) (hts : ∀ t, ts = some t → tcp + 20 ≤ t) :
    Pkt.SameOn 0 (tcp + 16) p (server_in.clearEcho K p tcp csum ts) := by
  cases ts with
  | none => exact (Pkt.SameOn.refl _ _ _).put (by omega)
  | some t =>
    have ht := hts t rfl
    exact ((Pkt.SameOn.refl _ _ _).put (by omega)).put (by omega)

theorem inKey_of_sameOn {q : Pkt} {hi : Nat} (htcp : 34 ≤ tcp) (hhi : tcp + 4 ≤ hi)
    (h : Pkt.SameOn 0 hi p q) :
    inKey q tcp = inKey p tcp :=
  inKey_eq (h.u32 (by omega) (by omega)) (h.u32 (by omega) (by omega)) (h.u16 (by omega) (by omega))
    (h.u16 (by omega) (by omega))

theorem OpeningSyn.sameOn {q r : Pkt} (h : OpeningSyn p q tcp) (htcp : 34 ≤ tcp)
    (hr : Pkt.SameOn 0 (tcp + 16) q r) :
    OpeningSyn p r tcp := by
  have hseq : r.seq tcp = q.seq tcp := hr.u32 (by omega) (by omega)
  constructor
  · exact (inKey_of_sameOn htcp (by omega) hr).trans h.flow
  · rw [hseq, h.seq]
  · exact (hr.u32 (by omega) (by omega)).trans h.ack_seq
  · exact (hr.flag (by omega) (by omega) 1).trans h.syn
  · exact (hr.flag (by omega) (by omega) 4).trans h.ack
  · exact (hr.flag (by omega) (by omega) 6).trans h.ece

theorem synHeader_opens (htcp : 34 ≤ tcp) : OpeningSyn p (synHeader p tcp) tcp := by
  have hflags : ∀ lo hi, hi ≤ tcp + 13 →
      Pkt.SameOn lo hi p (((p.clear_flag tcp 4).set_flag tcp 1).clear_flag tcp 6) := fun lo hi h =>
    (((Pkt.SameOn.refl _ _ _).put (by omega)).put (by omega)).put (by omega)
  have hlow : Pkt.SameOn 0 (tcp + 4) p (synHeader p tcp) :=
    ((hflags 0 (tcp + 4) (by omega)).put (by omega)).put (by omega)
  have hflag : ∀ i < 8, (synHeader p tcp).flag tcp i =
      (((p.flag tcp i && !decide (4 = i)) || decide (1 = i)) && !decide (6 = i)) := by
    intro i hi
    unfold synHeader
    dsimp only
    rw [Pkt.flag_put_ne _ (by omega), Pkt.flag_put_ne _ (by omega), Pkt.flag_clear_flag _ _ _ _ hi,
      Pkt.flag_set_flag _ _ _ _ hi, Pkt.flag_clear_flag _ _ _ _ hi]
  constructor
  · exact inKey_of_sameOn htcp (Nat.le_refl _) hlow
  · have hseq : (synHeader p tcp).seq tcp = htonl (ntohl (p.seq tcp) - 1) := by
      unfold synHeader
      dsimp only
      rw [Pkt.seq, Pkt.u32_put_ne _ _ _ _ _ (by omega), Pkt.u32_put_same]
      exact congrArg (fun x => htonl (ntohl x - 1))
        ((hflags 0 (tcp + 12) (by omega)).u32 (by omega) (by omega))
    rw [hseq, ntohl_htonl]
  · unfold synHeader
    exact Pkt.u32_put_same _ _ _
  · exact (hflag 1 (by decide)).trans (by simp)
  · exact (hflag 4 (by decide)).trans (by simp)
  · exact (hflag 6 (by decide)).trans (by simp)

theorem create_opens (htcp : 34 ≤ tcp) (hlen : tcp + 16 ≤ p.len)
    (hts : ∀ t, ts = some t → tcp + 20 ≤ t) :
    (server_in.create K m p tcp ts).1 = .XDP_PASS ∧
    OpeningSyn p (server_in.create K m p tcp ts).2.2 tcp := by
  unfold server_in.create
  dsimp only
  rw [if_neg (Nat.not_lt.mpr hlen)]
  exact ⟨rfl, (synHeader_opens htcp).sameOn htcp (clearEcho_header _ hts)⟩

end

/-! ## The last ACK for the server -/

/-- The ACK that the SYN-ACK `p` of the server becomes. -/
structure AnsweringAck (p q : Pkt) (tcp : Nat) : Prop where
  flow : inKey q tcp = enKey p tcp
  seq : q.seq tcp = p.ack_seq tcp
  ack_seq : ntohl (q.ack_seq tcp) = ntohl (p.seq tcp) + 1
  syn : q.syn tcp = false
  ack : q.ack tcp = true

/-- Addresses, ports and numbers change places, and the ACK is for one number
more. -/
def exchanged (p : Pkt) (tcp : Nat) : Pkt :=
  let p := p.xor_swap 4 26 30
  let p := p.xor_swap 2 tcp (tcp + 2)
  let p := p.xor_swap 4 (tcp + 4) (tcp + 8)
  p.put32 (tcp + 8) (htonl (ntohl (p.ack_seq tcp) + 1))

section

variable {K : Helpers} {m : Conntrack} {p : Pkt} {tcp len : Nat} {ts : Option Nat} {val : map_val_t}

/-- The window aside, it is the header of the other server agent. -/
theorem exchanged_sameOn (htcp : 34 ≤ tcp) :
    Pkt.SameOn 26 (tcp + 12) (turnedHeader p tcp) (exchanged p tcp) := by
  have hwindow : Pkt.SameOn 26 (tcp + 12) (p.put16 (tcp + 14) (htons 0x1F6)) p := fun i h1 h2 =>
    ((Pkt.SameOn.refl 26 (tcp + 12) p).put (by omega) i h1 h2).symm
  have haddresses := hwindow.xor_swap_both (b := 26) (c := 30) (n := 4) (by omega) (by omega)
    (by omega) (by omega) (by omega)
  have hports := haddresses.xor_swap_both (b := tcp) (c := tcp + 2) (n := 2) (by omega) (by omega)
    (by omega) (by omega) (by omega)
  have hswapped := hports.xor_swap_both (b := tcp + 4) (c := tcp + 8) (n := 4) (by omega)
    (by omega) (by omega) (by omega) (by omega)
  have hnumber := hswapped.u32 (a := tcp + 8) (by omega) (by omega)
  unfold turnedHeader exchanged
  dsimp only
  rw [Pkt.ack_seq, Pkt.ack_seq, hnumber]
  exact hswapped.put_both _ _ _

theorem exchanged_flag (htcp : 34 ≤ tcp) (i : Nat) :
    (exchanged p tcp).flag tcp i = p.flag tcp i := by
  have hkeep : Pkt.SameOn (tcp + 13) (tcp + 14) p (exchanged p tcp) :=
    ((((Pkt.SameOn.refl _ _ _).xor_swap (by omega) (by omega)).xor_swap (by omega)
      (by omega)).xor_swap (by omega) (by omega)).put (by omega)
  exact hkeep.flag (by omega) (by omega) i

theorem server_en.stamp_behind (h : server_en.stamp p tcp len = some ts) :
    ∀ t, ts = some t → tcp + 20 ≤ t ∧ 32 < len := by
  rintro t rfl
  unfold server_en.stamp at h
  split at h
  · rename_i hlen
    obtain ⟨off, -, hoff⟩ := Option.map_eq_some_iff.mp h
    cases hoff
    exact ⟨Nat.le_add_right _ _, hlen⟩
  · cases h

/-- What the branch does first, when there is a timestamp option. -/
def echoBack (p : Pkt) (tcp : Nat) : Option Nat → Pkt
  | none => p
  | some ts => (p.put16 (tcp + 14) (htons 0x1F6)).xor_swap 4 (ts + 2) (ts + 6)

theorem echoBack_sameOn (hts : ∀ t, ts = some t → tcp + 20 ≤ t) :
    Pkt.SameOn 0 (tcp + 14) p (echoBack p tcp ts) := by
  cases ts with
  | none => exact Pkt.SameOn.refl _ _ _
  | some t =>
    have ht := hts t rfl
    exact ((Pkt.SameOn.refl _ _ _).put (by omega)).xor_swap (by omega) (by omega)

/-- The ACK without its checksum. -/
def answer (p : Pkt) (tcp : Nat) (ts : Option Nat) : Pkt :=
  turnedBack (exchanged (echoBack p tcp ts) tcp) tcp

theorem synackBranch_eq :
    server_en.synackBranch K m p tcp ts val =
      let m := m.putExist (enKey p tcp)
        (server_en.stampVal p { val with delta := val.delta - ntohl (p.seq tcp) - 1 } ts)
      let size := if ts.isSome then 36 else 24
      if (answer p tcp ts).len < tcp + size then (.TC_ACT_SHOT, m, answer p tcp ts)
      else (.redirect edge_cookie.server_en.SERVER_IF, m,
        (answer p tcp ts).put16 (tcp + 16) (server.ipv4_l4_csum K (answer p tcp ts) tcp size)) := by
  cases ts <;> rfl

theorem answer_len : (answer p tcp ts).len = p.len := by
  cases ts <;> rfl

theorem answer_answers (htcp : 34 ≤ tcp) (hts : ∀ t, ts = some t → tcp + 20 ≤ t)
    (hack : p.ack tcp = true) (csum : U16) :
    AnsweringAck p ((answer p tcp ts).put16 (tcp + 16) csum) tcp := by
  unfold answer
  have hfirst := echoBack_sameOn (p := p) hts
  generalize echoBack p tcp ts = r at hfirst ⊢
  obtain ⟨hsaddr, hdaddr, hsource, hdest, hseq, hnumber⟩ := turnedHeader_fields (p := r) htcp
  have hheader : Pkt.SameOn 26 (tcp + 12) (turnedHeader r tcp)
      ((turnedBack (exchanged r tcp) tcp).put16 (tcp + 16) csum) :=
    ((exchanged_sameOn htcp).trans (turnedBack_sameOn (by omega) (by omega) (by omega))).put
      (by omega)
  have hflag : ∀ i < 8, ((turnedBack (exchanged r tcp) tcp).put16 (tcp + 16) csum).flag tcp i =
      (p.flag tcp i && !decide (1 = i)) := by
    intro i hi
    have hcopy :
        Pkt.SameOn (tcp + 13) (tcp + 14) (((exchanged r tcp).clear_flag tcp 1).put16 (tcp + 16) 0)
        (turnedBack (exchanged r tcp) tcp) := turnedBack_copies (by omega)
    rw [Pkt.flag_put_ne _ (by omega), hcopy.flag (by omega) (by omega) i,
      Pkt.flag_put_ne _ (by omega), Pkt.flag_clear_flag _ _ _ _ hi, exchanged_flag htcp,
      hfirst.flag (by omega) (by omega)]
  constructor
  · refine (map_key_t.mk.injEq ..).mpr ⟨?_, ?_, ?_, ?_⟩
    · exact ((hheader.u32 (by omega) (by omega)).trans hsaddr).trans
        (hfirst.u32 (by omega) (by omega))
    · exact ((hheader.u32 (by omega) (by omega)).trans hdaddr).trans
        (hfirst.u32 (by omega) (by omega))
    · exact ((hheader.u16 (by omega) (by omega)).trans hsource).trans
        (hfirst.u16 (by omega) (by omega))
    · exact ((hheader.u16 (by omega) (by omega)).trans hdest).trans
        (hfirst.u16 (by omega) (by omega))
  · exact ((hheader.u32 (by omega) (by omega)).trans hseq).trans (hfirst.u32 (by omega) (by omega))
  · have hread := (hheader.u32 (a := tcp + 8) (by omega) (by omega)).trans hnumber
    have hisn : r.seq tcp = p.seq tcp := hfirst.u32 (by omega) (by omega)
    rw [Pkt.ack_seq, hread, ntohl_htonl, hisn]
  · exact (hflag 1 (by decide)).trans (Bool.and_false _)
  · exact (hflag 4 (by decide)).trans (by rw [Bool.and_eq_true]; exact ⟨hack, rfl⟩)

end

/-! ## Later segments -/

/-- What the agent makes of the segments of a flow when the client has `c` and the
server has `s` for the first number of the server: each gets the numbers of its
own, and all other numbers are left alone. -/
structure Splice (K : Helpers) (m : Conntrack) (k : map_key_t) (c s : U32) : Prop where
  toServer : ∀ q tcp ts, server_in.AckSeen q tcp ts → inKey q tcp = k → q.ece tcp = false →
    (server_in.xdp_router K m q).1 = .XDP_PASS ∧
      (server_in.xdp_router K m q).2.2.seq tcp = q.seq tcp ∧
      ∀ n, ntohl (q.ack_seq tcp) = c + n →
        ntohl ((server_in.xdp_router K m q).2.2.ack_seq tcp) = s + n
  toClient : ∀ p tcp len ts, parseHeaders p = .tcp tcp len → server_en.stamp p tcp len = some ts →
    enKey p tcp = k → (p.ack tcp && p.syn tcp) = false →
    (server_en.xdp_router K m p).1 = .TC_ACT_OK ∧
      (server_en.xdp_router K m p).2.2.ack_seq tcp = p.ack_seq tcp ∧
      ∀ n, ntohl (p.seq tcp) = s + n → ntohl ((server_en.xdp_router K m p).2.2.seq tcp) = c + n

section

variable {K : Helpers} {k : map_key_t} {m : Conntrack}

theorem setEcho_header {p : Pkt} {tcp : Nat} {ts : Option Nat} (csum : U64) (tsecr : U32)
    (hts : ∀ t, ts = some t → tcp + 20 ≤ t) :
    Pkt.SameOn 0 (tcp + 16) p (server_in.setEcho K p tcp csum tsecr ts) := by
  cases ts with
  | none => exact (Pkt.SameOn.refl _ _ _).put (by omega)
  | some t =>
    have ht := hts t rfl
    exact ((Pkt.SameOn.refl _ _ _).put (by omega)).put (by omega)

theorem translate_numbers {p : Pkt} {tcp : Nat} {ts : Option Nat} (val : map_val_t)
    (hlen : tcp + 16 ≤ p.len) (hts : ∀ t, ts = some t → tcp + 20 ≤ t) :
    (server_in.translate K m p tcp ts val).1 = .XDP_PASS ∧
      (server_in.translate K m p tcp ts val).2.2.seq tcp = p.seq tcp ∧
      ntohl ((server_in.translate K m p tcp ts val).2.2.ack_seq tcp) =
        ntohl (p.ack_seq tcp) - val.delta := by
  unfold server_in.translate
  dsimp only
  rw [if_neg (Nat.not_lt.mpr hlen)]
  have hecho := fun r csum => setEcho_header (K := K) (p := r) csum val.ts_val_s hts
  refine ⟨rfl, ?_, ?_⟩
  · refine ((hecho _ _).u32 (by omega) (by omega)).trans ?_
    exact (((Pkt.SameOn.refl 0 (tcp + 8) p).put (by omega)).put (by omega)).u32
      (by omega) (by omega)
  · rw [Pkt.ack_seq, (hecho _ _).u32 (by omega) (by omega), Pkt.clear_flag,
      Pkt.u32_put_ne _ _ _ _ _ (by omega), Pkt.u32_put_same, ntohl_htonl]

theorem splice_of_delta {c s : U32} (h : storedDelta k m = some (c - s)) : Splice K m k c s := by
  obtain ⟨val, hval, hdelta⟩ := storedDelta_eq_some.mp h
  constructor
  · rintro q tcp ts hseen rfl hece
    obtain ⟨len, hparse, hstamp⟩ := hseen.parse
    have hlen := parseHeaders_fits hparse
    have hts := server_in.stamp_behind hstamp
    obtain ⟨hpass, hseq, hack⟩ :=
      translate_numbers (K := K) (m := m) val (by omega : tcp + 16 ≤ q.len) hts
    rw [hseen.router]
    unfold server_in.ackBranch
    rw [hval, hece]
    refine ⟨hpass, hseq, fun n hn => hack.trans ?_⟩
    rw [hn, hdelta]
    grind
  · rintro p tcp len ts hparse hstamp rfl hflags
    rw [server_en.router_tcp hparse hstamp hval, hflags]
    unfold server_en.segmentBranch
    refine ⟨rfl, Pkt.u32_put_ne _ _ _ _ _ (by omega), fun n hn => ?_⟩
    dsimp only
    rw [if_neg Bool.false_ne_true, Pkt.seq, Pkt.u32_put_same, ntohl_htonl, hn, hdelta]
    grind

/-- The ACK of the client makes an entry with the number after the cookie. -/
theorem create_delta {q : Pkt} {tcp : Nat} {ts : Option Nat} (hseen : server_in.AckSeen q tcp ts)
    (hkey : inKey q tcp = k) (hroom : m.HasRoom k)
    (hnew : q.ece tcp = true ∨ (m.lookup k = none ∧ server_in.synCheck q tcp = true)) :
    server_in.xdp_router K m q = server_in.create K m q tcp ts ∧
      storedDelta k (server_in.xdp_router K m q).2.1 = some (ntohl (q.ack_seq tcp)) := by
  subst hkey
  have hcreate : server_in.xdp_router K m q = server_in.create K m q tcp ts := by
    rcases hnew with hece | ⟨hnone, hcheck⟩
    · exact hseen.tagged hece
    · rw [hseen.router]
      unfold server_in.ackBranch
      rw [hnone]
      cases q.ece tcp with
      | true => rfl
      | false => exact if_pos hcheck
  refine ⟨hcreate, ?_⟩
  rw [hcreate, server_in.create_table]
  unfold storedDelta
  rw [BoundedMap.lookup_putAny, if_pos ⟨rfl, hroom⟩]
  rfl

/-- The SYN-ACK of the server leaves the difference of the two numbers. -/
theorem synack_delta {p : Pkt} {tcp len : Nat} {ts : Option Nat} {d : U32}
    (hparse : parseHeaders p = .tcp tcp len) (hstamp : server_en.stamp p tcp len = some ts)
    (hflags : (p.ack tcp && p.syn tcp) = true) (hk : storedDelta (enKey p tcp) m = some d) :
    storedDelta (enKey p tcp) (server_en.xdp_router K m p).2.1 =
      some (d - 1 - ntohl (p.seq tcp)) := by
  obtain ⟨val, hval, rfl⟩ := storedDelta_eq_some.mp hk
  rw [server_en.router_tcp hparse hstamp hval, if_pos hflags, server_en.synackBranch_table]
  refine storedDelta_eq_some.mpr ⟨_, BoundedMap.lookup_putExist_same hval, ?_⟩
  rw [stampVal_delta]
  change val.delta - ntohl (p.seq tcp) - 1 = val.delta - 1 - ntohl (p.seq tcp)
  grind

end

/-- A SYN-ACK with the timestamp option has the 36 bytes that its checksum covers. -/
theorem synack_fits {p : Pkt} {tcp len : Nat} {ts : Option Nat}
    (hparse : parseHeaders p = .tcp tcp len) (hstamp : server_en.stamp p tcp len = some ts)
    (h : ts.isSome ∨ tcp + 24 ≤ p.len) :
    (tcp + if ts.isSome then 36 else 24) ≤ p.len := by
  cases ts with
  | none => exact h.resolve_left Bool.false_ne_true
  | some t =>
    obtain ⟨-, hlong⟩ := server_en.stamp_behind hstamp t rfl
    obtain ⟨hdoff, -, hinside⟩ := server.parseHeaders_inside hparse
    change tcp + 36 ≤ p.len
    omega

/-- A whole connection. The ACK `q` of the client, with the cookie `c`, opens it;
then the server answers with the SYN-ACK `p` and its own number `s`. Whatever
comes between and behind, other handshakes of the flow aside: the server gets a
SYN for the ACK, and the ACK for its SYN-ACK; and then each end sees a connection
that begins with the number that it knows. -/
theorem both_ends_see_one_connection (K : Helpers) (m : Conntrack) (k : map_key_t) (q p : Pkt)
    {tcq tcp len : Nat} {tsq tsp : Option Nat} (before behind : List ServerEvent)
    (hq : server_in.AckSeen q tcq tsq) (hqk : inKey q tcq = k) (hroom : m.HasRoom k)
    (hnew : q.ece tcq = true ∨ (m.lookup k = none ∧ server_in.synCheck q tcq = true))
    (hbefore : ∀ e ∈ before, Quiet k e)
    (hp : parseHeaders p = .tcp tcp len) (hstamp : server_en.stamp p tcp len = some tsp)
    (hpk : enKey p tcp = k) (hflags : (p.ack tcp && p.syn tcp) = true)
    (hbehind : ∀ e ∈ behind, Quiet k e) :
    let c := ntohl (q.ack_seq tcq) - 1
    let s := ntohl (p.seq tcp)
    let m₁ := run (serverStep K) m (.ingress q :: before)
    ((server_in.xdp_router K m q).1 = .XDP_PASS ∧
      OpeningSyn q (server_in.xdp_router K m q).2.2 tcq) ∧
      (tsp.isSome ∨ tcp + 24 ≤ p.len →
        (server_en.xdp_router K m₁ p).1 = .redirect edge_cookie.server_en.SERVER_IF ∧
          AnsweringAck p (server_en.xdp_router K m₁ p).2.2 tcp) ∧
      Splice K (run (serverStep K) m₁ (.egress p :: behind)) k c s := by
  intro c s m₁
  obtain ⟨lenq, hparse, hqstamp⟩ := hq.parse
  obtain ⟨hcreate, hopen⟩ := create_delta (K := K) hq hqk hroom hnew
  have hm₁ : storedDelta k m₁ = some (ntohl (q.ack_seq tcq)) := by
    change storedDelta k (run (serverStep K) (serverStep K m (.ingress q)) before) = _
    exact delta_run hbefore hopen
  subst hpk
  refine ⟨?_, ?_, ?_⟩
  · have hlen := parseHeaders_fits hparse
    obtain ⟨-, -, htcp, hihl⟩ := parseHeaders_tcp hparse
    rw [hcreate]
    exact create_opens (by omega) (by omega) (server_in.stamp_behind hqstamp)
  · intro hsize
    obtain ⟨val, hval, -⟩ := storedDelta_eq_some.mp hm₁
    obtain ⟨-, -, htcp, hihl⟩ := parseHeaders_tcp hp
    have hfits : ¬ (answer p tcp tsp).len < tcp + if tsp.isSome then 36 else 24 := by
      rw [answer_len, Nat.not_lt]
      exact synack_fits hp hstamp hsize
    rw [server_en.router_tcp hp hstamp hval, if_pos hflags, synackBranch_eq]
    dsimp only
    rw [if_neg hfits]
    refine ⟨rfl,
      answer_answers (by omega) (fun t ht => (server_en.stamp_behind hstamp t ht).1) ?_ _⟩
    exact (Bool.and_eq_true_iff.mp hflags).1
  · change Splice K (run (serverStep K) (serverStep K m₁ (.egress p)) behind) _ c s
    exact splice_of_delta (delta_run hbehind (synack_delta hp hstamp hflags hm₁))

/-- The SYN-ACK of the server, with the number 100. -/
def firstSynack : Pkt := .segment server_ip client_ip 80 7 (htonl 100) (htonl 9) 0x12 3 0

/-- A flow that the gateway has tagged, in an empty table: the client has the
cookie -1 for the number 100 of the server. -/
theorem both_ends_see_the_tagged_connection :
    clientTag.ece tcpAt = true ∧
      let m₁ := run (serverStep server.kernelHelpers) .empty [.ingress clientTag]
      (server_en.xdp_router server.kernelHelpers m₁ firstSynack).1 =
          .redirect edge_cookie.server_en.SERVER_IF ∧
        Splice server.kernelHelpers (run (serverStep server.kernelHelpers) m₁ [.egress firstSynack])
          (inKey clientTag tcpAt) (ntohl 0 - 1) (ntohl (htonl 100)) := by
  have hece : clientTag.ece tcpAt = true := by decide
  have hseen : server_in.AckSeen clientTag tcpAt (some 56) :=
    ⟨⟨32, by decide, by decide⟩, by decide, by decide⟩
  have hkey : enKey firstSynack tcpAt = inKey clientTag tcpAt :=
    (map_key_t.mk.injEq ..).mpr ⟨by decide, by decide, by decide, by decide⟩
  have hroom : (BoundedMap.empty : Conntrack).HasRoom (inKey clientTag tcpAt) := .inr (by decide)
  have hnone : ∀ e ∈ ([] : List ServerEvent), Quiet (inKey clientTag tcpAt) e :=
    fun _ he => absurd he List.not_mem_nil
  obtain ⟨-, hsent, hsplice⟩ :=
    both_ends_see_one_connection server.kernelHelpers .empty _ clientTag firstSynack
    [] [] hseen rfl hroom (.inl hece) hnone (by decide : parseHeaders firstSynack = .tcp tcpAt 32)
    (by decide : server_en.stamp firstSynack tcpAt 32 = some none) hkey (by decide) hnone
  exact ⟨hece, (hsent (.inr (by decide))).1, hsplice⟩

end edge_cookie.smartcookie
