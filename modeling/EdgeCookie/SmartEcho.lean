-- The timestamp echo of smartcookie. `server_en` keeps the timestamp of a
-- segment in the entry of its flow, and `server_in` echoes it to the server. The
-- first asks for a header of more than 32 bytes, the second for 32 or more. Both
-- find the option with the parser of the server agent, whose masks can be wrong.
import EdgeCookie.OptionList
import EdgeCookie.Runs
import EdgeCookie.SmartTag

namespace edge_cookie.smartcookie

open bytes headers runs
open server (Helpers map_key_t parseHeaders parseHeaders_inside parse_timestamp inKey enKey)
open switch_agent (tcpAt client_ip server_ip)

/-! ## Runs of the server agent -/

/-- A frame for the server, or a frame of the server. -/
inductive ServerEvent where
  | ingress (p : Pkt)
  | egress (p : Pkt)

def serverStep (K : Helpers) (m : Conntrack) : ServerEvent → Conntrack
  | .ingress p => (server_in.xdp_router K m p).2.1
  | .egress p => (server_en.xdp_router K m p).2.1

/-- The timestamp of a segment with a timestamp option in its list of options. -/
def carried (p : Pkt) (tcp : Nat) : Option U32 := (stampAt p tcp).map p.tsval

/-- The timestamp of a segment of the flow `k` that `server_en` lets pass. -/
def sent (K : Helpers) (k : map_key_t) (m : Conntrack) : ServerEvent → Option U32
  | .ingress _ => none
  | .egress p =>
    match parseHeaders p with
    | .tcp tcp _ =>
      if enKey p tcp = k ∧ (server_en.xdp_router K m p).1 ≠ .TC_ACT_SHOT then carried p tcp
      else none
    | _ => none

/-- The timestamp of the latest segment of the flow `k` that had one. -/
def latest (K : Helpers) (k : map_key_t) (m : Conntrack) (es : List ServerEvent) : Option U32 :=
  ((trace (serverStep K) (sent K k) m es).filterMap id).getLast?

/-- `server_en` reads the timestamp option of the segment: a segment that has one has
a header of more than 32 bytes, and what the parser finds there is this option. -/
structure StampRead (p : Pkt) (tcp len : Nat) : Prop where
  wide : (stampAt p tcp).isSome = true → 32 < len
  found : ∀ off, 32 < len → parse_timestamp p (tcp + 20) tcp = some off →
    stampAt p tcp = some (tcp + 20 + off)

/-- What keeps the echo of the flow `k` fresh: the timestamps of the server are read,
and no ACK of the client has ECE. -/
def EchoSafe (k : map_key_t) : ServerEvent → Prop
  | .ingress p => ∀ tcp ts, server_in.AckSeen p tcp ts → inKey p tcp = k → p.ece tcp = false
  | .egress p => ∀ tcp len, parseHeaders p = .tcp tcp len → enKey p tcp = k → StampRead p tcp len

/-! ## One step -/

namespace server_in

theorem ackBranch_table (K : Helpers) (m : Conntrack) (p : Pkt) (tcp : Nat) (ts : Option Nat) :
    (ackBranch K m p tcp ts).2.1 = m ∨
      ((p.ece tcp = true ∨ m.lookup (inKey p tcp) = none) ∧
        (ackBranch K m p tcp ts).2.1 =
          m.putAny (inKey p tcp) { delta := ntohl (p.ack_seq tcp) }) := by
  unfold ackBranch
  cases hlookup : m.lookup (inKey p tcp) with
  | some val =>
    cases hece : p.ece tcp with
    | false => exact .inl (translate_table K m p tcp ts val)
    | true => exact .inr ⟨.inl rfl, create_table K m p tcp ts⟩
  | none =>
    cases hece : p.ece tcp with
    | false =>
      dsimp only
      split
      · exact .inr ⟨.inr rfl, create_table K m p tcp ts⟩
      · exact .inl rfl
    | true => exact .inr ⟨.inl rfl, create_table K m p tcp ts⟩

/-- Only an ACK with ECE, or of a flow without an entry, changes the table. -/
theorem router_table (K : Helpers) (m : Conntrack) (p : Pkt) :
    (xdp_router K m p).2.1 = m ∨
      ∃ tcp ts, AckSeen p tcp ts ∧ (p.ece tcp = true ∨ m.lookup (inKey p tcp) = none) ∧
        (xdp_router K m p).2.1 = m.putAny (inKey p tcp) { delta := ntohl (p.ack_seq tcp) } := by
  unfold xdp_router
  cases hparse : parseHeaders p with
  | drop => exact .inl rfl
  | pass => exact .inl rfl
  | tcp tcp len =>
    dsimp only
    cases hstamp : stamp p tcp len with
    | none => exact .inl rfl
    | some ts =>
      dsimp only
      split
      · rename_i hflags
        rw [Bool.and_eq_true, Bool.not_eq_true'] at hflags
        have hseen : AckSeen p tcp ts := ⟨⟨len, hparse, hstamp⟩, hflags.1, hflags.2⟩
        exact (ackBranch_table K m p tcp ts).imp_right fun h => ⟨tcp, ts, hseen, h⟩
      · split
        · refine .inl ?_
          unfold synackBranch
          dsimp only
          split <;> rfl
        · exact .inl rfl

/-- The timestamp option is behind the fixed part of the header. -/
theorem stamp_behind {p : Pkt} {tcp len : Nat} {ts : Option Nat} (h : stamp p tcp len = some ts) :
    ∀ t, ts = some t → tcp + 20 ≤ t := by
  rintro t rfl
  unfold stamp at h
  split at h
  · split at h
    · cases h
    · split at h
      · cases h
      · cases h
        exact Nat.le_add_right _ _
  · cases h

end server_in

namespace server_en

section

variable {K : Helpers} {m : Conntrack} {p : Pkt} {tcp len : Nat} {ts : Option Nat} {val : map_val_t}

theorem router_tcp (hparse : parseHeaders p = .tcp tcp len) (hstamp : stamp p tcp len = some ts)
    (hval : m.lookup (enKey p tcp) = some val) :
    xdp_router K m p =
      if p.ack tcp && p.syn tcp then synackBranch K m p tcp ts val
      else segmentBranch m p tcp ts val := by
  unfold xdp_router
  rw [hparse]
  dsimp only
  rw [hstamp]
  dsimp only
  rw [hval]

theorem router_unread (hparse : parseHeaders p = .tcp tcp len) (hstamp : stamp p tcp len = none) :
    xdp_router K m p = (.TC_ACT_SHOT, m, p) := by
  unfold xdp_router
  rw [hparse]
  dsimp only
  rw [hstamp]

theorem synackBranch_table : (synackBranch K m p tcp ts val).2.1 =
    m.putExist (enKey p tcp)
      (stampVal p { val with delta := val.delta - ntohl (p.seq tcp) - 1 } ts) := by
  have hboth : ∀ {c : Prop} [Decidable c] (x y : server_en.tc_action) (t : Conntrack) (q q' : Pkt),
      (if c then (x, t, q) else (y, t, q')).2.1 = t := by
    intro c _ x y t q q'
    split <;> rfl
  unfold synackBranch
  exact hboth _ _ _ _ _

/-- A frame leaves the entries of all other flows alone. -/
theorem router_other {k : map_key_t}
    (h : ∀ tcp len, parseHeaders p = .tcp tcp len → enKey p tcp ≠ k) :
    (xdp_router K m p).2.1.lookup k = m.lookup k := by
  unfold xdp_router
  cases hparse : parseHeaders p with
  | drop => rfl
  | pass => rfl
  | tcp tcp len =>
    have hne : k ≠ enKey p tcp := (h tcp len hparse).symm
    dsimp only
    cases stamp p tcp len with
    | none => rfl
    | some ts =>
      dsimp only
      cases m.lookup (enKey p tcp) with
      | none => rfl
      | some val =>
        dsimp only
        split
        · rw [synackBranch_table]
          exact BoundedMap.lookup_putExist_ne hne
        · unfold segmentBranch
          dsimp only
          split
          · exact BoundedMap.lookup_putExist_ne hne
          · rfl

theorem stampVal_ts (val val' : map_val_t) (h : val.ts_val_s = val'.ts_val_s) :
    (stampVal p val ts).ts_val_s = (stampVal p val' ts).ts_val_s := by
  cases ts with
  | none => exact h
  | some ts => rfl

/-- A frame with a timestamp option is let pass, and its timestamp is kept. -/
theorem router_stamp (hparse : parseHeaders p = .tcp tcp len) (hstamp : stamp p tcp len = some ts)
    (hval : m.lookup (enKey p tcp) = some val) :
    (∃ val', (xdp_router K m p).2.1.lookup (enKey p tcp) = some val' ∧
      val'.ts_val_s = (stampVal p val ts).ts_val_s) ∧
    (ts.isSome → (xdp_router K m p).1 ≠ .TC_ACT_SHOT) := by
  rw [router_tcp hparse hstamp hval]
  split
  · constructor
    · rw [synackBranch_table, BoundedMap.lookup_putExist_same hval]
      exact ⟨_, rfl, stampVal_ts _ _ rfl⟩
    · intro hts
      obtain ⟨off, rfl⟩ := Option.isSome_iff_exists.mp hts
      -- A header of more than 32 bytes has at least 36.
      have hlen : tcp + 36 ≤ p.len := by
        obtain ⟨hdoff, -, hinside⟩ := parseHeaders_inside hparse
        have h32 : 32 < len := by
          by_contra hnot
          unfold stamp at hstamp
          rw [if_neg hnot] at hstamp
          cases hstamp
        omega
      unfold synackBranch
      dsimp only
      rw [if_neg (by exact Nat.not_lt.mpr hlen)]
      exact nofun
  · unfold segmentBranch
    dsimp only
    refine ⟨?_, fun _ => nofun⟩
    cases ts with
    | none => exact ⟨val, hval, rfl⟩
    | some ts => exact ⟨_, BoundedMap.lookup_putExist_same hval, rfl⟩

/-- What `server_en` finds is the timestamp option of the segment. -/
theorem stamp_of_read (hread : StampRead p tcp len) (hstamp : stamp p tcp len = some ts) :
    stampAt p tcp = ts := by
  unfold stamp at hstamp
  split at hstamp
  · rename_i hlen
    obtain ⟨off, hoff, rfl⟩ := Option.map_eq_some_iff.mp hstamp
    exact hread.found off hlen hoff
  · rename_i hlen
    rw [← Option.some.inj hstamp]
    exact Option.not_isSome_iff_eq_none.mp fun hsome => hlen (hread.wide hsome)

theorem stampVal_getD : (stampVal p val ts).ts_val_s = (ts.map p.tsval).getD val.ts_val_s := by
  cases ts <;> rfl

end

end server_en

section

variable {K : Helpers} {k : map_key_t} {m : Conntrack} {val : map_val_t}

theorem ingress_stamp {p : Pkt} (hsafe : EchoSafe k (.ingress p)) (hk : m.lookup k = some val) :
    (server_in.xdp_router K m p).2.1.lookup k = some val := by
  rcases server_in.router_table K m p with h | ⟨tcp, ts, hseen, hnew, h⟩
  · rw [h]
    exact hk
  · have hne : k ≠ inKey p tcp := by
      rintro rfl
      rcases hnew with hece | hnone
      · exact absurd ((hsafe tcp ts hseen rfl).symm.trans hece) Bool.false_ne_true
      · rw [hk] at hnone
        cases hnone
    rw [h, BoundedMap.lookup_putAny, if_neg fun hand => hne hand.1]
    exact hk

theorem sent_carried {p : Pkt} {tcp len : Nat} (hparse : parseHeaders p = .tcp tcp len)
    (hpass : (server_en.xdp_router K m p).1 ≠ .TC_ACT_SHOT) :
    sent K (enKey p tcp) m (.egress p) = carried p tcp := by
  dsimp only [sent]
  rw [hparse]
  exact if_pos ⟨rfl, hpass⟩

theorem sent_shot {p : Pkt} (hshot : (server_en.xdp_router K m p).1 = .TC_ACT_SHOT) :
    sent K k m (.egress p) = none := by
  dsimp only [sent]
  split
  · exact if_neg fun h => h.2 hshot
  · rfl

theorem egress_stamp {p : Pkt} (hsafe : EchoSafe k (.egress p)) (hk : m.lookup k = some val) :
    ∃ val', (server_en.xdp_router K m p).2.1.lookup k = some val' ∧
      val'.ts_val_s = (sent K k m (.egress p)).getD val.ts_val_s := by
  by_cases hflow : ∃ tcp len, parseHeaders p = .tcp tcp len ∧ enKey p tcp = k
  · obtain ⟨tcp, len, hparse, rfl⟩ := hflow
    cases hstamp : server_en.stamp p tcp len with
    | none =>
      have hrouter := server_en.router_unread (K := K) (m := m) hparse hstamp
      rw [sent_shot (congrArg (·.1) hrouter), hrouter]
      exact ⟨val, hk, rfl⟩
    | some ts =>
      obtain ⟨⟨val', hval', hts⟩, hpass⟩ := server_en.router_stamp (K := K) hparse hstamp hk
      have hcarried : carried p tcp = ts.map p.tsval := by
        rw [carried, server_en.stamp_of_read (hsafe tcp len hparse rfl) hstamp]
      refine ⟨val', hval', hts.trans ?_⟩
      rw [server_en.stampVal_getD]
      by_cases hshot : (server_en.xdp_router K m p).1 = .TC_ACT_SHOT
      · -- a segment that is dropped has no timestamp option that was read
        have hnone : ts = none := Option.not_isSome_iff_eq_none.mp fun hsome => hpass hsome hshot
        rw [sent_shot hshot, hnone]
        rfl
      · rw [sent_carried hparse hshot, hcarried]
  · have hother : ∀ tcp len, parseHeaders p = .tcp tcp len → enKey p tcp ≠ k :=
      fun tcp len hparse hkey => hflow ⟨tcp, len, hparse, hkey⟩
    have hnone : sent K k m (.egress p) = none := by
      dsimp only [sent]
      cases hparse : parseHeaders p with
      | drop => rfl
      | pass => rfl
      | tcp tcp len => exact if_neg fun h => hother tcp len hparse h.1
    rw [server_en.router_other hother, hnone]
    exact ⟨val, hk, rfl⟩

end

/-! ## Whole runs -/

/-- The timestamp in the entry of a flow. -/
def storedStamp (k : map_key_t) (m : Conntrack) : U32 :=
  ((m.lookup k).map map_val_t.ts_val_s).getD 0

section

variable {K : Helpers} {k : map_key_t} {m : Conntrack} {e : ServerEvent} {es : List ServerEvent}

/-- A step that keeps the echo fresh writes what it lets out. -/
theorem storedStamp_step (hsafe : EchoSafe k e) (hk : (m.lookup k).isSome) :
    ((serverStep K m e).lookup k).isSome ∧
      storedStamp k (serverStep K m e) = (sent K k m e).getD (storedStamp k m) := by
  obtain ⟨val, hval⟩ := Option.isSome_iff_exists.mp hk
  obtain ⟨val', hval', hts⟩ : ∃ val', (serverStep K m e).lookup k = some val' ∧
      val'.ts_val_s = (sent K k m e).getD val.ts_val_s := by
    cases e with
    | ingress p => exact ⟨val, ingress_stamp hsafe hval, rfl⟩
    | egress p => exact egress_stamp hsafe hval
  unfold storedStamp
  rw [hval', hval]
  exact ⟨rfl, hts⟩

/-- After a run the entry has the timestamp of the latest segment. -/
theorem storedStamp_run (hsafe : ∀ e ∈ es, EchoSafe k e) (hk : (m.lookup k).isSome) :
    ((run (serverStep K) m es).lookup k).isSome ∧
      storedStamp k (run (serverStep K) m es) = (latest K k m es).getD (storedStamp k m) := by
  refine ⟨?_, ?_⟩
  · exact run_invariant_of (fun m : Conntrack => (m.lookup k).isSome = true) hsafe
      (fun m e he h => (storedStamp_step he h).1) hk
  · exact run_last (storedStamp k) id (fun m : Conntrack => (m.lookup k).isSome = true) hsafe
      (fun m e he h => (storedStamp_step he h).1) (fun m e he h => (storedStamp_step he h).2) hk

/-- An ACK of a known flow without the tag leaves with the stored timestamp as its echo. -/
theorem translated_tsecr {q : Pkt} {tcp ts : Nat} (hq : server_in.AckSeen q tcp (some ts))
    (hece : q.ece tcp = false) (hk : (m.lookup (inKey q tcp)).isSome) :
    (server_in.xdp_router K m q).1 = .XDP_PASS ∧
      (server_in.xdp_router K m q).2.2.tsecr ts = storedStamp (inKey q tcp) m := by
  obtain ⟨val, hval⟩ := Option.isSome_iff_exists.mp hk
  obtain ⟨len, hparse, hstamp⟩ := hq.parse
  have hlen := server.parseHeaders_fits hparse
  have hts : tcp + 20 ≤ ts := server_in.stamp_behind hstamp ts rfl
  unfold storedStamp
  rw [hq.router, hval]
  unfold server_in.ackBranch
  rw [hval, hece]
  dsimp only
  unfold server_in.translate server_in.setEcho
  dsimp only
  rw [if_neg (by omega)]
  refine ⟨rfl, ?_⟩
  dsimp only
  rw [Pkt.tsecr, Pkt.u32_put_ne _ _ _ _ _ (by omega), Pkt.u32_put_same]
  rfl

end

/-- In a run from a table with an entry of the flow `k`, in which each step keeps
the echo fresh, an ACK `q` leaves for the server with the timestamp of the latest
segment of the server that had one, in the field where `server_in` finds the option. -/
theorem the_echo_is_the_latest_timestamp (K : Helpers) (k : map_key_t) (m : Conntrack)
    (es : List ServerEvent) (q : Pkt) (tcp ts : Nat) (t : U32) (hflow : (m.lookup k).isSome)
    (hsafe : ∀ e ∈ es ++ [.ingress q], EchoSafe k e) (hq : server_in.AckSeen q tcp (some ts))
    (hkey : inKey q tcp = k) (hlast : latest K k m es = some t) :
    (server_in.xdp_router K (run (serverStep K) m es) q).1 = .XDP_PASS ∧
      (server_in.xdp_router K (run (serverStep K) m es) q).2.2.tsecr ts = t := by
  obtain ⟨hk, hstored⟩ :=
    storedStamp_run (K := K) (fun e he => hsafe e (List.mem_append_left _ he)) hflow
  have hece : q.ece tcp = false := hsafe (.ingress q) (by simp) tcp _ hq hkey
  subst hkey
  rw [(translated_tsecr hq hece hk).1, (translated_tsecr hq hece hk).2, hstored, hlast]
  exact ⟨rfl, rfl⟩

/-- A segment of the server with its timestamp, in a header of 32 bytes. -/
def serverSegment (tsval : U32) : Pkt := .segment server_ip client_ip 80 7 0 0 0x10 tsval 0

/-- The same with four more NOPs, in a header of 36 bytes. -/
def wideSegment (tsval : U32) : Pkt :=
  .ofBytes (List.replicate 12 0 ++ [0x08, 0x00] ++
    [0x45, 0, 0, 56, 0, 0, 0, 0, 64, 6, 0, 0] ++ bytes32 server_ip ++ bytes32 client_ip ++
    bytes16 80 ++ bytes16 7 ++ bytes32 0 ++ bytes32 0 ++
    [0x90, 0x10, 0, 0, 0, 0, 0, 0] ++ [1, 1, 8, 10] ++ bytes32 tsval ++ bytes32 0 ++ [1, 1, 1, 1])

theorem latest_one {K : Helpers} {k : map_key_t} {m : Conntrack} {p : Pkt} {t : U32}
    (h : sent K k m (.egress p) = some t) : latest K k m [.egress p] = some t := by
  unfold latest
  rw [trace, trace, h]
  rfl

theorem laterAck_seen : server_in.AckSeen laterAck tcpAt (some 56) :=
  ⟨⟨32, by decide, by decide⟩, by decide, by decide⟩

/-- The wide segment is stored, and the next ACK of the client echoes it. -/
theorem the_echo_behind_a_wide_segment :
    latest server.kernelHelpers (inKey laterAck tcpAt) flowTable [.egress (wideSegment 9)] =
      some 9 ∧
      (server_in.xdp_router server.kernelHelpers
        (run (serverStep server.kernelHelpers) flowTable [.egress (wideSegment 9)])
          laterAck).2.2.tsecr 56 =
          9 := by
  have hkey : enKey (wideSegment 9) tcpAt = inKey laterAck tcpAt :=
    (map_key_t.mk.injEq ..).mpr ⟨by decide, by decide, by decide, by decide⟩
  have hparse : parseHeaders (wideSegment 9) = .tcp tcpAt 36 := by decide
  have hstamp : server_en.stamp (wideSegment 9) tcpAt 36 = some (some 56) := by decide
  have hpass := (server_en.router_stamp (K := server.kernelHelpers) (m := flowTable) hparse hstamp
    (by rw [hkey]; exact laterAck_flow)).2 rfl
  have hlast :
      latest server.kernelHelpers (inKey laterAck tcpAt) flowTable [.egress (wideSegment 9)] =
      some 9 := by
    refine latest_one ?_
    rw [← hkey, sent_carried hparse hpass]
    decide
  have hsafe : ∀ e ∈ [ServerEvent.egress (wideSegment 9)] ++ [.ingress laterAck],
      EchoSafe (inKey laterAck tcpAt) e := by
    simp only [List.singleton_append, List.mem_cons, List.not_mem_nil, or_false]
    rintro e (rfl | rfl)
    · intro tcp len h _
      cases hparse.symm.trans h
      refine ⟨fun _ => by decide, fun off _ hoff => ?_⟩
      have hfound : parse_timestamp (wideSegment 9) (tcpAt + 20) tcpAt = some 2 := by decide
      cases hfound.symm.trans hoff
      decide
    · intro tcp ts h _
      rw [h.header_at]
      decide
  refine ⟨hlast,
    (the_echo_is_the_latest_timestamp server.kernelHelpers (inKey laterAck tcpAt) flowTable _
      laterAck tcpAt 56 9 ?_ hsafe laterAck_seen rfl hlast).2⟩
  rw [laterAck_flow]
  rfl

/-- A segment with the timestamp 9 passes, and the next ACK of the client echoes
the old timestamp. -/
theorem the_echo_behind_a_plain_segment_is_old :
    latest server.kernelHelpers (inKey laterAck tcpAt) flowTable [.egress (serverSegment 9)] =
      some 9 ∧
      (server_in.xdp_router server.kernelHelpers
        (run (serverStep server.kernelHelpers) flowTable [.egress (serverSegment 9)])
          laterAck).2.2.tsecr 56 =
          77 := by
  have hkey : enKey (serverSegment 9) tcpAt = inKey laterAck tcpAt :=
    (map_key_t.mk.injEq ..).mpr ⟨by decide, by decide, by decide, by decide⟩
  have hparse : parseHeaders (serverSegment 9) = .tcp tcpAt 32 := by decide
  have hstamp : server_en.stamp (serverSegment 9) tcpAt 32 = some none := by decide
  have hval : flowTable.lookup (enKey (serverSegment 9) tcpAt) = some ⟨77, 5⟩ := by
    rw [hkey]
    exact laterAck_flow
  have hpass : (server_en.xdp_router server.kernelHelpers flowTable (serverSegment 9)).1 ≠
      .TC_ACT_SHOT := by
    rw [server_en.router_tcp hparse hstamp hval, if_neg (by decide)]
    exact nofun
  constructor
  · refine latest_one ?_
    rw [← hkey, sent_carried hparse hpass]
    decide
  · obtain ⟨val, hlookup, hts⟩ :=
      (server_en.router_stamp (K := server.kernelHelpers) hparse hstamp hval).1
    rw [hkey] at hlookup
    have hece : laterAck.ece tcpAt = false := by decide
    rw [run_cons, run_nil]
    refine (translated_tsecr laterAck_seen hece ?_).2.trans ?_
    · exact Option.isSome_iff_exists.mpr ⟨val, hlookup⟩
    · exact (congrArg (fun x => (Option.map map_val_t.ts_val_s x).getD 0) hlookup).trans hts

end edge_cookie.smartcookie
