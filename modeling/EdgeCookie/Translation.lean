-- The numbers of a connection: the entry keeps the difference between the
-- initial sequence numbers and the last timestamp of the server, and both
-- programs translate with them. A second SYN-ACK takes the difference twice.
import EdgeCookie.ServerRun

namespace edge_cookie

open bytes headers server runs
open server_in (InView inView createVal)
open server_en (EnView enView rstVal synackVal ackVal)

/-! ## What the two programs see in a segment of a flow -/

/-- An ACK is dropped, ends a handshake, or carries data. -/
theorem inView_ack {p : Pkt} {tcp len : Nat} (h : parseHeaders p = .tcp tcp len) (hl : 32 ≤ len)
    (ha : p.ack tcp = true) (hs : p.syn tcp = false) :
    inView p = .drop ∨
      ∃ ts, tcp + 20 ≤ ts ∧ (inView p = .create tcp ts ∨ inView p = .data tcp ts) := by
  unfold inView
  rw [h]
  dsimp only
  rw [if_pos hl]
  unfold server_in.viewTcp
  simp only [ha, hs, Bool.false_and, Bool.not_false, Bool.and_self, Bool.false_eq_true, if_false,
    if_true]
  cases parse_timestamp p (tcp + 20) tcp with
  | none => exact .inl rfl
  | some off =>
    dsimp only
    split
    · exact .inl rfl
    · refine .inr ⟨tcp + 20 + off, Nat.le_add_right _ _, ?_⟩
      split
      · exact .inl rfl
      · exact .inr rfl

/-- A TCP segment of the server passes as it is, is dropped, is a reset, or has
a timestamp behind the fixed part of its header. -/
theorem enView_tcp {p : Pkt} {tcp len : Nat} (h : parseHeaders p = .tcp tcp len) :
    enView p = .pass ∨ enView p = .drop ∨ enView p = .rst tcp ∨
      ∃ ts, tcp + 20 ≤ ts ∧ (enView p = .synack tcp ts ∨ enView p = .ack tcp ts) := by
  unfold enView
  rw [h]
  dsimp only
  split
  · unfold server_en.viewTcp
    dsimp only
    cases parse_timestamp p (tcp + 20) tcp with
    | none =>
      dsimp only
      split_ifs
      · exact .inr (.inl rfl)
      · exact .inr (.inr (.inl rfl))
      · exact .inr (.inl rfl)
    | some off =>
      dsimp only
      split_ifs
      · exact .inr (.inr (.inr ⟨_, Nat.le_add_right _ _, .inl rfl⟩))
      · exact .inr (.inr (.inl rfl))
      · exact .inr (.inr (.inr ⟨_, Nat.le_add_right _ _, .inr rfl⟩))
  · exact .inl rfl

/-- A segment of the server that is no SYN-ACK is dropped, is a reset, or has a
timestamp. -/
theorem enView_not_synack {p : Pkt} {tcp len : Nat} (h : parseHeaders p = .tcp tcp len)
    (hl : 32 ≤ len) (hs : (p.ack tcp && p.syn tcp) = false) :
    enView p = .drop ∨ enView p = .rst tcp ∨ ∃ ts, tcp + 20 ≤ ts ∧ enView p = .ack tcp ts := by
  unfold enView
  rw [h]
  dsimp only
  rw [if_pos hl]
  unfold server_en.viewTcp
  rw [hs, if_neg Bool.false_ne_true]
  split
  · exact .inr (.inl rfl)
  · cases parse_timestamp p (tcp + 20) tcp with
    | none => exact .inl rfl
    | some off => exact .inr (.inr ⟨tcp + 20 + off, Nat.le_add_right _ _, rfl⟩)

theorem enView_ack_ts {p : Pkt} {tcp ts : Nat} (h : enView p = .ack tcp ts) : tcp + 20 ≤ ts := by
  cases hh : parseHeaders p with
  | drop =>
    unfold enView at h
    rw [hh] at h
    cases h
  | pass =>
    unfold enView at h
    rw [hh] at h
    cases h
  | tcp t len =>
    rcases enView_tcp hh with hv | hv | hv | ⟨ts', hts, hv | hv⟩ <;> rw [h] at hv <;> cases hv
    exact hts

/-! ## What the branches write -/

/-- A data ACK of a known flow passes with both numbers translated. -/
theorem hitBranch_translates (K : Helpers) (s : Server) (p : Pkt) {tcp ts : Nat} (val : map_val_t)
    (h : tcp + 20 ≤ ts) :
    (server_in.hitBranch K s p tcp ts val).2.2.ack_seq tcp =
        htonl (ntohl (p.ack_seq tcp) - val.delta) ∧
      (server_in.hitBranch K s p tcp ts val).2.2.tsecr ts = val.ts_val_s := by
  unfold server_in.hitBranch
  dsimp only
  rw [refreshVal_eq]
  dsimp only
  rw [refresh_delta, refresh_ts_val_s]
  constructor
  · unfold Pkt.ack_seq
    rw [Pkt.u32_put_ne _ _ _ _ _ (by omega), Pkt.u32_put_ne _ _ _ _ _ (by omega), Pkt.u32_put_same]
  · unfold Pkt.tsecr
    rw [Pkt.u32_put_ne _ _ _ _ _ (by omega), Pkt.u32_put_same]

theorem rstBranch_translates (s : Server) (p : Pkt) (tcp : Nat) (val : map_val_t) :
    (server_en.rstBranch s p tcp val).2.2.seq tcp = htonl (ntohl (p.seq tcp) + val.delta) := by
  unfold server_en.rstBranch Pkt.seq
  exact Pkt.u32_put_same _ _ _

theorem ackBranch_translates (s : Server) (p : Pkt) {tcp ts : Nat} (val : map_val_t)
    (h : tcp + 20 ≤ ts) :
    (server_en.ackBranch s p tcp ts val).2.2.seq tcp = htonl (ntohl (p.seq tcp) + val.delta) ∧
      (server_en.ackBranch s p tcp ts val).2.2.tsval ts = val.hybrid_cookie := by
  unfold server_en.ackBranch Pkt.seq Pkt.tsval
  dsimp only
  constructor
  · rw [Pkt.u32_put_same, Pkt.u32_put_ne _ _ _ _ _ (by omega)]
    rfl
  · rw [Pkt.u32_put_ne _ _ _ _ _ (by omega), Pkt.u32_put_same]
    rfl

/-! ## The entry between handshakes -/

/-- Neither a creating branch of `server_in` nor the SYN-ACK branch of
`server_en` runs for the flow. -/
def FlowEvent.quiet : FlowEvent → Bool
  | .syn _ _ => false
  | .create _ => false
  | .synack _ _ => false
  | _ => true

/-- The timestamp of the last segment that the ACK branch of `server_en`
handled, or `tsval` when there is none. -/
def lastTsval (tsval : U32) (fs : List FlowEvent) : U32 :=
  fs.foldl (fun last f => match f with
    | .ack tsval => tsval
    | _ => last) tsval

/-- The entry translates with `d`, and the last timestamp was `tsval`. -/
def Translates (d tsval : U32) (entry : Option map_val_t) : Prop :=
  ∃ val, entry = some val ∧ val.delta = d ∧ val.ts_val_s = tsval

theorem translates_step {d tsval ip : U32} {entry : Option map_val_t} {f : FlowEvent}
    (hf : f.quiet = true) (h : Translates d tsval entry) :
    Translates d (lastTsval tsval [f]) (flowStep ip entry f) := by
  obtain ⟨val, rfl, hd, ht⟩ := h
  cases f with
  | other => exact ⟨val, rfl, hd, ht⟩
  | syn seed tsecr => exact absurd hf Bool.false_ne_true
  | create ack_seq => exact absurd hf Bool.false_ne_true
  | synack seq tsval => exact absurd hf Bool.false_ne_true
  | data seed =>
    exact ⟨_, rfl, (refresh_delta ip seed val).trans hd, (refresh_ts_val_s ip seed val).trans ht⟩
  | ack tsval => exact ⟨_, rfl, hd, rfl⟩

theorem translates_run {d tsval ip : U32} {entry : Option map_val_t} {fs : List FlowEvent}
    (hfs : ∀ f ∈ fs, f.quiet = true) (h : Translates d tsval entry) :
    Translates d (lastTsval tsval fs) (run (flowStep ip) entry fs) := by
  induction fs generalizing entry tsval with
  | nil => exact h
  | cons f fs ih =>
    exact ih (fun f' hf' => hfs f' (List.mem_cons_of_mem f hf'))
      (translates_step (hfs f List.mem_cons_self) h)

/-! ## Translation over a connection -/

/-- What the SYN-ACK of the server makes of the difference. In a proxied
connection `delta` was the cookie plus 1 before it, and in a connection that
was reset before it stays 0. -/
def isnOffset (val : map_val_t) (seq : U32) : U32 :=
  if val.delta = 0 then 0 else (val.delta - 1) - ntohl seq

theorem translates_synackEntry (val : map_val_t) (seq tsval : U32) :
    Translates (isnOffset val seq) tsval (some (synackEntry val seq tsval)) := by
  refine ⟨_, rfl, ?_, ?_⟩
  · unfold synackEntry isnOffset
    split
    · assumption
    · show val.delta - ntohl seq - 1 = val.delta - 1 - ntohl seq
      grind
  · unfold synackEntry
    split <;> rfl

section

variable {K : Helpers} {s : Server} {k : map_key_t} {d tsval : U32}

theorem translates_serverRun (h : Translates d tsval (s.conntrack_map.lookup k)) {es : List Event}
    (hes : ∀ f ∈ flowTrace K k s es, f.quiet = true) :
    Translates d (lastTsval tsval (flowTrace K k s es))
      ((run (serverStep K) s es).conntrack_map.lookup k) := by
  rw [lookup_run]
  exact translates_run hes h

/-- An ACK of the flow that `server_in` passes, and that makes no entry. -/
theorem ack_translated (h : Translates d tsval (s.conntrack_map.lookup k)) {rnd : U32 × U32}
    {p : Pkt} {tcp len : Nat} (hp : parseHeaders p = .tcp tcp len) (hl : 32 ≤ len)
    (hk : inKey p tcp = k) (ha : p.ack tcp = true) (hs : p.syn tcp = false)
    (hc : ∀ ts, inView p ≠ .create tcp ts)
    (hpass : (server_in.xdp_router K rnd s p).1 = .XDP_PASS) :
    ∃ ts, inView p = .data tcp ts ∧
      ntohl ((server_in.xdp_router K rnd s p).2.2.ack_seq tcp) = ntohl (p.ack_seq tcp) - d ∧
      (server_in.xdp_router K rnd s p).2.2.tsecr ts = tsval := by
  rcases inView_ack hp hl ha hs with hv | ⟨ts, hts, hv | hv⟩
  · rw [server_in.xdp_router_eq, hv] at hpass
    cases hpass
  · exact absurd hv (hc ts)
  · obtain ⟨val, hval, rfl, rfl⟩ := h
    have hrun : server_in.xdp_router K rnd s p =
        server_in.hitBranch K (server_in.initTables s) p tcp ts val := by
      rw [server_in.xdp_router_eq, hv]
      dsimp only [server_in.runView, server_in.dataBranch]
      rw [hk, initTables_conntrack, hval]
    obtain ⟨h1, h2⟩ := hitBranch_translates K (server_in.initTables s) p val hts
    refine ⟨ts, hv, ?_, ?_⟩
    · rw [hrun, h1, ntohl_htonl]
    · rw [hrun, h2]

/-- A segment of the server that `server_en` passes, and that is no SYN-ACK. -/
theorem seq_translated (h : Translates d tsval (s.conntrack_map.lookup k)) {p : Pkt} {tcp len : Nat}
    (hp : parseHeaders p = .tcp tcp len) (hl : 32 ≤ len) (hk : enKey p tcp = k)
    (hs : (p.ack tcp && p.syn tcp) = false)
    (hok : (server_en.xdp_router K s p).1 = .TC_ACT_OK) :
    ntohl ((server_en.xdp_router K s p).2.2.seq tcp) = ntohl (p.seq tcp) + d := by
  obtain ⟨val, hval, rfl, rfl⟩ := h
  rw [← hk] at hval
  rcases enView_not_synack hp hl hs with hv | hv | ⟨ts, hts, hv⟩
  · rw [server_en.xdp_router_eq, hv] at hok
    cases hok
  · rw [server_en.xdp_router_rst K hv hval, rstBranch_translates, ntohl_htonl]
  · rw [server_en.xdp_router_ack K hv hval, (ackBranch_translates s p val hts).1, ntohl_htonl]

end

/-- The SYN-ACK `p0` of the server sets the difference `d` of the flow `k`. Until
the flow has another handshake, whatever else happens: an ACK that `server_in`
passes has `d` less, with the last timestamp of the server; a segment that
`server_en` passes has `d` more; and an ACK for a number that was passed on
reaches the server as an ACK for its own number. -/
theorem numbers_are_translated_over_a_connection (K : Helpers) (s s' : Server) (p0 : Pkt)
    (tcp0 ts0 : Nat) (val : map_val_t) (k : map_key_t) (es : List Event)
    (hview : enView p0 = .synack tcp0 ts0) (hkey : enKey p0 tcp0 = k)
    (hval : s.conntrack_map.lookup k = some val)
    (hquiet : ∀ f ∈ flowTrace K k (serverStep K s (.egress p0)) es, f.quiet = true)
    (hs' : run (serverStep K) (serverStep K s (.egress p0)) es = s') :
    (∃ val1, (serverStep K s (.egress p0)).conntrack_map.lookup k = some val1 ∧
      val1.delta = isnOffset val (p0.seq tcp0)) ∧
    (∀ rnd p tcp len, parseHeaders p = .tcp tcp len → 32 ≤ len → inKey p tcp = k →
      p.ack tcp = true → p.syn tcp = false → (∀ ts, inView p ≠ .create tcp ts) →
      (server_in.xdp_router K rnd s' p).1 = .XDP_PASS →
      ∃ ts, inView p = .data tcp ts ∧
        ntohl ((server_in.xdp_router K rnd s' p).2.2.ack_seq tcp) =
          ntohl (p.ack_seq tcp) - isnOffset val (p0.seq tcp0) ∧
        (server_in.xdp_router K rnd s' p).2.2.tsecr ts =
          lastTsval (p0.tsval ts0) (flowTrace K k (serverStep K s (.egress p0)) es)) ∧
    (∀ p tcp len, parseHeaders p = .tcp tcp len → 32 ≤ len → enKey p tcp = k →
      (p.ack tcp && p.syn tcp) = false → (server_en.xdp_router K s' p).1 = .TC_ACT_OK →
      ntohl ((server_en.xdp_router K s' p).2.2.seq tcp) =
          ntohl (p.seq tcp) + isnOffset val (p0.seq tcp0) ∧
      ∀ es', (∀ f ∈ flowTrace K k s' (.egress p :: es'), f.quiet = true) →
        ∀ rnd q tcq lenq, parseHeaders q = .tcp tcq lenq → 32 ≤ lenq → inKey q tcq = k →
        q.ack tcq = true → q.syn tcq = false → (∀ ts, inView q ≠ .create tcq ts) →
        (server_in.xdp_router K rnd (run (serverStep K) s' (.egress p :: es')) q).1 = .XDP_PASS →
        ∀ n, ntohl (q.ack_seq tcq) = ntohl ((server_en.xdp_router K s' p).2.2.seq tcp) + n →
        ntohl ((server_in.xdp_router K rnd (run (serverStep K) s' (.egress p :: es')) q).2.2.ack_seq
          tcq) = ntohl (p.seq tcp) + n) := by
  have hstart : Translates (isnOffset val (p0.seq tcp0)) (p0.tsval ts0)
      ((serverStep K s (.egress p0)).conntrack_map.lookup k) := by
    rw [lookup_step, hval]
    change Translates _ _ (flowStep k.src_ip (some val) (enEvent k p0))
    rw [enEvent_synack hview hkey]
    exact translates_synackEntry val _ _
  have hlater : Translates (isnOffset val (p0.seq tcp0))
      (lastTsval (p0.tsval ts0) (flowTrace K k (serverStep K s (.egress p0)) es))
      (s'.conntrack_map.lookup k) := by
    rw [← hs']
    exact translates_serverRun hstart hquiet
  refine ⟨?_, ?_, ?_⟩
  · obtain ⟨val1, h1, hd, -⟩ := hstart
    exact ⟨val1, h1, hd⟩
  · intro rnd p tcp len hp hl hk ha hs hc hpass
    exact ack_translated hlater hp hl hk ha hs hc hpass
  · intro p tcp len hp hl hk hs hok
    have hseq := seq_translated hlater hp hl hk hs hok
    refine ⟨hseq, ?_⟩
    intro es' hq rnd q tcq lenq hq1 hq2 hq3 hq4 hq5 hq6 hq7 n hn
    have hend := translates_serverRun hlater hq
    obtain ⟨ts, -, hack, -⟩ := ack_translated hend hq1 hq2 hq3 hq4 hq5 hq6 hq7
    rw [hack, hn, hseq]
    grind

/-- The server after the handshake of the client. -/
def connectedServer : Server :=
  serverStep kernelHelpers (run (serverStep kernelHelpers) Server.boot (clientRun []))
    (.egress serverSynack)

theorem lookup_connectedServer :
    connectedServer.conntrack_map.lookup clientKey =
      some (synackVal (createVal (htonl 2)) (htonl 5) 9) := by
  unfold connectedServer
  rw [lookup_step, lookup_clientRun_nil]
  change flowStep _ _ (enEvent clientKey serverSynack) = _
  rw [enEvent_synack enView_serverSynack (by decide)]
  decide

/-- A data ACK of the client passes while its flow has an entry. -/
theorem dataAck_passes {s : Server} (h : (s.conntrack_map.lookup clientKey).isSome = true) :
    (server_in.xdp_router kernelHelpers (0, 0) s dataAck).1 = .XDP_PASS := by
  obtain ⟨val, hval⟩ := Option.isSome_iff_exists.mp h
  rw [server_in.xdp_router_eq, inView_dataAck]
  dsimp only [server_in.runView, server_in.dataBranch]
  rw [show inKey dataAck 34 = clientKey by decide, initTables_conntrack, hval]
  rfl

theorem serverAck_passes {s : Server} (h : (s.conntrack_map.lookup clientKey).isSome = true) :
    (server_en.xdp_router kernelHelpers s serverAck).1 = .TC_ACT_OK := by
  obtain ⟨val, hval⟩ := Option.isSome_iff_exists.mp h
  rw [server_en.xdp_router_ack kernelHelpers enView_serverAck hval]
  rfl

/-- The server has answered 5 to the cookie 1 of the client: the difference is -4.
Then it has sent an ACK with the timestamp 11, and the client has sent data. -/
theorem the_numbers_of_the_client_are_translated :
    ∃ s, run (serverStep kernelHelpers) connectedServer
        [.egress serverAck, .ingress (0, 0) dataAck] = s ∧
      ntohl ((server_in.xdp_router kernelHelpers (0, 0) s dataAck).2.2.ack_seq 34) = 2 - (1 - 5) ∧
      (server_in.xdp_router kernelHelpers (0, 0) s dataAck).2.2.tsecr 56 = 11 ∧
      ntohl ((server_en.xdp_router kernelHelpers s serverAck).2.2.seq 34) = 6 + (1 - 5) ∧
      ntohl ((server_in.xdp_router kernelHelpers (0, 0)
        (run (serverStep kernelHelpers) s [.egress serverAck]) dataAck).2.2.ack_seq 34) = 6 := by
  have htrace : flowTrace kernelHelpers clientKey connectedServer
      [.egress serverAck, .ingress (0, 0) dataAck] =
        [.ack 11, .data (seedAt (serverStep kernelHelpers connectedServer (.egress serverAck))
          clientKey.src_ip)] := by
    unfold flowTrace
    rw [trace, trace, trace, flowEvent, flowEvent, enEvent_ack enView_serverAck (by decide),
      inEvent_data inView_dataAck (by decide), show serverAck.tsval 56 = 11 by decide]
  have hquiet : ∀ f ∈ flowTrace kernelHelpers clientKey connectedServer
      [.egress serverAck, .ingress (0, 0) dataAck], f.quiet = true := by
    rw [htrace]
    simp [FlowEvent.quiet]
  refine ⟨_, rfl, ?_⟩
  generalize hs : run (serverStep kernelHelpers) connectedServer
    [.egress serverAck, .ingress (0, 0) dataAck] = s
  have hentry : (s.conntrack_map.lookup clientKey).isSome = true := by
    rw [← hs, lookup_run, lookup_connectedServer, htrace]
    rfl
  have htrace' : flowTrace kernelHelpers clientKey s [.egress serverAck] = [.ack 11] := by
    unfold flowTrace
    rw [trace, trace, flowEvent, enEvent_ack enView_serverAck (by decide),
      show serverAck.tsval 56 = 11 by decide]
  have hentry' : ((run (serverStep kernelHelpers) s
      [.egress serverAck]).conntrack_map.lookup clientKey).isSome = true := by
    obtain ⟨val, hval⟩ := Option.isSome_iff_exists.mp hentry
    rw [lookup_run, hval, htrace']
    rfl
  obtain ⟨-, hin, hout⟩ := numbers_are_translated_over_a_connection kernelHelpers
    (run (serverStep kernelHelpers) Server.boot (clientRun [])) s serverSynack 34 56
    (createVal (htonl 2)) clientKey [.egress serverAck, .ingress (0, 0) dataAck]
    enView_serverSynack (by decide) lookup_clientRun_nil hquiet hs
  have hnew : ∀ ts, inView dataAck ≠ .create 34 ts := by
    intro ts hcreate
    cases inView_dataAck.symm.trans hcreate
  obtain ⟨ts, hts, hack, hecho⟩ := hin (0, 0) dataAck 34 32 (by decide) (by decide) (by decide)
    (by decide) (by decide) hnew (dataAck_passes hentry)
  obtain rfl : 56 = ts := (InView.data.inj (inView_dataAck.symm.trans hts)).2
  obtain ⟨hseq, hback⟩ := hout serverAck 34 32 (by decide) (by decide) (by decide) (by decide)
    (serverAck_passes hentry)
  refine ⟨hack.trans (by decide), hecho.trans ?_, hseq.trans (by decide), ?_⟩
  · change lastTsval _ (flowTrace kernelHelpers clientKey connectedServer _) = 11
    rw [htrace]
    rfl
  · have hquiet' : ∀ f ∈ flowTrace kernelHelpers clientKey s [.egress serverAck],
        f.quiet = true := by
      rw [htrace']
      simp [FlowEvent.quiet]
    have hfor : ntohl (dataAck.ack_seq 34) =
        ntohl ((server_en.xdp_router kernelHelpers s serverAck).2.2.seq 34) + 0 := by
      rw [hseq]
      decide
    refine (hback [] hquiet' (0, 0) dataAck 34 32 (by decide) (by decide) (by decide) (by decide)
      (by decide) hnew (dataAck_passes hentry') 0 hfor).trans ?_
    decide

/-! ## Segments with a short header -/

/-- `server_en` does nothing with a TCP header of less than 32 bytes. -/
theorem short_header_passes (K : Helpers) (s : Server) {p : Pkt} {tcp len : Nat}
    (hp : parseHeaders p = .tcp tcp len) (hl : ¬ 32 ≤ len) :
    server_en.xdp_router K s p = (.TC_ACT_OK, s, p) := by
  unfold server_en.xdp_router
  rw [hp]
  exact if_neg hl

/-- A segment of a translated flow that `server_en` passes, and that is no
SYN-ACK, has its sequence number translated when its TCP header has 32 bytes or
more, and in no other case. -/
theorem a_segment_is_translated_iff_its_header_is_long (K : Helpers) (s : Server) (p : Pkt)
    (tcp len : Nat) (val : map_val_t) (hp : parseHeaders p = .tcp tcp len)
    (hval : s.conntrack_map.lookup (enKey p tcp) = some val) (hd : val.delta ≠ 0)
    (hs : (p.ack tcp && p.syn tcp) = false)
    (hok : (server_en.xdp_router K s p).1 = .TC_ACT_OK) :
    ntohl ((server_en.xdp_router K s p).2.2.seq tcp) = ntohl (p.seq tcp) + val.delta ↔
      32 ≤ len := by
  by_cases hl : 32 ≤ len
  · exact iff_of_true (seq_translated ⟨val, hval, rfl, rfl⟩ hp hl rfl hs hok) hl
  · rw [short_header_passes K s hp hl]
    refine iff_of_false (fun heq => hd ?_) hl
    dsimp only at heq
    grind

/-- A reset of the server without options. -/
def serverBareRst : Pkt :=
  .bareSegment switch_agent.server_ip switch_agent.client_ip 80 7 (htonl 6) (htonl 2) 0x14

/-- A segment of the server for the client passes, whatever its other fields. -/
theorem connectedServer_passes {p : Pkt} {ts : Nat} (hv : enView p = .ack 34 ts)
    (hk : enKey p 34 = clientKey) :
    (server_en.xdp_router kernelHelpers connectedServer p).1 = .TC_ACT_OK := by
  have hl := lookup_connectedServer
  rw [← hk] at hl
  rw [server_en.xdp_router_ack kernelHelpers hv hl]
  rfl

theorem the_ack_of_the_server_is_translated :
    ntohl ((server_en.xdp_router kernelHelpers connectedServer serverAck).2.2.seq 34) =
      6 + (1 - 5) := by
  have hk : enKey serverAck 34 = clientKey := by decide
  have hl := lookup_connectedServer
  rw [← hk] at hl
  have hseq :=
    (a_segment_is_translated_iff_its_header_is_long kernelHelpers connectedServer serverAck 34
      32 _ (by decide) hl (by decide) (by decide)
      (connectedServer_passes enView_serverAck hk)).mpr (by decide)
  rw [hseq]
  decide

/-- The reset passes with the number of the server. -/
theorem the_bare_reset_of_the_server_is_not_translated :
    ∃ val, connectedServer.conntrack_map.lookup (enKey serverBareRst 34) = some val ∧
      val.delta ≠ 0 ∧
      parseHeaders serverBareRst = .tcp 34 20 ∧
      (serverBareRst.ack 34 && serverBareRst.syn 34) = false ∧
      (server_en.xdp_router kernelHelpers connectedServer serverBareRst).1 = .TC_ACT_OK ∧
      ntohl ((server_en.xdp_router kernelHelpers connectedServer serverBareRst).2.2.seq 34) ≠
        ntohl (serverBareRst.seq 34) + val.delta := by
  have hk : enKey serverBareRst 34 = clientKey := by decide
  have hp : parseHeaders serverBareRst = .tcp 34 20 := by decide
  rw [hk, short_header_passes _ _ hp (by decide)]
  exact ⟨_, lookup_connectedServer, by decide, hp, by decide, rfl, by decide⟩

end edge_cookie
