-- Cookies that come back. `server_en` sends the cookie of a flow as a
-- timestamp, and the client echoes it to the gateway. The map cookie in it is
-- right for the seed of its time only; the 14 hash bits stay right over every
-- change of the seeds.
import EdgeCookie.CookieRun
import EdgeCookie.Translation
import EdgeCookie.SynCookie

namespace edge_cookie

open bytes headers server runs
open server_in (inView createVal)
open server_en (enView)
open switch_agent (Agent Options tcpAt ackTs MapCheck HashCheck SynCheck Accepted)

/-! ## The timestamps that `server_en` sends -/

/-- The ACK branch sends the cookie of the entry as the timestamp. -/
theorem ack_sends_cookie {K : Helpers} {s : Server} {p : Pkt} {tcp ts : Nat} {k : map_key_t}
    {val : map_val_t} (hview : enView p = .ack tcp ts) (hkey : enKey p tcp = k)
    (hval : s.conntrack_map.lookup k = some val) :
    (server_en.xdp_router K s p).2.2.tsval ts = val.hybrid_cookie := by
  rw [← hkey] at hval
  rw [server_en.xdp_router_ack K hview hval]
  exact (ackBranch_translates s p val (enView_ack_ts hview)).2

/-- `server_en` passes the frame `p` of the flow `k`, a SYN-ACK or a later
segment, with the timestamp `tsval`. -/
def Sends (K : Helpers) (k : map_key_t) (s : Server) (p : Pkt) (tsval : U32) : Prop :=
  ∃ tcp ts, (enView p = .synack tcp ts ∨ enView p = .ack tcp ts) ∧ enKey p tcp = k ∧
    (server_en.xdp_router K s p).1 = .TC_ACT_OK ∧ (server_en.xdp_router K s p).2.2.tsval ts = tsval

theorem sends_cookie {K : Helpers} {k : map_key_t} {s : Server} {p : Pkt} {tsval : U32}
    (h : Sends K k s p tsval) :
    ∃ val, s.conntrack_map.lookup k = some val ∧ val.hybrid_cookie = tsval := by
  obtain ⟨tcp, ts, hview, hkey, hok, rfl⟩ := h
  cases hl : s.conntrack_map.lookup k with
  | none =>
    -- A frame of an unknown flow is dropped.
    rw [server_en.xdp_router_eq] at hok
    rcases hview with hv | hv <;>
      (rw [hv] at hok; dsimp only [server_en.runView, server_en.withEntry] at hok
       rw [hkey, hl] at hok; cases hok)
  | some val =>
    refine ⟨val, rfl, ?_⟩
    rcases hview with hv | hv
    · rw [← hkey] at hl
      rw [server_en.xdp_router_synack K hv hl] at hok ⊢
      dsimp only [server_en.synackBranch] at hok ⊢
      by_cases hd : val.delta = 0
      · rw [if_pos hd]
        exact (Pkt.u32_put_same _ _ _).symm
      · rw [if_neg hd] at hok
        exact absurd hok (convertSynack_not_ok _ _ _ _ _)
    · exact (ack_sends_cookie hv hkey hl).symm

/-! ## The map cookie in a timestamp -/

/-- The echo of `tsval` passes the map cookie check just when its low half is
the map cookie of the address now. -/
theorem mapCheck_echo {a : Agent} {q : Pkt} {ts : Nat} {ip tsval : U32} (hq : q.saddr = ip)
    (hecho : q.tsecr ts = tsval) :
    MapCheck a q ts ↔ mapBits (ntohl tsval) = mapCookie ip (a.map_seeds (seedKey ip)) := by
  unfold MapCheck
  rw [hq, hecho]
  exact Iff.rfl

/-- In any state that the server agent reaches, and with the same seeds at the
gateway: the timestamp of a segment is accepted when it comes back just when a
cookie was made for the entry and its map cookie is the one of the seed now. An
entry without a cookie sends 0, which is right for a map cookie of 0 alone. -/
theorem a_segment_is_acceptable_iff_its_cookie_is_current (K : Helpers) (es : List Event) (p : Pkt)
    (tcp ts : Nat) (k : map_key_t) (val : map_val_t) (a : Agent) (q : Pkt) (ts' : Nat)
    (hview : enView p = .ack tcp ts) (hkey : enKey p tcp = k)
    (hval : (run (serverStep K) Server.boot es).conntrack_map.lookup k = some val)
    (hseeds : a.map_seeds = (run (serverStep K) Server.boot es).map_seeds)
    (hq : q.saddr = k.src_ip)
    (hecho : q.tsecr ts' =
      (server_en.xdp_router K (run (serverStep K) Server.boot es) p).2.2.tsval ts) :
    MapCheck a q ts' ↔
      if cookieMade K k es then
        mapCookie k.src_ip val.cur_hash_seed =
          mapCookie k.src_ip ((run (serverStep K) Server.boot es).map_seeds (seedKey k.src_ip))
      else mapCookie k.src_ip
        ((run (serverStep K) Server.boot es).map_seeds (seedKey k.src_ip)) = 0 := by
  rw [ack_sends_cookie hview hkey hval] at hecho
  rw [mapCheck_echo hq hecho, hseeds]
  have hinv := notedOk_noted K k es
  rw [← noted_entry] at hval
  split
  · rename_i hmade
    have hmap : mapBits (ntohl val.hybrid_cookie) = mapCookie k.src_ip val.cur_hash_seed :=
      (hinv.made val hval hmade).map
    rw [hmap]
  · rename_i hmade
    rw [(hinv.fresh val hval (Bool.eq_false_of_not_eq_true hmade)).1]
    exact eq_comm

/-- The gateway and the server agent start with the same seeds, and the frames
of one client do not change them. -/
theorem plainAgent_seeds (tail : List Pkt) :
    switch_agent.plainAgent.map_seeds = (run (serverStep kernelHelpers) Server.boot
      (.ingress (0, 0) handshakeAck :: tail.map .egress)).map_seeds := by
  have hegress : ∀ s : Server, (run (serverStep kernelHelpers) s (tail.map .egress)).map_seeds =
      s.map_seeds := by
    induction tail with
    | nil => exact fun _ => rfl
    | cons p tail ih => exact fun s => (ih _).trans (egress_keeps kernelHelpers s p).2.1
  rw [run_cons, hegress]
  change _ = (server_in.xdp_router kernelHelpers (0, 0) Server.boot handshakeAck).2.1.map_seeds
  rw [server_in.xdp_router_eq, inView_handshakeAck]
  dsimp only [server_in.runView]
  rw [createBranch_server]
  rfl

/-- The server speaks first: the client has sent no data ACK yet, so the entry
has no cookie, and the timestamp of the server is 0. -/
theorem the_first_word_of_the_server_has_no_cookie :
    enView serverAck = .ack 34 56 ∧ enKey serverAck 34 = clientKey ∧
    ∃ val, (run (serverStep kernelHelpers) Server.boot
        [.ingress (0, 0) handshakeAck, .egress serverSynack]).conntrack_map.lookup clientKey =
        some val ∧
      switch_agent.plainAgent.map_seeds = (run (serverStep kernelHelpers) Server.boot
        [.ingress (0, 0) handshakeAck, .egress serverSynack]).map_seeds ∧
      (server_en.xdp_router kernelHelpers (run (serverStep kernelHelpers) Server.boot
        [.ingress (0, 0) handshakeAck, .egress serverSynack]) serverAck).2.2.tsval 56 = 0 ∧
      ∀ q ts', q.saddr = clientKey.src_ip → q.tsecr ts' = 0 →
        ¬ MapCheck switch_agent.plainAgent q ts' := by
  have hval : (run (serverStep kernelHelpers) Server.boot
      [.ingress (0, 0) handshakeAck, .egress serverSynack]).conntrack_map.lookup clientKey =
      some (synackEntry (createVal (htonl 2)) (serverSynack.seq 34) (serverSynack.tsval 56)) := by
    change (serverStep kernelHelpers (run (serverStep kernelHelpers) Server.boot (clientRun []))
      (.egress serverSynack)).conntrack_map.lookup clientKey = _
    rw [lookup_step, lookup_clientRun_nil]
    change flowStep _ _ (enEvent clientKey serverSynack) = _
    rw [enEvent_synack enView_serverSynack (by decide)]
    rfl
  refine ⟨enView_serverAck, by decide, _, hval, plainAgent_seeds [serverSynack], ?_, ?_⟩
  · rw [ack_sends_cookie enView_serverAck (by decide) hval]
    exact (sameCookie_synackEntry _ _ _).hybrid
  · intro q ts' hq hecho
    rw [mapCheck_echo hq hecho]
    decide

/-- The gateway with the seeds of the server agent after the events. -/
def agentAfter (es : List Event) : Agent :=
  { switch_agent.plainAgent with
    map_seeds := (run (serverStep kernelHelpers) Server.boot es).map_seeds }

/-- The ACK of the client that echoes `tsval`. -/
def echoAck (tsval : U32) : Pkt := dataAck.put32 62 tsval

theorem echoAck_tsecr (tsval : U32) : (echoAck tsval).tsecr 56 = tsval := Pkt.u32_put_same _ _ _

theorem echoAck_saddr (tsval : U32) : (echoAck tsval).saddr = clientKey.src_ip := by
  have hsame : (echoAck tsval).saddr = dataAck.saddr := Pkt.u32_put_ne _ _ _ _ _ (by omega)
  rw [hsame]
  decide

/-- After a data ACK under the seed 5 the timestamp of the server is accepted. -/
theorem the_cookie_of_the_client_is_acceptable :
    MapCheck (agentAfter (beforeLast [5] 5))
      (echoAck ((server_en.xdp_router kernelHelpers (run (serverStep kernelHelpers) Server.boot
        (beforeLast [5] 5)) serverAck).2.2.tsval 56)) 56 := by
  have hsome : (noted kernelHelpers clientKey (beforeLast [5] 5)).entry.map (·.cur_hash_seed) =
      some 5 := by
    rw [noted_beforeLast, noted_clientRun]
    decide
  obtain ⟨val, hval, hcur⟩ := Option.map_eq_some_iff.mp hsome
  rw [noted_entry] at hval
  refine (a_segment_is_acceptable_iff_its_cookie_is_current kernelHelpers (beforeLast [5] 5)
    serverAck 34 56 clientKey val _ _ 56 enView_serverAck (by decide) hval rfl (echoAck_saddr _)
    (echoAck_tsecr _)).mpr ?_
  have hmade : cookieMade kernelHelpers clientKey (beforeLast [5] 5) = true := by
    rw [cookieMade, noted_beforeLast, noted_clientRun]
    decide
  have hseed : (run (serverStep kernelHelpers) Server.boot (beforeLast [5] 5)).map_seeds
      (seedKey clientKey.src_ip) = 5 := by
    rw [beforeLast, run_append, run_cons, run_nil, map_seeds_seed]
  rw [if_pos hmade, hcur, hseed]

end edge_cookie
