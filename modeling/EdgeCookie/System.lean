-- The gateway agent and the server agent together, step by step, with changes
-- of the seeds at any time. A flow whose entry was made by a checked ACK keeps
-- its hash bits, so its old timestamps stay good over every change.
import EdgeCookie.CreateGate
import EdgeCookie.KeyChange

namespace edge_cookie

open bytes headers server runs
open server_in (inView createVal)
open server_en (enView)
open switch_agent (Agent Options pkt_5tuple tcpAt ackTs xsknf_packet_processor)

/-! ## The system -/

structure Sys where
  agent : Agent
  server : Server

/-- What can happen: a frame at an interface of the gateway, whose one worker
handles it; the end of a key change, which the main loop of the gateway waits
for; an event at the server agent. -/
inductive SysEvent where
  | gateway (p : Pkt) (ifindex : Nat)
  | windowEnd
  | server (e : Event)

def sysStep (o : Options) (K : Helpers) (s : Sys) : SysEvent → Sys
  | .gateway p ifindex => { s with agent := (xsknf_packet_processor o s.agent p ifindex 0).2.1 }
  | .windowEnd => { s with agent := { s.agent with change_key_duration := 0 } }
  | .server e => { s with server := serverStep K s.server e }

/-! ## What is noted about one flow -/

/-- The frame is an ACK of the flow `k` that the gateway passes by the SYN
cookie check, with the number `ack_seq`. -/
def PassesSyn (o : Options) (a : Agent) (k : map_key_t) (p : Pkt) (ack_seq : U32) : Prop :=
  inKey p tcpAt = k ∧ p.ack tcpAt = true ∧ p.syn tcpAt = false ∧
    (∃ ts, ackTs p = some ts ∧ p.tsecr ts = TS_START) ∧
    (xsknf_packet_processor o a p 0 0).1 ≠ -1 ∧ p.ack_seq tcpAt = ack_seq

/-- The system with notes about one flow: a cookie was made for its entry; the
numbers of its ACKs that passed the SYN cookie check; and the timestamps that
`server_en` sent with a cookie in the entry, each with the seed of the cookie. -/
structure Watch where
  sys : Sys
  made : Bool
  passed : U32 → Prop
  sent : U32 → U32 → Prop

def Watch.start (a : Agent) : Watch where
  sys := ⟨a, Server.boot⟩
  made := false
  passed _ := False
  sent _ _ := False

/-- The entry of the flow, with its note. -/
def Watch.noted (k : map_key_t) (w : Watch) : Noted := ⟨w.sys.server.conntrack_map.lookup k, w.made⟩

def watchStep (o : Options) (K : Helpers) (k : map_key_t) (w : Watch) (e : SysEvent) : Watch where
  sys := sysStep o K w.sys e
  made := match e with
    | .server e => noteStep (w.noted k) (flowEvent k w.sys.server e)
    | _ => w.made
  passed ack_seq := w.passed ack_seq ∨ ∃ p, e = .gateway p 0 ∧ PassesSyn o w.sys.agent k p ack_seq
  sent tsval seed := w.sent tsval seed ∨
    ∃ p val, e = .server (.egress p) ∧ w.made = true ∧ Sends K k w.sys.server p tsval ∧
      w.sys.server.conntrack_map.lookup k = some val ∧ val.cur_hash_seed = seed

theorem noted_watchStep (o : Options) (K : Helpers) (k : map_key_t) (w : Watch) (e : Event) :
    (watchStep o K k w (.server e)).noted k =
      notedStep k.src_ip (w.noted k) (flowEvent k w.sys.server e) :=
  congrArg (Noted.mk · _) (lookup_step K k w.sys.server e)

/-- An entry is made by an ACK that passed the SYN cookie check, and not by a SYN. -/
def Watch.Allows (w : Watch) : FlowEvent → Prop
  | .syn _ _ => False
  | .create ack_seq => w.passed ack_seq
  | _ => True

/-- Only an ACK that passed the SYN cookie check makes an entry of the flow. -/
def MadeByPassed (k : map_key_t) (w : Watch) : SysEvent → Prop
  | .server e => w.Allows (flowEvent k w.sys.server e)
  | _ => True

/-! ## The invariant -/

theorem synCookie_key (o : Options) (a : Agent) {p : Pkt} {k : map_key_t} (hk : inKey p tcpAt = k) :
    switch_agent.synCookie o a p 0 = flowCookie o (a.flows 0).salt k := by
  rw [synCookie_flow, hk]

/-- Whatever the gateway and the server agent compute for the flow comes from
one SYN cookie. -/
structure WatchOk (o : Options) (salt : Fin 5 → U32) (k : map_key_t) (w : Watch) : Prop where
  agent : (w.sys.agent.flows 0).salt = salt
  noted : NotedOk k.src_ip (w.noted k)
  hash : ∀ val, w.sys.server.conntrack_map.lookup k = some val →
    val.hash_cookie = flowCookie o salt k
  passed : ∀ ack_seq, w.passed ack_seq → htonl (ntohl ack_seq - 1) = flowCookie o salt k
  sent : ∀ tsval seed, w.sent tsval seed →
    hashBits (ntohl tsval) = foldBits (flowCookie o salt k) ∧
      mapBits (ntohl tsval) = mapCookie k.src_ip seed

section

variable {o : Options} {K : Helpers} {k : map_key_t} {salt : Fin 5 → U32} {w : Watch}

theorem watchOk_start (a : Agent) : WatchOk o (a.flows 0).salt k (Watch.start a) where
  agent := rfl
  noted := ⟨fun _ h _ => (nomatch h), fun _ h _ => (nomatch h)⟩
  hash _ h := nomatch h
  passed _ h := nomatch h
  sent _ _ h := nomatch h

/-- A checked ACK has the number of the SYN cookie. -/
theorem passesSyn_number (hdrop : o.opt_drop = false)
    (hforward : o.opt_forward = false) {a : Agent} {p : Pkt} {ack_seq : U32}
    (h : PassesSyn o a k p ack_seq) :
    htonl (ntohl ack_seq - 1) = flowCookie o (a.flows 0).salt k := by
  obtain ⟨hk, hack, hsyn, ⟨ts, hts, hstart⟩, hpass, rfl⟩ := h
  have hproto : ¬ (p.h_proto ≠ htons ETH_P_IP ∧ p.protocol ≠ IPPROTO_TCP) := fun hother =>
    hpass (switch_agent.processor_other hother 0)
  have hcheck :=
    (switch_agent.processor_ack_start hdrop hforward hproto hsyn hack ts hts hstart).mp hpass
  rw [← synCookie_key o a hk]
  exact hcheck

/-- The hash of an entry comes from a checked ACK, and nothing else writes it. -/
theorem hash_step (h : WatchOk o salt k w) {e : Event} (he : w.Allows (flowEvent k w.sys.server e))
    {val : map_val_t} (hval : (serverStep K w.sys.server e).conntrack_map.lookup k = some val) :
    val.hash_cookie = flowCookie o salt k := by
  rw [lookup_step] at hval
  cases hf : flowEvent k w.sys.server e with
  | other =>
    rw [hf] at hval
    exact h.hash val hval
  | syn seed tsecr =>
    rw [hf] at he
    exact he.elim
  | create ack_seq =>
    rw [hf] at hval he
    obtain rfl := Option.some.inj hval
    exact h.passed ack_seq he
  | data seed =>
    rw [hf] at hval
    obtain ⟨old, hold, rfl⟩ := Option.map_eq_some_iff.mp hval
    rw [refresh_hash]
    exact h.hash old hold
  | synack seq tsval =>
    rw [hf] at hval
    obtain ⟨old, hold, rfl⟩ := Option.map_eq_some_iff.mp hval
    rw [(sameCookie_synackEntry old seq tsval).hash]
    exact h.hash old hold
  | ack tsval =>
    rw [hf] at hval
    obtain ⟨old, hold, rfl⟩ := Option.map_eq_some_iff.mp hval
    exact h.hash old hold

theorem watchOk_step (hdrop : o.opt_drop = false)
    (hforward : o.opt_forward = false) (h : WatchOk o salt k w) {e : SysEvent}
    (he : MadeByPassed k w e) : WatchOk o salt k (watchStep o K k w e) where
  agent := by
    cases e with
    | gateway p ifindex => exact (switch_agent.processor_salt ifindex 0).trans h.agent
    | windowEnd => exact h.agent
    | server e => exact h.agent
  noted := by
    cases e with
    | gateway p ifindex => exact h.noted
    | windowEnd => exact h.noted
    | server e =>
      rw [noted_watchStep]
      exact notedOk_step h.noted _
  hash := by
    cases e with
    | gateway p ifindex => exact h.hash
    | windowEnd => exact h.hash
    | server e => exact fun val hval => hash_step h he hval
  passed := by
    rintro ack_seq (hold | ⟨p, -, hp⟩)
    · exact h.passed ack_seq hold
    · rw [← h.agent]
      exact passesSyn_number hdrop hforward hp
  sent := by
    rintro tsval seed (hold | ⟨p, val, -, hmade, hsends, hval, rfl⟩)
    · exact h.sent tsval seed hold
    · obtain ⟨val', hval', rfl⟩ := sends_cookie hsends
      obtain rfl := Option.some.inj (hval.symm.trans hval')
      have hok := h.noted.made val hval hmade
      rw [← h.hash val hval]
      exact ⟨hok.hash, hok.map⟩

end

/-! ## Old timestamps after a change -/

/-- In every run where only checked ACKs make entries of the flow `k`: an ACK of
the flow that echoes a timestamp with a cookie is passed under `-k`, whatever
the seeds are now; and it is passed when the seed at the gateway is the one
under which the cookie was made. -/
theorem old_timestamps_survive_a_key_change (o : Options) (K : Helpers) (a : Agent) (k : map_key_t)
    (es : List SysEvent) (hdrop : o.opt_drop = false)
    (hforward : o.opt_forward = false)
    (hes : Along (watchStep o K k) (MadeByPassed k) (Watch.start a) es) (q : Pkt) (ts : Nat)
    (seed : U32) (hproto : q.h_proto = htons ETH_P_IP) (hk : inKey q tcpAt = k)
    (hack : q.ack tcpAt = true) (hsyn : q.syn tcpAt = false) (hts : ackTs q = some ts)
    (hstart : q.tsecr ts ≠ TS_START)
    (hsent : (run (watchStep o K k) (Watch.start a) es).sent (q.tsecr ts) seed) :
    (o.opt_change_key = true → (xsknf_packet_processor o
      (run (watchStep o K k) (Watch.start a) es).sys.agent q 0 0).1 ≠ -1) ∧
    ((run (watchStep o K k) (Watch.start a) es).sys.agent.map_seeds (seedKey k.src_ip) = seed →
      (xsknf_packet_processor o
        (run (watchStep o K k) (Watch.start a) es).sys.agent q 0 0).1 ≠ -1) := by
  have hinv : WatchOk o (a.flows 0).salt k (run (watchStep o K k) (Watch.start a) es) :=
    run_invariant_along (WatchOk o (a.flows 0).salt k)
      (fun _ _ he hw => watchOk_step hdrop hforward hw he) hes (watchOk_start a)
  generalize run (watchStep o K k) (Watch.start a) es = w at hinv hsent ⊢
  obtain ⟨hhash, hmap⟩ := hinv.sent _ _ hsent
  rw [switch_agent.processor_ack hdrop hforward (fun h => h.1 hproto) hsyn hack,
    switch_agent.inboundAck_passes_iff]
  constructor
  · intro hkey
    refine .hash ts hts hstart ⟨.inr hkey, (hashBits_eq_iff _ _).mpr ?_⟩
    rw [synCookie_key o _ hk, hinv.agent]
    exact hhash
  · intro hseed
    refine .map ts hts hstart ?_
    have hip : q.saddr = k.src_ip := congrArg map_key_t.src_ip hk
    rw [mapCheck_echo hip rfl, hseed]
    exact hmap

/-! ## One client -/

/-- A segment that the ACK branch handles sends the cookie of the entry. -/
theorem sent_ack {o : Options} {K : Helpers} {k : map_key_t} {w : Watch} {p : Pkt} {tcp ts : Nat}
    {val : map_val_t} (hview : enView p = .ack tcp ts) (hkey : enKey p tcp = k)
    (hval : w.sys.server.conntrack_map.lookup k = some val) (hmade : w.made = true) :
    (watchStep o K k w (.server (.egress p))).sent val.hybrid_cookie val.cur_hash_seed := by
  have hok : (server_en.xdp_router K w.sys.server p).1 = .TC_ACT_OK := by
    rw [server_en.xdp_router_ack K hview (by rw [hkey]; exact hval)]
    rfl
  exact .inr ⟨p, val, rfl, hmade,
    ⟨tcp, ts, .inr hview, hkey, hok, ack_sends_cookie hview hkey hval⟩, hval, rfl⟩

/-- While only the server agent moves, the notes follow its runs. -/
theorem noted_serverRun (o : Options) (K : Helpers) (k : map_key_t) (w : Watch) (es : List Event) :
    (run (watchStep o K k) w (es.map .server)).noted k =
      run (notedStep k.src_ip) (w.noted k) (flowTrace K k w.sys.server es) := by
  induction es generalizing w with
  | nil => rfl
  | cons e es ih =>
    rw [List.map_cons, run_cons, ih, noted_watchStep]
    rfl

/-- The gateway checks the ACK, and the server agent makes the entry, gives it a
cookie under the seed 5 and sends a segment. -/
def checkedRun : List SysEvent :=
  [.gateway checkedAck 0, .server (.ingress (0, 0) checkedAck),
    .server (.seed (seedKey clientKey.src_ip) 5), .server (.ingress (0, 0) dataAck)]

def keyOptions : Options := { opt_change_key := true }

/-- The gateway after the run and a segment of the server. -/
def checkedAgent : Agent :=
  (run (watchStep keyOptions kernelHelpers clientKey) (Watch.start switch_agent.plainAgent)
    (checkedRun ++ [.server (.egress serverAck)])).sys.agent

theorem inView_checkedAck : inView checkedAck = .create 34 56 := by decide

theorem checkedAck_passes :
    PassesSyn keyOptions switch_agent.plainAgent clientKey checkedAck
      (checkedAck.ack_seq tcpAt) := by
  have hts : ackTs checkedAck = some 56 := by decide
  have hstart : checkedAck.tsecr 56 = TS_START := by decide
  refine ⟨by decide, by decide, by decide, ⟨56, hts, hstart⟩, ?_, rfl⟩
  refine (switch_agent.processor_ack_start rfl rfl (by decide) (by decide)
    (by decide) 56 hts hstart).mpr ?_
  exact checkedAck_checked switch_agent.plainAgent rfl

theorem madeByPassed_data {w : Watch} {rnd : U32 × U32} {k : map_key_t} {p : Pkt} {tcp ts : Nat}
    (h : inView p = .data tcp ts) (hk : inKey p tcp = k) :
    MadeByPassed k w (.server (.ingress rnd p)) := by
  change w.Allows (inEvent w.sys.server k p)
  rw [inEvent_data h hk]
  trivial

theorem madeByPassed_egress {w : Watch} {k : map_key_t} {p : Pkt} {tcp ts : Nat}
    (h : enView p = .ack tcp ts) : MadeByPassed k w (.server (.egress p)) := by
  change w.Allows (enEvent k p)
  unfold enEvent
  rw [h]
  dsimp only
  split <;> trivial

theorem checkedRun_allowed :
    Along (watchStep keyOptions kernelHelpers clientKey) (MadeByPassed clientKey)
    (Watch.start switch_agent.plainAgent) checkedRun := by
  refine ⟨trivial, ?_, trivial, ?_, trivial⟩
  · change Watch.Allows _ (inEvent Server.boot clientKey checkedAck)
    rw [inEvent_create inView_checkedAck (by decide) (Or.inr (by decide))]
    exact .inr ⟨checkedAck, rfl, checkedAck_passes⟩
  · exact madeByPassed_data inView_dataAck (by decide)

/-- The entry of the client before the segment of the server. -/
theorem checkedRun_noted :
    (run (watchStep keyOptions kernelHelpers clientKey) (Watch.start switch_agent.plainAgent)
      checkedRun).noted clientKey =
      ⟨some (refresh clientKey.src_ip 5 (createVal (checkedAck.ack_seq 34))), true⟩ := by
  have hsplit : checkedRun = .gateway checkedAck 0 ::
      (.ingress (0, 0) checkedAck :: reseed dataAck clientKey.src_ip [5]).map .server := by
    simp only [checkedRun, reseed, List.flatMap_cons, List.flatMap_nil, List.append_nil,
      List.map_cons, List.map_nil]
  have hserver : (watchStep keyOptions kernelHelpers clientKey (Watch.start switch_agent.plainAgent)
      (.gateway checkedAck 0)).sys.server = Server.boot := rfl
  rw [hsplit, run_cons, noted_serverRun, hserver,
    flowTrace_connection kernelHelpers inView_checkedAck
    (by decide) inView_dataAck (by decide)]
  rfl

theorem echoAck_same (tsval : U32) : Pkt.SameOn 0 62 dataAck (echoAck tsval) :=
  (Pkt.SameOn.refl 0 62 dataAck).put (.inl (Nat.le_refl 62))

theorem echoAck_inKey (tsval : U32) : inKey (echoAck tsval) tcpAt = clientKey := by
  have hsame := echoAck_same tsval
  have hkey : inKey (echoAck tsval) tcpAt = inKey dataAck tcpAt := by
    unfold inKey Pkt.saddr Pkt.daddr Pkt.source Pkt.dest tcpAt
    rw [hsame.u32 (by omega) (by omega), hsame.u32 (by omega) (by omega),
      hsame.u16 (by omega) (by omega), hsame.u16 (by omega) (by omega)]
  rw [hkey]
  decide

theorem echoAck_flag (tsval : U32) (i : Nat) :
    (echoAck tsval).flag tcpAt i = dataAck.flag tcpAt i :=
  (echoAck_same tsval).flag (by decide) (by decide) i

theorem echoAck_ackTs (tsval : U32) : ackTs (echoAck tsval) = some 56 := by
  have hack : (echoAck tsval).ack tcpAt = true := (echoAck_flag tsval 4).trans (by decide)
  have hsyn : (echoAck tsval).syn tcpAt = false := (echoAck_flag tsval 1).trans (by decide)
  have hdoff : (echoAck tsval).doff tcpAt = 8 := by
    unfold Pkt.doff tcpAt
    rw [(echoAck_same tsval).u8 (by omega) (by omega)]
    decide
  have hopt : (echoAck tsval).u64 (tcpAt + 20) = dataAck.u64 (tcpAt + 20) :=
    Pkt.u64_put_ne _ _ _ _ _ (by decide)
  have hmask : ackMasks (dataAck.u64 (tcpAt + 20)) = .found 2 := by decide
  have hoff : switch_agent.parse_timestamp (echoAck tsval) tcpAt = some 2 := by
    unfold switch_agent.parse_timestamp
    simp only [hack, hsyn, hdoff, hopt, hmask, Bool.false_and, Bool.not_false, Bool.and_true,
      Bool.false_eq_true, if_false, if_true]
    rfl
  unfold ackTs
  rw [hoff]
  rfl

/-- The first cookie of an entry is under the new seed, and is not `TS_START`. -/
theorem first_cookie_ne_start (ip seed : U32) (val : map_val_t) (hs : seed ≠ 0)
    (h0 : val.cur_hash_seed = 0) :
    (refresh ip seed val).cur_hash_seed = seed ∧ (refresh ip seed val).hybrid_cookie ≠
      TS_START := by
  rw [refresh_first ip hs h0]
  refine ⟨withCookie_seed _ _ _, fun hstart => ?_⟩
  have hlater := firstCookie_later val.hash_cookie ip seed
  have hcookie := withCookie_hybrid val (firstCookie val.hash_cookie ip seed) seed
  rw [← hcookie, hstart] at hlater
  revert hlater
  decide

/-- The server has sent a timestamp to the client. -/
theorem checkedRun_sent : ∃ tsval,
    (run (watchStep keyOptions kernelHelpers clientKey) (Watch.start switch_agent.plainAgent)
      (checkedRun ++ [.server (.egress serverAck)])).sent tsval 5 ∧ tsval ≠ TS_START := by
  have hnoted := checkedRun_noted
  obtain ⟨hseed, hstart⟩ := first_cookie_ne_start clientKey.src_ip 5
    (createVal (checkedAck.ack_seq 34)) (by decide) rfl
  generalize refresh clientKey.src_ip 5
    (createVal (checkedAck.ack_seq 34)) = val at hnoted hseed hstart
  rw [run_append, run_cons, run_nil]
  generalize run (watchStep keyOptions kernelHelpers clientKey)
    (Watch.start switch_agent.plainAgent) checkedRun = w at hnoted ⊢
  refine ⟨val.hybrid_cookie, ?_, hstart⟩
  rw [← hseed]
  exact sent_ack enView_serverAck (by decide) (congrArg Noted.entry hnoted)
    (congrArg Noted.made hnoted)

/-- The client echoes the cookie of the server, and the gateway passes the ACK. -/
theorem the_client_survives_a_key_change :
    ∃ tsval, (xsknf_packet_processor keyOptions checkedAgent (echoAck tsval) 0 0).1 ≠ -1 := by
  have hallowed : Along (watchStep keyOptions kernelHelpers clientKey) (MadeByPassed clientKey)
      (Watch.start switch_agent.plainAgent) (checkedRun ++ [.server (.egress serverAck)]) :=
    along_append.mpr ⟨checkedRun_allowed, madeByPassed_egress enView_serverAck, trivial⟩
  obtain ⟨tsval, hsent, hstart⟩ := checkedRun_sent
  have hproto : (echoAck tsval).h_proto = htons ETH_P_IP :=
    ((echoAck_same tsval).u16 (by decide) (by decide)).trans (by decide)
  have hack : (echoAck tsval).ack tcpAt = true := (echoAck_flag _ 4).trans (by decide)
  have hsyn : (echoAck tsval).syn tcpAt = false := (echoAck_flag _ 1).trans (by decide)
  rw [← echoAck_tsecr tsval] at hsent hstart
  unfold checkedAgent
  generalize checkedRun ++ [SysEvent.server (.egress serverAck)] = es at hsent hallowed ⊢
  exact ⟨tsval,
    (old_timestamps_survive_a_key_change keyOptions kernelHelpers switch_agent.plainAgent
      clientKey es rfl rfl hallowed (echoAck tsval) 56 5 hproto (echoAck_inKey _) hack hsyn
      (echoAck_ackTs _) hstart hsent).1 rfl⟩

end edge_cookie
