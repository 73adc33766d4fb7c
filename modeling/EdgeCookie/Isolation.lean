-- Connections of the server agent do not disturb each other. What happens to
-- the frames of a flow depends on the entry of the flow and on the seed of its
-- address; the frames of all other flows can be left out of a run, as long as
-- they do not fill the table and do not change that seed.
import EdgeCookie.Handshake

namespace edge_cookie

open bytes headers server runs
open server_in (InView inView createVal initTables)
open server_en (EnView enView rstVal synackVal ackVal)

/-! ## The events of a flow -/

/-- Where the view has the TCP header. -/
def enTcpAt : EnView → Option Nat
  | .drop => none
  | .pass => none
  | .synack tcp _ => some tcp
  | .rst tcp => some tcp
  | .ack tcp _ => some tcp

/-- A frame of the flow, or a seed for its address. -/
def ofFlow (k : map_key_t) : Event → Bool
  | .ingress _ p => (inView p).tcpAt.any fun tcp => inKey p tcp = k
  | .egress p => (enTcpAt (enView p)).any fun tcp => enKey p tcp = k
  | .seed seed_key _ => seed_key = seedKey k.src_ip

/-- The frame makes an entry. -/
def Event.creates : Event → Bool
  | .ingress _ p =>
    match inView p with
    | .syn _ _ => true
    | .create _ _ => true
    | _ => false
  | _ => false

/-- The frame is a later ACK of a client. -/
def Event.isData : Event → Bool
  | .ingress _ p =>
    match inView p with
    | .data _ _ => true
    | _ => false
  | _ => false

/-- What becomes of a frame: a frame that `server_in` sends back is dropped as
far as the flow goes. -/
inductive Output where
  | dropped
  | passed (p : Pkt)
  | redirected (p : Pkt)

def output (K : Helpers) (s : Server) : Event → Output
  | .ingress rnd p =>
    let x := server_in.xdp_router K rnd s p
    if x.1 = .XDP_PASS then .passed x.2.2 else .dropped
  | .egress p =>
    let x := server_en.xdp_router K s p
    match x.1 with
    | .TC_ACT_OK => .passed x.2.2
    | .redirect _ => .redirected x.2.2
    | .TC_ACT_SHOT => .dropped
  | .seed _ _ => .dropped

/-- The event does not disturb the flow: a frame of another flow leaves the seed
of its address alone, and its own frames find room for an entry, or the entry. -/
structure Undisturbed (K : Helpers) (k : map_key_t) (s : Server) (e : Event) : Prop where
  seed : ofFlow k e = false →
    (serverStep K s e).map_seeds (seedKey k.src_ip) = s.map_seeds (seedKey k.src_ip)
  room : ofFlow k e = true → e.creates = true → s.conntrack_map.HasRoom k
  entry : ofFlow k e = true → e.isData = true → (s.conntrack_map.lookup k).isSome = true

/-! ## Two servers that a flow cannot tell apart -/

structure SameFlow (k : map_key_t) (s t : Server) : Prop where
  init : s.init = true
  init' : t.init = true
  seed : s.map_seeds (seedKey k.src_ip) = t.map_seeds (seedKey k.src_ip)
  entry : s.conntrack_map.lookup k = t.conntrack_map.lookup k
  keys : ∀ k', (t.conntrack_map.lookup k').isSome = true → (s.conntrack_map.lookup k').isSome = true

theorem isSome_flowStep {ip : U32} {entry : Option map_val_t} (f : FlowEvent)
    (h : entry.isSome = true) :
    (flowStep ip entry f).isSome = true := by
  obtain ⟨val, rfl⟩ := Option.isSome_iff_exists.mp h
  cases f <;> rfl

/-- No entry leaves the table. -/
theorem isSome_lookup_step (K : Helpers) (s : Server) (e : Event) {k : map_key_t}
    (h : (s.conntrack_map.lookup k).isSome = true) :
    ((serverStep K s e).conntrack_map.lookup k).isSome = true := by
  rw [lookup_step]
  exact isSome_flowStep _ h

theorem inEvent_other {s : Server} {k : map_key_t} {p : Pkt}
    (h : ∀ tcp, (inView p).tcpAt = some tcp → inKey p tcp ≠ k) : inEvent s k p = .other := by
  unfold inEvent
  cases hv : inView p with
  | drop => rfl
  | pass => rfl
  | synack tcp => rfl
  | syn tcp ts =>
    rw [hv] at h
    exact if_neg fun hk => h tcp rfl hk.1
  | create tcp ts =>
    rw [hv] at h
    exact if_neg fun hk => h tcp rfl hk.1
  | data tcp ts =>
    rw [hv] at h
    exact if_neg (h tcp rfl)

theorem enEvent_other {k : map_key_t} {p : Pkt}
    (h : ∀ tcp, enTcpAt (enView p) = some tcp → enKey p tcp ≠ k) : enEvent k p = .other := by
  unfold enEvent
  cases hv : enView p with
  | drop => rfl
  | pass => rfl
  | rst tcp => rfl
  | synack tcp ts =>
    rw [hv] at h
    exact if_neg (h tcp rfl)
  | ack tcp ts =>
    rw [hv] at h
    exact if_neg (h tcp rfl)

/-- An event of another flow is none for this one. -/
theorem flowEvent_other {s : Server} {k : map_key_t} {e : Event} (h : ofFlow k e = false) :
    flowEvent k s e = .other := by
  cases e with
  | ingress rnd p =>
    refine inEvent_other fun tcp htcp hk => ?_
    simp [ofFlow, htcp, hk] at h
  | egress p =>
    refine enEvent_other fun tcp htcp hk => ?_
    simp [ofFlow, htcp, hk] at h
  | seed seed_key new_seed => rfl

theorem flowEvent_ne {s : Server} {k k' : map_key_t} {e : Event} (h : ofFlow k e = true)
    (hne : k' ≠ k) :
    flowEvent k' s e = .other := by
  cases e with
  | ingress rnd p =>
    refine inEvent_other fun tcp htcp hk => hne ?_
    simp only [ofFlow, htcp, Option.any_some, decide_eq_true_eq] at h
    exact hk.symm.trans h
  | egress p =>
    refine enEvent_other fun tcp htcp hk => hne ?_
    simp only [ofFlow, htcp, Option.any_some, decide_eq_true_eq] at h
    exact hk.symm.trans h
  | seed seed_key new_seed => rfl

theorem initTables_of_init {s : Server} (h : s.init = true) : initTables s = s := by
  unfold initTables
  rw [if_pos h]

section

variable {K : Helpers} {k : map_key_t} {s t : Server} {e : Event} (h : SameFlow k s t)
include h

/-- The event of the flow is the same on both sides. -/
theorem SameFlow.flowEvent (hgood : Undisturbed K k s e) (hk : ofFlow k e = true) :
    flowEvent k s e = flowEvent k t e := by
  cases e with
  | egress p => rfl
  | seed seed_key new_seed => rfl
  | ingress rnd p =>
    have hroom : (Event.ingress rnd p).creates = true → t.conntrack_map.HasRoom k := by
      intro hc
      refine (hgood.room hk hc).of_keys h.keys ?_
      rw [h.entry]
      exact id
    have hseed : seedAt s k.src_ip = seedAt t k.src_ip := by
      rw [seedAt_of_init h.init, seedAt_of_init h.init', h.seed]
    change inEvent s k p = inEvent t k p
    unfold inEvent
    cases hv : inView p with
    | drop => rfl
    | pass => rfl
    | synack tcp => rfl
    | data tcp ts =>
      dsimp only
      rw [hseed]
    | syn tcp ts =>
      have hc : (Event.ingress rnd p).creates = true := by
        simp [Event.creates, hv]
      dsimp only
      rw [hseed]
      simp only [hgood.room hk hc, hroom hc, and_true]
    | create tcp ts =>
      have hc : (Event.ingress rnd p).creates = true := by
        simp [Event.creates, hv]
      simp only [hgood.room hk hc, hroom hc, and_true]

end

/-! ## The seeds -/

theorem hitBranch_seeds (K : Helpers) (s : Server) (p : Pkt) (tcp ts : Nat) (val : map_val_t) :
    (server_in.hitBranch K s p tcp ts val).2.1.map_seeds = s.map_seeds := by
  unfold server_in.hitBranch
  dsimp only
  split <;> rfl

/-- A data ACK of a known flow runs the branch of its entry. -/
theorem xdp_router_hit (K : Helpers) (rnd : U32 × U32) {s : Server} {p : Pkt} {tcp ts : Nat}
    {val : map_val_t} (hinit : s.init = true) (hv : inView p = .data tcp ts)
    (hval : s.conntrack_map.lookup (inKey p tcp) = some val) :
    server_in.xdp_router K rnd s p = server_in.hitBranch K s p tcp ts val := by
  rw [server_in.xdp_router_eq, initTables_of_init hinit, hv]
  dsimp only [server_in.runView, server_in.dataBranch]
  rw [hval]

/-- A frame that counts no miss changes no seed. -/
theorem ingress_seeds {K : Helpers} {s : Server} (rnd : U32 × U32) (p : Pkt) (hinit : s.init = true)
    (hentry : ∀ tcp ts, inView p = .data tcp ts →
      (s.conntrack_map.lookup (inKey p tcp)).isSome = true) :
    (server_in.xdp_router K rnd s p).2.1.map_seeds = s.map_seeds := by
  cases hv : inView p with
  | data tcp ts =>
    obtain ⟨val, hval⟩ := Option.isSome_iff_exists.mp (hentry tcp ts hv)
    rw [xdp_router_hit K rnd hinit hv hval, hitBranch_seeds]
  | drop => rw [server_in.xdp_router_eq, initTables_of_init hinit, hv, server_in.runView]
  | pass => rw [server_in.xdp_router_eq, initTables_of_init hinit, hv, server_in.runView]
  | syn tcp ts =>
    rw [server_in.xdp_router_eq, initTables_of_init hinit, hv, server_in.runView,
      server_in.synBranch]
  | create tcp ts =>
    rw [server_in.xdp_router_eq, initTables_of_init hinit, hv, server_in.runView,
      createBranch_server]
  | synack tcp =>
    rw [server_in.xdp_router_eq, initTables_of_init hinit, hv, server_in.runView,
      synackBranch_server]

/-- The entry of an undisturbed data ACK. -/
theorem Undisturbed.data {K : Helpers} {k : map_key_t} {s : Server} {rnd : U32 × U32} {p : Pkt}
    (h : Undisturbed K k s (.ingress rnd p)) (hk : ofFlow k (.ingress rnd p) = true) {tcp ts : Nat}
    (hv : inView p = .data tcp ts) :
    inKey p tcp = k ∧ (s.conntrack_map.lookup k).isSome = true := by
  have hkey : inKey p tcp = k := by
    simpa [ofFlow, hv, InView.tcpAt] using hk
  exact ⟨hkey, h.entry hk (by simp [Event.isData, hv])⟩

section

variable {K : Helpers} {k : map_key_t} {s t : Server} {e : Event} (h : SameFlow k s t)
include h

/-- An event of the flow leaves both servers with the same seed. -/
theorem SameFlow.seeds (hgood : Undisturbed K k s e) (hk : ofFlow k e = true) :
    (serverStep K s e).map_seeds (seedKey k.src_ip) =
      (serverStep K t e).map_seeds (seedKey k.src_ip) := by
  cases e with
  | egress p =>
    change (server_en.xdp_router K s p).2.1.map_seeds _ =
      (server_en.xdp_router K t p).2.1.map_seeds _
    rw [(egress_keeps K s p).2.1, (egress_keeps K t p).2.1, h.seed]
  | seed seed_key new_seed =>
    dsimp only [serverStep]
    rw [h.seed]
  | ingress rnd p =>
    have hs : ∀ tcp ts, inView p = .data tcp ts →
        (s.conntrack_map.lookup (inKey p tcp)).isSome = true := by
      intro tcp ts hv
      obtain ⟨hkey, hentry⟩ := hgood.data hk hv
      rw [hkey]
      exact hentry
    have ht : ∀ tcp ts, inView p = .data tcp ts →
        (t.conntrack_map.lookup (inKey p tcp)).isSome = true := by
      intro tcp ts hv
      obtain ⟨hkey, hentry⟩ := hgood.data hk hv
      rw [hkey, ← h.entry]
      exact hentry
    change (server_in.xdp_router K rnd s p).2.1.map_seeds _ =
      (server_in.xdp_router K rnd t p).2.1.map_seeds _
    rw [ingress_seeds rnd p h.init hs, ingress_seeds rnd p h.init' ht, h.seed]

/-- Both servers take an event of the flow. -/
theorem SameFlow.step (hgood : Undisturbed K k s e) (hk : ofFlow k e = true) :
    SameFlow k (serverStep K s e) (serverStep K t e) := by
  have hentry : (serverStep K s e).conntrack_map.lookup k =
      (serverStep K t e).conntrack_map.lookup k := by
    rw [lookup_step, lookup_step, h.flowEvent hgood hk, h.entry]
  refine ⟨init_step e h.init, init_step e h.init', h.seeds hgood hk, hentry, fun k' hk' => ?_⟩
  by_cases hne : k' = k
  · rw [hne, hentry, ← hne]
    exact hk'
  · rw [lookup_step, flowEvent_ne hk hne] at hk' ⊢
    exact h.keys k' hk'

/-- One of them takes an event of another flow. -/
theorem SameFlow.skip (hgood : Undisturbed K k s e) (hk : ofFlow k e = false) :
    SameFlow k (serverStep K s e) t := by
  refine ⟨init_step e h.init, h.init', (hgood.seed hk).trans h.seed, ?_, fun k' hk' => ?_⟩
  · rw [lookup_step, flowEvent_other hk]
    exact h.entry
  · exact isSome_lookup_step K s e (h.keys k' hk')

end

/-! ## What becomes of a frame -/

/-- What a data ACK becomes is a matter of its entry alone. -/
theorem hitBranch_output (K : Helpers) (s t : Server) (p : Pkt) (tcp ts : Nat) (val : map_val_t) :
    (server_in.hitBranch K s p tcp ts val).2.2 = (server_in.hitBranch K t p tcp ts val).2.2 := by
  unfold server_in.hitBranch
  dsimp only
  rw [refreshVal_eq, refreshVal_eq]
  dsimp only
  rw [refresh_delta, refresh_delta, refresh_ts_val_s, refresh_ts_val_s]

theorem synackBranch_output (K : Helpers) (s t : Server) (p : Pkt) (tcp ts : Nat)
    (val : map_val_t) :
    (server_en.synackBranch K s p tcp ts val).1 = (server_en.synackBranch K t p tcp ts val).1 ∧
      (server_en.synackBranch K s p tcp ts val).2.2 =
        (server_en.synackBranch K t p tcp ts val).2.2 := by
  unfold server_en.synackBranch server_en.convertSynack
  dsimp only
  generalize Pkt.memcpy _ 0 _ = q
  split
  · exact ⟨rfl, rfl⟩
  · split <;> exact ⟨rfl, rfl⟩

/-- So is what a segment of the server becomes. -/
theorem egress_output (K : Helpers) {s t : Server} {p : Pkt}
    (h : ∀ tcp, enTcpAt (enView p) = some tcp →
      s.conntrack_map.lookup (enKey p tcp) = t.conntrack_map.lookup (enKey p tcp)) :
    (server_en.xdp_router K s p).1 = (server_en.xdp_router K t p).1 ∧
      (server_en.xdp_router K s p).2.2 = (server_en.xdp_router K t p).2.2 := by
  rw [server_en.xdp_router_eq, server_en.xdp_router_eq]
  cases hv : enView p with
  | drop => exact ⟨rfl, rfl⟩
  | pass => exact ⟨rfl, rfl⟩
  | synack tcp ts =>
    dsimp only [server_en.runView, server_en.withEntry]
    rw [h tcp (by rw [hv]; rfl)]
    split
    · exact ⟨rfl, rfl⟩
    · exact synackBranch_output K s t p tcp ts _
  | rst tcp =>
    dsimp only [server_en.runView, server_en.withEntry]
    rw [h tcp (by rw [hv]; rfl)]
    split
    · exact ⟨rfl, rfl⟩
    · exact ⟨rfl, rfl⟩
  | ack tcp ts =>
    dsimp only [server_en.runView, server_en.withEntry]
    rw [h tcp (by rw [hv]; rfl)]
    split
    · exact ⟨rfl, rfl⟩
    · exact ⟨rfl, rfl⟩

/-- A frame that makes an entry, or needs none, does not depend on the server. -/
theorem ingress_output (K : Helpers) (rnd : U32 × U32) {s t : Server} {p : Pkt} (hs : s.init = true)
    (ht : t.init = true) (hdata : ∀ tcp ts, inView p ≠ .data tcp ts) :
    (server_in.xdp_router K rnd s p).1 = (server_in.xdp_router K rnd t p).1 ∧
      (server_in.xdp_router K rnd s p).2.2 = (server_in.xdp_router K rnd t p).2.2 := by
  rw [server_in.xdp_router_eq, server_in.xdp_router_eq, initTables_of_init hs,
    initTables_of_init ht]
  cases hv : inView p with
  | drop => exact ⟨rfl, rfl⟩
  | pass => exact ⟨rfl, rfl⟩
  | data tcp ts => exact absurd hv (hdata tcp ts)
  | syn tcp ts => exact ⟨rfl, rfl⟩
  | create tcp ts =>
    dsimp only [server_in.runView]
    unfold server_in.createBranch
    dsimp only
    split <;> exact ⟨rfl, rfl⟩
  | synack tcp =>
    dsimp only [server_in.runView]
    unfold server_in.synackBranch
    dsimp only
    split <;> exact ⟨rfl, rfl⟩

theorem SameFlow.output {K : Helpers} {k : map_key_t} {s t : Server} {e : Event}
    (h : SameFlow k s t) (hgood : Undisturbed K k s e) (hk : ofFlow k e = true) :
    output K s e = output K t e := by
  cases e with
  | seed seed_key new_seed => rfl
  | egress p =>
    have hentry : ∀ tcp, enTcpAt (enView p) = some tcp →
        s.conntrack_map.lookup (enKey p tcp) = t.conntrack_map.lookup (enKey p tcp) := by
      intro tcp htcp
      have hkey : enKey p tcp = k := by
        simpa [ofFlow, htcp] using hk
      rw [hkey]
      exact h.entry
    obtain ⟨haction, hframe⟩ := egress_output K hentry
    unfold edge_cookie.output
    dsimp only
    rw [haction, hframe]
  | ingress rnd p =>
    by_cases hdata : ∃ tcp ts, inView p = .data tcp ts
    · obtain ⟨tcp, ts, hv⟩ := hdata
      obtain ⟨hkey, hentry⟩ := hgood.data hk hv
      obtain ⟨val, hval⟩ := Option.isSome_iff_exists.mp hentry
      have hs : s.conntrack_map.lookup (inKey p tcp) = some val := by
        rw [hkey, hval]
      have ht : t.conntrack_map.lookup (inKey p tcp) = some val := by
        rw [hkey, ← h.entry, hval]
      unfold edge_cookie.output
      dsimp only
      rw [xdp_router_hit K rnd h.init hv hs, xdp_router_hit K rnd h.init' hv ht,
        hitBranch_output K s t]
      rfl
    · have hnone : ∀ tcp ts, inView p ≠ .data tcp ts := fun tcp ts hv => hdata ⟨tcp, ts, hv⟩
      obtain ⟨haction, hframe⟩ := ingress_output K rnd h.init h.init' hnone
      unfold edge_cookie.output
      dsimp only
      rw [haction, hframe]

/-! ## Runs -/

/-- Leave out of a run all events that are not of the flow. The frames of the
flow become what they become in the whole run, and its entry is the same in the
end. -/
theorem connections_are_isolated (K : Helpers) (k : map_key_t) (s : Server) (es : List Event)
    (hinit : s.init = true) (hes : Along (serverStep K) (Undisturbed K k) s es) :
    seen (serverStep K) (output K) (!ofFlow k ·) s es =
        trace (serverStep K) (output K) s (es.filter (ofFlow k)) ∧
      (run (serverStep K) s es).conntrack_map.lookup k =
        (run (serverStep K) s (es.filter (ofFlow k))).conntrack_map.lookup k := by
  have hstart : SameFlow k s s := ⟨hinit, hinit, rfl, rfl, fun _ h => h⟩
  have hskip : ∀ s t e, Undisturbed K k s e → (!ofFlow k e) = true → SameFlow k s t →
      SameFlow k (serverStep K s e) t := by
    intro s t e hgood hk h
    exact h.skip hgood (by simpa using hk)
  have hstep : ∀ s t e, Undisturbed K k s e → (!ofFlow k e) = false → SameFlow k s t →
      SameFlow k (serverStep K s e) (serverStep K t e) := by
    intro s t e hgood hk h
    exact h.step hgood (by simpa using hk)
  have hsee : ∀ s t e, Undisturbed K k s e → (!ofFlow k e) = false → SameFlow k s t →
      output K s e = output K t e := by
    intro s t e hgood hk h
    exact h.output hgood (by simpa using hk)
  have hfilter : es.filter (fun e => !!ofFlow k e) = es.filter (ofFlow k) := by
    simp only [Bool.not_not]
  constructor
  · rw [← hfilter]
    exact seen_without (SameFlow k) hskip hstep hsee hes hstart
  · rw [← hfilter]
    exact (run_without (SameFlow k) hskip hstep hes hstart).entry

/-- The last ACK of another handshake. -/
def strangerAck : Pkt :=
  .segment switch_agent.attacker_ip switch_agent.server_ip 7 80 1 (htonl 2) 0x10 5 TS_START

theorem the_client_is_isolated_from_the_stranger :
    seen (serverStep kernelHelpers) (output kernelHelpers) (!ofFlow clientKey ·)
        (run (serverStep kernelHelpers) Server.boot (clientRun []))
        [.ingress (0, 0) strangerAck, .ingress (0, 0) dataAck] =
      [output kernelHelpers (run (serverStep kernelHelpers) Server.boot (clientRun []))
        (.ingress (0, 0) dataAck)] := by
  have hinit : (run (serverStep kernelHelpers) Server.boot (clientRun [])).init = true :=
    init_ingress kernelHelpers (0, 0) Server.boot handshakeAck
  have hstranger : inView strangerAck = .create 34 56 := by decide
  have hentry := lookup_clientRun_nil
  refine (connections_are_isolated kernelHelpers clientKey _
    [.ingress (0, 0) strangerAck, .ingress (0, 0) dataAck] hinit
    ⟨⟨fun _ => ?_, ?_, ?_⟩, ⟨?_, ?_, fun _ _ => ?_⟩, trivial⟩).1
  · refine congrFun (ingress_seeds (0, 0) strangerAck hinit fun tcp ts hv => ?_) _
    rw [hstranger] at hv
    cases hv
  · exact fun hk => absurd hk (by decide)
  · exact fun hk => absurd hk (by decide)
  · exact fun hk => absurd hk (by decide)
  · exact fun _ hc => absurd hc (by decide)
  · refine isSome_lookup_step kernelHelpers _ _ ?_
    rw [hentry]
    rfl

end edge_cookie
