-- Runs of the server agent: frames that come in, frames that go out, and new
-- seeds. What a run does to the entry of one flow is a run of a small machine
-- that knows this entry alone.
import EdgeCookie.Runs
import EdgeCookie.HybridCookie
import EdgeCookie.ServerEn

namespace edge_cookie

open bytes headers server runs
open server_in (InView inView createVal initTables)
open server_en (EnView enView rstVal synackVal ackVal)

/-! ## Runs of the server agent -/

/-- What can happen at the server agent: a frame for `server_in`, with the
random numbers it may take; a frame for `server_en`; a seed from elsewhere. -/
inductive Event where
  | ingress (rnd : U32 × U32) (p : Pkt)
  | egress (p : Pkt)
  | seed (seed_key : U16) (new_seed : U32)

def serverStep (K : Helpers) (s : Server) : Event → Server
  | .ingress rnd p => (server_in.xdp_router K rnd s p).2.1
  | .egress p => (server_en.xdp_router K s p).2.1
  | .seed seed_key new_seed =>
    { s with map_seeds := fun i => if i = seed_key then new_seed else s.map_seeds i }

/-! ## The machine of one entry -/

/-- What an event is for one flow. -/
inductive FlowEvent where
  | other
  | syn (seed tsecr : U32)
  | create (ack_seq : U32)
  | data (seed : U32)
  | synack (seq tsval : U32)
  | ack (tsval : U32)
  deriving DecidableEq, Repr

/-- The entry after a SYN-ACK of the server. A `delta` of 0 marks a connection
that was reset before. -/
def synackEntry (val : map_val_t) (seq tsval : U32) : map_val_t :=
  if val.delta = 0 then rstVal val tsval else synackVal val seq tsval

/-- The two entries have the same cookie. -/
structure SameCookie (val val' : map_val_t) : Prop where
  hybrid : val'.hybrid_cookie = val.hybrid_cookie
  hash : val'.hash_cookie = val.hash_cookie
  seed : val'.cur_hash_seed = val.cur_hash_seed

theorem sameCookie_synackEntry (val : map_val_t) (seq tsval : U32) :
    SameCookie val (synackEntry val seq tsval) := by
  unfold synackEntry
  split <;> exact ⟨rfl, rfl, rfl⟩

theorem sameCookie_ackVal (val : map_val_t) (tsval : U32) : SameCookie val (ackVal val tsval) :=
  ⟨rfl, rfl, rfl⟩

def flowStep (ip : U32) (entry : Option map_val_t) : FlowEvent → Option map_val_t
  | .other => entry
  | .syn seed tsecr => some (withCookie { hash_cookie := tsecr } (firstCookie tsecr ip seed) seed)
  | .create ack_seq => some (createVal ack_seq)
  | .data seed => entry.map (refresh ip seed)
  | .synack seq tsval => entry.map fun val => synackEntry val seq tsval
  | .ack tsval => entry.map fun val => ackVal val tsval

/-- The seed of an address when `server_in` handles a frame. -/
def seedAt (s : Server) (ip : U32) : U32 := (initTables s).map_seeds (seedKey ip)

/-- What a frame for `server_in` is for the flow `k`. -/
def inEvent (s : Server) (k : map_key_t) (p : Pkt) : FlowEvent :=
  match inView p with
  | .syn tcp ts =>
    if inKey p tcp = k ∧ s.conntrack_map.HasRoom k then .syn (seedAt s k.src_ip) (p.tsecr ts)
    else .other
  | .create tcp _ =>
    if inKey p tcp = k ∧ s.conntrack_map.HasRoom k then .create (p.ack_seq tcp) else .other
  | .data tcp _ => if inKey p tcp = k then .data (seedAt s k.src_ip) else .other
  | _ => .other

/-- What a frame for `server_en` is for the flow `k`. -/
def enEvent (k : map_key_t) (p : Pkt) : FlowEvent :=
  match enView p with
  | .synack tcp ts => if enKey p tcp = k then .synack (p.seq tcp) (p.tsval ts) else .other
  | .ack tcp ts => if enKey p tcp = k then .ack (p.tsval ts) else .other
  | _ => .other

def flowEvent (k : map_key_t) (s : Server) : Event → FlowEvent
  | .ingress _ p => inEvent s k p
  | .egress p => enEvent k p
  | .seed _ _ => .other

section

variable {s : Server} {k : map_key_t} {p : Pkt} {tcp ts : Nat}

theorem inEvent_syn (h : inView p = .syn tcp ts) (hk : inKey p tcp = k)
    (hr : s.conntrack_map.HasRoom k) :
    inEvent s k p = .syn (seedAt s k.src_ip) (p.tsecr ts) := by
  unfold inEvent
  rw [h]
  exact if_pos ⟨hk, hr⟩

theorem inEvent_create (h : inView p = .create tcp ts) (hk : inKey p tcp = k)
    (hr : s.conntrack_map.HasRoom k) : inEvent s k p = .create (p.ack_seq tcp) := by
  unfold inEvent
  rw [h]
  exact if_pos ⟨hk, hr⟩

theorem inEvent_data (h : inView p = .data tcp ts) (hk : inKey p tcp = k) :
    inEvent s k p = .data (seedAt s k.src_ip) := by
  unfold inEvent
  rw [h]
  exact if_pos hk

theorem enEvent_ack (h : enView p = .ack tcp ts) (hk : enKey p tcp = k) :
    enEvent k p = .ack (p.tsval ts) := by
  unfold enEvent
  rw [h]
  exact if_pos hk

theorem enEvent_synack (h : enView p = .synack tcp ts) (hk : enKey p tcp = k) :
    enEvent k p = .synack (p.seq tcp) (p.tsval ts) := by
  unfold enEvent
  rw [h]
  exact if_pos hk

end

/-! ## What the branches of `server_in` do to the table -/

theorem initTables_conntrack (s : Server) : (initTables s).conntrack_map = s.conntrack_map := by
  unfold initTables
  split <;> rfl

theorem createBranch_server (K : Helpers) (s : Server) (p : Pkt) (tcp ts : Nat) :
    (server_in.createBranch K s p tcp ts).2.1 =
      { s with
        conntrack_map := s.conntrack_map.putAny (inKey p tcp) (createVal (p.ack_seq tcp)) } := by
  unfold server_in.createBranch
  dsimp only
  split <;> rfl

theorem missBranch_conntrack (rnd : U32 × U32) (s : Server) (p : Pkt) (tcp ts : Nat) :
    (server_in.missBranch rnd s p tcp ts).2.1.conntrack_map = s.conntrack_map := by
  unfold server_in.missBranch
  dsimp only
  split
  · rfl
  · split <;> rfl

theorem synackBranch_server (K : Helpers) (s : Server) (p : Pkt) (tcp : Nat) :
    (server_in.synackBranch K s p tcp).2.1 = s := by
  unfold server_in.synackBranch
  dsimp only
  split <;> rfl

/-- The seed that a data ACK finds is the one that `refresh` takes. -/
theorem hitBranch_conntrack (K : Helpers) (s : Server) (p : Pkt) (tcp ts : Nat) (val : map_val_t) :
    (server_in.hitBranch K s p tcp ts val).2.1.conntrack_map =
      if val.cur_hash_seed = s.map_seeds (seedKey p.saddr) then s.conntrack_map
      else s.conntrack_map.putExist (inKey p tcp)
        (refresh p.saddr (s.map_seeds (seedKey p.saddr)) val) := by
  unfold server_in.hitBranch
  dsimp only
  rw [refreshVal_eq]
  dsimp only
  by_cases hc : val.cur_hash_seed = s.map_seeds (seedKey p.saddr)
  · rw [decide_eq_false (not_not_intro hc), if_neg Bool.false_ne_true, if_pos hc]
  · rw [decide_eq_true hc, if_pos rfl, if_neg hc]

/-- A data ACK of the flow refreshes its entry, and no other entry. -/
theorem lookup_dataBranch (K : Helpers) (rnd : U32 × U32) (s : Server) (p : Pkt) (tcp ts : Nat)
    (k : map_key_t) :
    (server_in.dataBranch K rnd s p tcp ts).2.1.conntrack_map.lookup k =
      if inKey p tcp = k then
        (s.conntrack_map.lookup k).map (refresh k.src_ip (s.map_seeds (seedKey k.src_ip)))
      else s.conntrack_map.lookup k := by
  unfold server_in.dataBranch
  cases hl : s.conntrack_map.lookup (inKey p tcp) with
  | none =>
    dsimp only
    rw [missBranch_conntrack]
    split
    · rename_i hk
      rw [← hk, hl, Option.map_none]
    · rfl
  | some val =>
    dsimp only
    rw [hitBranch_conntrack]
    by_cases hk : inKey p tcp = k
    · subst hk
      have hip : (inKey p tcp).src_ip = p.saddr := rfl
      rw [if_pos rfl, hl, Option.map_some, hip]
      split
      · rename_i hc
        rw [refresh_same _ hc, hl]
      · rw [BoundedMap.lookup_putExist_same hl]
    · rw [if_neg hk]
      split
      · rfl
      · rw [BoundedMap.lookup_putExist_ne (fun h => hk h.symm)]

theorem missBranch_init (rnd : U32 × U32) (s : Server) (p : Pkt) (tcp ts : Nat) :
    (server_in.missBranch rnd s p tcp ts).2.1.init = s.init := by
  unfold server_in.missBranch
  dsimp only
  split
  · rfl
  · split <;> rfl

theorem hitBranch_init (K : Helpers) (s : Server) (p : Pkt) (tcp ts : Nat) (val : map_val_t) :
    (server_in.hitBranch K s p tcp ts val).2.1.init = s.init := by
  unfold server_in.hitBranch
  dsimp only
  split <;> rfl

/-- After its first frame `server_in` does not fill the tables again. -/
theorem init_ingress (K : Helpers) (rnd : U32 × U32) (s : Server) (p : Pkt) :
    (server_in.xdp_router K rnd s p).2.1.init = true := by
  have hinit : (initTables s).init = true := by
    unfold initTables
    split
    · assumption
    · rfl
  rw [server_in.xdp_router_eq]
  cases inView p with
  | drop => exact hinit
  | pass => exact hinit
  | syn tcp ts => exact hinit
  | create tcp ts =>
    dsimp only [server_in.runView]
    rw [createBranch_server]
    exact hinit
  | synack tcp =>
    dsimp only [server_in.runView]
    rw [synackBranch_server]
    exact hinit
  | data tcp ts =>
    dsimp only [server_in.runView]
    unfold server_in.dataBranch
    split
    · rw [hitBranch_init]
      exact hinit
    · rw [missBranch_init]
      exact hinit

theorem seedAt_of_init {s : Server} (h : s.init = true) (ip : U32) :
    seedAt s ip = s.map_seeds (seedKey ip) := by
  unfold seedAt initTables
  rw [if_pos h]

theorem map_seeds_seed (K : Helpers) (s : Server) (seed_key : U16) (seed : U32) :
    (serverStep K s (.seed seed_key seed)).map_seeds seed_key = seed := if_pos rfl

theorem seedAt_seed {s : Server} (h : s.init = true) (K : Helpers) (ip seed : U32) :
    seedAt (serverStep K s (.seed (seedKey ip) seed)) ip = seed := by
  rw [seedAt_of_init (by exact h), map_seeds_seed]

/-! ## What the branches of `server_en` do to the table -/

/-- A write to the entry that the program found. -/
theorem lookup_update {m : Conntrack} {key k : map_key_t} {val : map_val_t}
    (f : map_val_t → map_val_t) (hl : m.lookup key = some val) :
    (m.putExist key (f val)).lookup k = if key = k then (m.lookup k).map f else m.lookup k := by
  split
  · rename_i hk
    subst hk
    rw [BoundedMap.lookup_putExist_same hl, hl, Option.map_some]
  · rename_i hk
    rw [BoundedMap.lookup_putExist_ne (fun h => hk h.symm)]

theorem convertSynack_server (K : Helpers) (s : Server) (p : Pkt) (tcp ts : Nat) :
    (server_en.convertSynack K s p tcp ts).2.1 = s := by
  unfold server_en.convertSynack
  simp only [apply_ite Prod.snd, apply_ite Prod.fst, ite_self]

theorem convertSynack_not_ok (K : Helpers) (s : Server) (p : Pkt) (tcp ts : Nat) :
    (server_en.convertSynack K s p tcp ts).1 ≠ .TC_ACT_OK := by
  unfold server_en.convertSynack
  dsimp only
  generalize Pkt.memcpy _ 0 _ = p'
  split <;> exact fun h => nomatch h

theorem synackBranch_conntrack (K : Helpers) (s : Server) (p : Pkt) (tcp ts : Nat)
    (val : map_val_t) :
    (server_en.synackBranch K s p tcp ts val).2.1.conntrack_map =
      s.conntrack_map.putExist (enKey p tcp) (synackEntry val (p.seq tcp) (p.tsval ts)) := by
  unfold server_en.synackBranch synackEntry
  dsimp only
  split
  · rfl
  · rw [convertSynack_server]

theorem updateRtt_conntrack (s : Server) (val : map_val_t) (tsval : U32) :
    (server_en.updateRtt s val tsval).conntrack_map = s.conntrack_map := by
  unfold server_en.updateRtt
  simp only [apply_ite Server.conntrack_map, ite_self]

theorem ackBranch_conntrack (s : Server) (p : Pkt) (tcp ts : Nat) (val : map_val_t) :
    (server_en.ackBranch s p tcp ts val).2.1.conntrack_map =
      s.conntrack_map.putExist (enKey p tcp) (ackVal val (p.tsval ts)) := by
  unfold server_en.ackBranch
  dsimp only
  rw [updateRtt_conntrack]

theorem lookup_withEntry {s : Server} {p : Pkt} {tcp : Nat} {k : map_key_t}
    {branch : map_val_t → server_en.tc_action × Server × Pkt} {f : map_val_t → map_val_t}
    (h : ∀ val, (branch val).2.1.conntrack_map = s.conntrack_map.putExist (enKey p tcp) (f val)) :
    (server_en.withEntry s p tcp branch).2.1.conntrack_map.lookup k =
      if enKey p tcp = k then (s.conntrack_map.lookup k).map f else s.conntrack_map.lookup k := by
  unfold server_en.withEntry
  cases hl : s.conntrack_map.lookup (enKey p tcp) with
  | none =>
    dsimp only
    split
    · rename_i hk
      rw [← hk, hl, Option.map_none]
    · rfl
  | some val =>
    dsimp only
    rw [h, lookup_update f hl]

/-- `server_en` writes the table and the round trip times, and nothing else. -/
theorem egress_keeps (K : Helpers) (s : Server) (p : Pkt) :
    (server_en.xdp_router K s p).2.1.init = s.init ∧
      (server_en.xdp_router K s p).2.1.map_seeds = s.map_seeds ∧
      (server_en.xdp_router K s p).2.1.map_cookies = s.map_cookies := by
  have hrtt : ∀ val tsval, (server_en.updateRtt s val tsval).init = s.init ∧
      (server_en.updateRtt s val tsval).map_seeds = s.map_seeds ∧
      (server_en.updateRtt s val tsval).map_cookies = s.map_cookies := by
    intro val tsval
    unfold server_en.updateRtt
    simp only [apply_ite Server.init, apply_ite Server.map_seeds, apply_ite Server.map_cookies,
      ite_self, and_self]
  rw [server_en.xdp_router_eq]
  cases enView p with
  | drop => exact ⟨rfl, rfl, rfl⟩
  | pass => exact ⟨rfl, rfl, rfl⟩
  | synack tcp ts =>
    dsimp only [server_en.runView]
    unfold server_en.withEntry server_en.synackBranch
    split
    · exact ⟨rfl, rfl, rfl⟩
    · split
      · exact ⟨rfl, rfl, rfl⟩
      · rw [convertSynack_server]
        exact ⟨rfl, rfl, rfl⟩
  | rst tcp =>
    dsimp only [server_en.runView]
    unfold server_en.withEntry
    split <;> exact ⟨rfl, rfl, rfl⟩
  | ack tcp ts =>
    dsimp only [server_en.runView]
    unfold server_en.withEntry
    split
    · exact ⟨rfl, rfl, rfl⟩
    · exact hrtt _ _

theorem init_step {K : Helpers} {s : Server} (e : Event) (h : s.init = true) :
    (serverStep K s e).init = true := by
  cases e with
  | ingress rnd p => exact init_ingress K rnd s p
  | egress p => exact (egress_keeps K s p).1.trans h
  | seed seed_key new_seed => exact h

/-! ## One step, seen by one flow -/

/-- An entry that finds room is what the event of its key stores, and no event
for the other flows. -/
theorem lookup_putAny_step (conntrack_map : Conntrack) (key k : map_key_t)
    {val : map_val_t} {event : FlowEvent}
    (hval : key = k → flowStep k.src_ip (conntrack_map.lookup k) event = some val) :
    (conntrack_map.putAny key val).lookup k =
      flowStep k.src_ip (conntrack_map.lookup k)
        (if key = k ∧ conntrack_map.HasRoom k then event else .other) := by
  rw [BoundedMap.lookup_putAny]
  by_cases hk : key = k
  · subst hk
    by_cases hroom : conntrack_map.HasRoom key
    · rw [if_pos ⟨rfl, hroom⟩, if_pos ⟨rfl, hroom⟩, hval rfl]
    · rw [if_neg (fun h => hroom h.2), if_neg (fun h => hroom h.2)]
      rfl
  · rw [if_neg (fun h => hk h.1.symm), if_neg (fun h => hk h.1)]
    rfl

theorem lookup_ingress (K : Helpers) (rnd : U32 × U32) (s : Server) (p : Pkt) (k : map_key_t) :
    (server_in.xdp_router K rnd s p).2.1.conntrack_map.lookup k =
      flowStep k.src_ip (s.conntrack_map.lookup k) (inEvent s k p) := by
  rw [server_in.xdp_router_eq]
  unfold inEvent
  have hroom : (initTables s).conntrack_map = s.conntrack_map := initTables_conntrack s
  cases inView p with
  | drop => exact congrArg (BoundedMap.lookup · k) hroom
  | pass => exact congrArg (BoundedMap.lookup · k) hroom
  | synack tcp =>
    dsimp only [server_in.runView]
    rw [synackBranch_server, hroom]
    rfl
  | syn tcp ts =>
    dsimp only [server_in.runView, server_in.synBranch]
    rw [synVal_eq, hroom]
    refine lookup_putAny_step s.conntrack_map (inKey p tcp) k ?_
    rintro rfl
    rfl
  | create tcp ts =>
    dsimp only [server_in.runView]
    rw [createBranch_server, hroom]
    refine lookup_putAny_step s.conntrack_map (inKey p tcp) k ?_
    rintro rfl
    rfl
  | data tcp ts =>
    dsimp only [server_in.runView]
    rw [lookup_dataBranch, hroom]
    split
    · rfl
    · rfl

theorem lookup_egress (K : Helpers) (s : Server) (p : Pkt) (k : map_key_t) :
    (server_en.xdp_router K s p).2.1.conntrack_map.lookup k =
      flowStep k.src_ip (s.conntrack_map.lookup k) (enEvent k p) := by
  rw [server_en.xdp_router_eq]
  unfold enEvent
  cases enView p with
  | drop => rfl
  | pass => rfl
  | synack tcp ts =>
    dsimp only [server_en.runView]
    rw [lookup_withEntry (synackBranch_conntrack K s p tcp ts)]
    split <;> rfl
  | rst tcp =>
    dsimp only [server_en.runView]
    -- The branch writes back what it found.
    rw [lookup_withEntry (f := id) (fun _ => rfl), Option.map_id]
    split <;> rfl
  | ack tcp ts =>
    dsimp only [server_en.runView]
    rw [lookup_withEntry (ackBranch_conntrack s p tcp ts)]
    split <;> rfl

/-- The table of the server agent follows the machine of each flow. -/
theorem lookup_step (K : Helpers) (k : map_key_t) (s : Server) (e : Event) :
    (serverStep K s e).conntrack_map.lookup k =
      flowStep k.src_ip (s.conntrack_map.lookup k) (flowEvent k s e) := by
  cases e with
  | ingress rnd p => exact lookup_ingress K rnd s p k
  | egress p => exact lookup_egress K s p k
  | seed seed_key new_seed => rfl

/-! ## Whole runs, seen by one flow -/

/-- The events of a run, as the flow `k` sees them. -/
def flowTrace (K : Helpers) (k : map_key_t) (s : Server) (es : List Event) : List FlowEvent :=
  trace (serverStep K) (flowEvent k) s es

theorem lookup_run (K : Helpers) (k : map_key_t) (s : Server) (es : List Event) :
    (run (serverStep K) s es).conntrack_map.lookup k =
      run (flowStep k.src_ip) (s.conntrack_map.lookup k) (flowTrace K k s es) :=
  run_follows (fun s => s.conntrack_map.lookup k) (lookup_step K k) s es

/-- The seeds of a list come in turn, each with a data ACK behind it. -/
def reseed (p : Pkt) (ip : U32) (seeds : List U32) : List Event :=
  seeds.flatMap fun seed => [.seed (seedKey ip) seed, .ingress (0, 0) p]

theorem flowTrace_reseed (K : Helpers) {p : Pkt} {tcp ts : Nat} {k : map_key_t}
    (hp : inView p = .data tcp ts) (hk : inKey p tcp = k) (seeds : List U32) {s : Server}
    (hs : s.init = true) :
    flowTrace K k s (reseed p k.src_ip seeds) = seeds.flatMap fun seed => [.other, .data seed] := by
  induction seeds generalizing s with
  | nil => rfl
  | cons seed seeds ih =>
    change FlowEvent.other :: inEvent (serverStep K s (.seed (seedKey k.src_ip) seed)) k p ::
      flowTrace K k (server_in.xdp_router K _ _ p).2.1 (reseed p k.src_ip seeds) = _
    rw [inEvent_data hp hk, seedAt_seed hs, ih (init_ingress K _ _ p)]
    rfl

/-- A new connection, with the handshake ACK `p0` and data ACKs behind it. -/
theorem flowTrace_connection (K : Helpers) {p0 p : Pkt} {tcp0 ts0 tcp ts : Nat} {k : map_key_t}
    (h0 : inView p0 = .create tcp0 ts0) (hk0 : inKey p0 tcp0 = k)
    (hp : inView p = .data tcp ts) (hk : inKey p tcp = k) (seeds : List U32) :
    flowTrace K k Server.boot (.ingress (0, 0) p0 :: reseed p k.src_ip seeds) =
      .create (p0.ack_seq tcp0) :: seeds.flatMap fun seed => [.other, .data seed] := by
  change inEvent Server.boot k p0 :: flowTrace K k (server_in.xdp_router K _ _ p0).2.1 _ = _
  rw [inEvent_create h0 hk0 (Or.inr (by decide)),
    flowTrace_reseed K hp hk seeds (init_ingress K _ _ p0)]

/-! ## One client -/

def clientKey : map_key_t := ⟨switch_agent.client_ip, switch_agent.server_ip, 7, 80⟩

/-- The ACK that ends the handshake of the client. -/
def handshakeAck : Pkt :=
  .segment switch_agent.client_ip switch_agent.server_ip 7 80 1 (htonl 2) 0x10 5 TS_START

/-- A later ACK of the client. -/
def dataAck : Pkt :=
  .segment switch_agent.client_ip switch_agent.server_ip 7 80 1 (htonl 2) 0x10 5 77

/-- The connection of the client, with one data ACK under each seed. -/
def clientRun (seeds : List U32) : List Event :=
  .ingress (0, 0) handshakeAck :: reseed dataAck clientKey.src_ip seeds

theorem inView_handshakeAck : inView handshakeAck = .create 34 56 := by decide

theorem inView_dataAck : inView dataAck = .data 34 56 := by decide

theorem flowTrace_clientRun (seeds : List U32) :
    flowTrace kernelHelpers clientKey Server.boot (clientRun seeds) =
      .create (htonl 2) :: seeds.flatMap fun seed => [.other, .data seed] := by
  have hack : handshakeAck.ack_seq 34 = htonl 2 := by decide
  rw [← hack]
  exact flowTrace_connection kernelHelpers inView_handshakeAck (by decide) inView_dataAck
    (by decide) seeds

/-- The SYN-ACK of the server for the client. -/
def serverSynack : Pkt :=
  .segment switch_agent.server_ip switch_agent.client_ip 80 7 (htonl 5) (htonl 2) 0x12 9 5

theorem enView_serverSynack : enView serverSynack = .synack 34 56 := by decide

/-- An ACK of the server, behind its SYN-ACK. -/
def serverAck : Pkt :=
  .segment switch_agent.server_ip switch_agent.client_ip 80 7 (htonl 6) (htonl 2) 0x10 11 5

theorem enView_serverAck : enView serverAck = .ack 34 56 := by decide

theorem lookup_clientRun_nil :
    (run (serverStep kernelHelpers) Server.boot (clientRun [])).conntrack_map.lookup clientKey =
      some (createVal (htonl 2)) := by
  rw [lookup_run, flowTrace_clientRun]
  rfl

end edge_cookie
