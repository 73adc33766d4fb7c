-- The two kinds of entries. A SYN of a known client makes an entry with `delta`
-- 0, and the last ACK of a handshake makes one with the cookie in `delta`;
-- `server_en` tells them apart by `delta` alone. Neither write is checked, so a
-- full table leaves a SYN without an entry.
import EdgeCookie.Handshake
import Mathlib.Data.List.Induction

namespace edge_cookie

open bytes headers server runs
open server_in (InView inView createVal)
open server_en (EnView enView rstVal synackVal ackVal)

/-! ## The table behind a SYN -/

section

variable {s : Server} {k : map_key_t} {p : Pkt} {tcp ts : Nat}

/-- A creating branch does nothing to a full table. -/
theorem inEvent_full (hview : inView p = .syn tcp ts ∨ inView p = .create tcp ts)
    (hfull : ¬ s.conntrack_map.HasRoom k) : inEvent s k p = .other := by
  unfold inEvent
  rcases hview with hv | hv
  · rw [hv]
    exact if_neg fun h => hfull h.2
  · rw [hv]
    exact if_neg fun h => hfull h.2

theorem lookup_ingress_full (K : Helpers) (rnd : U32 × U32)
    (hview : inView p = .syn tcp ts ∨ inView p = .create tcp ts)
    (hfull : ¬ s.conntrack_map.HasRoom k) :
    (server_in.xdp_router K rnd s p).2.1.conntrack_map.lookup k = none := by
  rw [lookup_ingress, inEvent_full hview hfull]
  exact BoundedMap.lookup_of_full hfull

end

/-- A frame of a creating branch passes to the server. -/
theorem creating_passes (K : Helpers) (rnd : U32 × U32) (s : Server) {p : Pkt} {tcp ts : Nat}
    (hview : inView p = .syn tcp ts ∨ inView p = .create tcp ts) :
    (server_in.xdp_router K rnd s p).1 = .XDP_PASS := by
  rw [server_in.xdp_router_eq]
  rcases hview with hv | hv
  · rw [hv]
    rfl
  · obtain ⟨len, -, hparse⟩ := server_in.inView_tcp (congrArg InView.tcpAt hv)
    have hlen := parseHeaders_fits hparse
    rw [hv]
    unfold server_in.runView server_in.createBranch
    dsimp only
    rw [if_neg (by exact Nat.not_lt.mpr (show tcp + 16 ≤ p.len by omega))]

/-- A frame of a creating branch passes as a SYN, and its flow has an entry just
when the table has room for it. -/
theorem a_syn_has_an_entry_iff_the_table_has_room (K : Helpers) (rnd : U32 × U32) (s : Server)
    (p : Pkt) (tcp ts : Nat) (hview : inView p = .syn tcp ts ∨ inView p = .create tcp ts) :
    (server_in.xdp_router K rnd s p).1 = .XDP_PASS ∧
      ((∃ val, (server_in.xdp_router K rnd s p).2.1.conntrack_map.lookup (inKey p tcp) = some val) ↔
        s.conntrack_map.HasRoom (inKey p tcp)) := by
  refine ⟨creating_passes K rnd s hview, ?_⟩
  by_cases hroom : s.conntrack_map.HasRoom (inKey p tcp)
  · refine iff_of_true ?_ hroom
    rw [lookup_ingress]
    rcases hview with hv | hv
    · rw [inEvent_syn hv rfl hroom]
      exact ⟨_, rfl⟩
    · rw [inEvent_create hv rfl hroom]
      exact ⟨_, rfl⟩
  · refine iff_of_false ?_ hroom
    rw [lookup_ingress_full K rnd hview hroom]
    rintro ⟨val, hval⟩
    cases hval

/-- The flow of the client gets its entry in the empty table. -/
theorem the_syn_of_the_client_has_an_entry :
    ∃ val,
      (server_in.xdp_router kernelHelpers (0, 0) Server.boot handshakeAck).2.1.conntrack_map.lookup
        (inKey handshakeAck 34) = some val :=
  (a_syn_has_an_entry_iff_the_table_has_room kernelHelpers (0, 0) Server.boot handshakeAck 34 56
    (.inr inView_handshakeAck)).2.mpr (.inr (by decide))

/-- One flow for each place of the table, to the address 0. -/
def otherFlow (i : Fin MAX_ENTRY) : map_key_t := ⟨BitVec.ofNat 32 i, 0, 0, 0⟩

theorem otherFlow_injective : Function.Injective otherFlow := by
  intro i j h
  have hip : BitVec.ofNat 32 i = BitVec.ofNat 32 j := congrArg map_key_t.src_ip h
  have hnat := congrArg BitVec.toNat hip
  rw [BitVec.toNat_ofNat, BitVec.toNat_ofNat] at hnat
  have hi := i.isLt
  have hj := j.isLt
  unfold MAX_ENTRY at hi hj
  exact Fin.ext (by omega)

theorem handshakeAck_no_otherFlow (i : Fin MAX_ENTRY) : otherFlow i ≠ inKey handshakeAck 34 := by
  intro h
  have hip : (0 : U32) = (inKey handshakeAck 34).dst_ip := congrArg map_key_t.dst_ip h
  revert hip
  decide

/-- A table with all places taken. -/
def fullTable : Conntrack := BoundedMap.fill otherFlow otherFlow_injective {}

/-- In the full table the ACK of the client becomes a SYN without an entry. -/
theorem the_syn_in_a_full_table_has_no_entry :
    inView handshakeAck = .create 34 56 ∧
      (server_in.xdp_router kernelHelpers (0, 0) { Server.boot with conntrack_map := fullTable }
        handshakeAck).1 = .XDP_PASS ∧
      ¬ ∃ val,
        (server_in.xdp_router kernelHelpers (0, 0) { Server.boot with conntrack_map := fullTable }
          handshakeAck).2.1.conntrack_map.lookup (inKey handshakeAck 34) = some val := by
  have hfull : ¬ fullTable.HasRoom (inKey handshakeAck 34) := by
    unfold fullTable
    exact BoundedMap.not_hasRoom_fill otherFlow_injective _ handshakeAck_no_otherFlow
  generalize fullTable = m at hfull ⊢
  refine ⟨inView_handshakeAck, creating_passes _ _ _ (.inr inView_handshakeAck), ?_⟩
  rw [lookup_ingress_full _ _ (.inr inView_handshakeAck) hfull]
  rintro ⟨val, hval⟩
  cases hval

/-! ## Who made an entry -/

/-- The branch that made the entry of a flow: the SYN branch, or the branch for
the last ACK of a handshake, with the SYN-ACKs that came since. -/
inductive Origin where
  | reset
  | proxied (ack_seq : U32) (seqs : List U32)
  deriving DecidableEq, Repr

def Origin.answered (seq : U32) : Origin → Origin
  | .reset => .reset
  | .proxied ack_seq seqs => .proxied ack_seq (seqs ++ [seq])

def originStep (o : Option Origin) : FlowEvent → Option Origin
  | .syn _ _ => some .reset
  | .create ack_seq => some (.proxied ack_seq [])
  | .synack seq _ => o.map (Origin.answered seq)
  | _ => o

/-- Who made the entry of the flow `k`, after the events. -/
def origin (K : Helpers) (k : map_key_t) (es : List Event) : Option Origin :=
  run originStep none (flowTrace K k Server.boot es)

/-- The `delta` of an entry, from its history. -/
def Origin.delta : Origin → U32
  | .reset => 0
  | .proxied ack_seq seqs => seqs.foldl (fun d seq => deltaStep (ntohl seq) d) (ntohl ack_seq)

theorem delta_answered (seq : U32) (o : Origin) :
    (o.answered seq).delta = deltaStep (ntohl seq) o.delta := by
  cases o with
  | reset => rfl
  | proxied ack_seq seqs =>
    exact List.foldl_append

/-- One step keeps `delta` as the history says. -/
theorem delta_step {ip : U32} {entry : Option map_val_t} {o : Option Origin}
    (h : entry.map (·.delta) = o.map Origin.delta) (f : FlowEvent) :
    (flowStep ip entry f).map (·.delta) = (originStep o f).map Origin.delta := by
  cases f with
  | other => exact h
  | syn seed tsecr => rfl
  | create ack_seq => rfl
  | data seed =>
    change (entry.map (refresh ip seed)).map _ = o.map _
    rw [Option.map_map, ← h]
    exact congrArg (Option.map · entry) (funext fun val => refresh_delta ip seed val)
  | synack seq tsval =>
    change (entry.map fun val => synackEntry val seq tsval).map _ =
      (o.map (Origin.answered seq)).map _
    have hleft : ((·.delta) ∘ fun val => synackEntry val seq tsval) =
        deltaStep (ntohl seq) ∘ (·.delta) := funext fun val => synackEntry_delta val seq tsval
    have hright : Origin.delta ∘ Origin.answered seq = deltaStep (ntohl seq) ∘ Origin.delta :=
      funext fun o => delta_answered seq o
    rw [Option.map_map, Option.map_map, hleft, hright, ← Option.map_map, ← Option.map_map, h]
  | ack tsval =>
    change (entry.map fun val => ackVal val tsval).map _ = o.map _
    rw [Option.map_map, ← h]
    rfl

/-- In every state that the server agent reaches, `delta` is what the history
of the entry says. -/
theorem delta_origin (K : Helpers) (k : map_key_t) (es : List Event) :
    ((run (serverStep K) Server.boot es).conntrack_map.lookup k).map (·.delta) =
      (origin K k es).map Origin.delta := by
  rw [lookup_run]
  exact run_related
    (fun (entry : Option map_val_t) (o : Option Origin) => entry.map (·.delta) = o.map Origin.delta)
    (fun _ _ f h => delta_step h f) _ rfl

/-! ## When `delta` is 0 -/

/-- What the SYN-ACKs subtract together. -/
def synackTotal (seqs : List U32) : U32 := seqs.foldl (fun n seq => n + (ntohl seq + 1)) 0

theorem synackTotal_append (seqs : List U32) (seq : U32) :
    synackTotal (seqs ++ [seq]) = synackTotal seqs + (ntohl seq + 1) := by
  unfold synackTotal
  rw [List.foldl_append]
  rfl

theorem deltaStep_ne_zero (isn d : U32) : deltaStep isn d ≠ 0 ↔ d ≠ 0 ∧ d ≠ isn + 1 := by
  unfold deltaStep
  split
  · rename_i h
    simp [h]
  · rename_i h
    refine ⟨fun hne => ⟨h, fun he => hne ?_⟩, fun hne he => hne.2 ?_⟩
    · rw [he]
      grind
    · grind

/-- A `delta` that is not 0 is the number of the ACK without the SYN-ACKs. -/
theorem delta_proxied {ack_seq : U32} (seqs : List U32)
    (h : (Origin.proxied ack_seq seqs).delta ≠ 0) :
    (Origin.proxied ack_seq seqs).delta = ntohl ack_seq - synackTotal seqs := by
  induction seqs using List.reverseRecOn with
  | nil => exact (BitVec.sub_zero _).symm
  | append_singleton seqs seq ih =>
    have hsnoc := delta_answered seq (.proxied ack_seq seqs)
    change (Origin.proxied ack_seq (seqs ++ [seq])).delta = _ at hsnoc
    rw [hsnoc] at h ⊢
    have hd := ((deltaStep_ne_zero _ _).mp h).1
    rw [deltaStep, if_neg hd, ih hd, synackTotal_append]
    grind

/-- `delta` becomes 0 just when the first SYN-ACKs, or none of them, add up to
the number of the ACK. -/
theorem delta_proxied_ne_zero (ack_seq : U32) (seqs : List U32) :
    (Origin.proxied ack_seq seqs).delta ≠ 0 ↔
      ∀ first, first <+: seqs → ntohl ack_seq ≠ synackTotal first := by
  induction seqs using List.reverseRecOn with
  | nil =>
    constructor
    · intro h first hfirst
      rw [List.prefix_nil.mp hfirst]
      exact h
    · intro h
      exact h [] List.nil_prefix
  | append_singleton seqs seq ih =>
    have hsnoc := delta_answered seq (.proxied ack_seq seqs)
    change (Origin.proxied ack_seq (seqs ++ [seq])).delta = _ at hsnoc
    rw [hsnoc, deltaStep_ne_zero, ih]
    constructor
    · rintro ⟨hold, hne⟩ first hfirst
      rcases List.prefix_concat_iff.mp hfirst with rfl | hfirst
      · rw [delta_proxied seqs (ih.mpr hold)] at hne
        rw [synackTotal_append]
        grind
      · exact hold first hfirst
    · intro h
      have hold : ∀ first, first <+: seqs → ntohl ack_seq ≠ synackTotal first :=
        fun first hfirst => h first (hfirst.trans (List.prefix_append _ _))
      refine ⟨hold, ?_⟩
      have hlast := h (seqs ++ [seq]) List.prefix_rfl
      rw [delta_proxied seqs (ih.mpr hold)]
      rw [synackTotal_append] at hlast
      grind

/-! ## The branch of a SYN-ACK -/

/-- `server_en` passes the SYN-ACK on, with the cookie of the entry as its
timestamp. -/
def PassesThrough (K : Helpers) (s : Server) (p : Pkt) (tcp ts : Nat) (val : map_val_t) : Prop :=
  server_en.xdp_router K s p =
    (.TC_ACT_OK,
      { s with conntrack_map := s.conntrack_map.putExist (enKey p tcp) (rstVal val (p.tsval ts)) },
      p.put32 (ts + 2) val.hybrid_cookie)

/-- `server_en` answers the SYN-ACK with an ACK. -/
def Converts (K : Helpers) (s : Server) (p : Pkt) (tcp ts : Nat) (val : map_val_t) : Prop :=
  let val := synackVal val (p.seq tcp) (p.tsval ts)
  server_en.xdp_router K s p =
    server_en.convertSynack K
      { s with conntrack_map := s.conntrack_map.putExist (enKey p tcp) val } p tcp ts

section

variable {K : Helpers} {s : Server} {p : Pkt} {tcp ts : Nat} {val : map_val_t}

theorem passesThrough_iff (hv : enView p = .synack tcp ts)
    (hl : s.conntrack_map.lookup (enKey p tcp) = some val) :
    PassesThrough K s p tcp ts val ↔ val.delta = 0 := by
  unfold PassesThrough
  rw [server_en.xdp_router_synack K hv hl]
  unfold server_en.synackBranch
  by_cases hd : val.delta = 0
  · rw [if_pos hd]
    exact iff_of_true rfl hd
  · rw [if_neg hd]
    refine iff_of_false (fun h => ?_) hd
    exact convertSynack_not_ok _ _ _ _ _ (congrArg Prod.fst h)

theorem converts_iff (hv : enView p = .synack tcp ts)
    (hl : s.conntrack_map.lookup (enKey p tcp) = some val) :
    Converts K s p tcp ts val ↔ val.delta ≠ 0 := by
  unfold Converts
  rw [server_en.xdp_router_synack K hv hl]
  unfold server_en.synackBranch
  by_cases hd : val.delta = 0
  · rw [if_pos hd]
    refine iff_of_false (fun h => ?_) (not_not_intro hd)
    exact convertSynack_not_ok _ _ _ _ _ (congrArg Prod.fst h).symm
  · rw [if_neg hd]
    exact iff_of_true rfl hd

end

/-- In every state that the server agent reaches, `server_en` takes the branch
that fits the origin of the entry, for both kinds of entries, just when no
SYN-ACKs since the last ACK of the handshake add up to the number of this ACK.
None of them add up to it already when the cookie is the largest number. -/
theorem a_synack_takes_the_branch_of_its_entry_iff (K : Helpers) (es : List Event) (p : Pkt)
    (tcp ts : Nat) (k : map_key_t) (val : map_val_t) (hview : enView p = .synack tcp ts)
    (hkey : enKey p tcp = k)
    (hval : (run (serverStep K) Server.boot es).conntrack_map.lookup k = some val) :
    ((PassesThrough K (run (serverStep K) Server.boot es) p tcp ts val ↔
        origin K k es = some .reset) ∧
      (Converts K (run (serverStep K) Server.boot es) p tcp ts val ↔
        ∃ ack_seq seqs, origin K k es = some (.proxied ack_seq seqs))) ↔
      ∀ ack_seq seqs, origin K k es = some (.proxied ack_seq seqs) →
        ∀ first, first <+: seqs → ntohl ack_seq ≠ synackTotal first := by
  have hdelta := delta_origin K k es
  rw [hval] at hdelta
  obtain ⟨o, horigin, ho⟩ := Option.map_eq_some_iff.mp hdelta.symm
  subst hkey
  change o.delta = val.delta at ho
  rw [passesThrough_iff hview hval, converts_iff hview hval, horigin, ← ho]
  cases o with
  | reset =>
    refine iff_of_true ⟨iff_of_true rfl rfl, iff_of_false (not_not_intro rfl) ?_⟩ ?_
    · rintro ⟨ack_seq, seqs, h⟩
      cases h
    · intro ack_seq seqs h
      cases h
  | proxied ack_seq seqs =>
    constructor
    · rintro ⟨-, hconv⟩ _ _ h
      obtain ⟨rfl, rfl⟩ := Origin.proxied.inj (Option.some.inj h)
      exact (delta_proxied_ne_zero _ _).mp (hconv.mpr ⟨_, _, rfl⟩)
    · intro h
      have hne := (delta_proxied_ne_zero _ _).mpr (h _ _ rfl)
      refine ⟨iff_of_false hne ?_, iff_of_true hne ⟨_, _, rfl⟩⟩
      intro hr
      cases hr

/-- The SYN-ACK for the client is answered. -/
theorem the_synack_of_the_client_is_converted :
    Converts kernelHelpers (run (serverStep kernelHelpers) Server.boot (clientRun []))
      serverSynack 34 56 (createVal (htonl 2)) := by
  have horigin : origin kernelHelpers clientKey (clientRun []) = some (.proxied (htonl 2) []) := by
    unfold origin
    rw [flowTrace_clientRun]
    rfl
  refine ((a_synack_takes_the_branch_of_its_entry_iff kernelHelpers (clientRun [])
    serverSynack 34 56 clientKey (createVal (htonl 2)) enView_serverSynack (by decide)
    lookup_clientRun_nil).mpr ?_).2.mpr ⟨_, _, horigin⟩
  intro ack_seq seqs h first hfirst
  rw [horigin] at h
  obtain ⟨rfl, rfl⟩ := Origin.proxied.inj (Option.some.inj h)
  rw [List.prefix_nil.mp hfirst]
  decide

/-- The handshake ACK for the cookie 0xffffffff. -/
def lastCookieAck : Pkt :=
  .segment switch_agent.client_ip switch_agent.server_ip 7 80 1 0 0x10 5 TS_START

/-- The entry of a proxied connection, and the SYN-ACK passes through. -/
theorem the_synack_for_the_last_cookie_passes_through :
    ∃ val,
      (run (serverStep kernelHelpers) Server.boot
        [.ingress (0, 0) lastCookieAck]).conntrack_map.lookup clientKey = some val ∧
      enView serverSynack = .synack 34 56 ∧ enKey serverSynack 34 = clientKey ∧
      origin kernelHelpers clientKey [.ingress (0, 0) lastCookieAck] = some (.proxied 0 []) ∧
      PassesThrough kernelHelpers
        (run (serverStep kernelHelpers) Server.boot [.ingress (0, 0) lastCookieAck])
        serverSynack 34 56 val := by
  have hview : inView lastCookieAck = .create 34 56 := by decide
  have hkey : enKey serverSynack 34 = clientKey := by decide
  have hack : lastCookieAck.ack_seq 34 = 0 := by decide
  have htrace : flowTrace kernelHelpers clientKey Server.boot [.ingress (0, 0) lastCookieAck] =
      [.create 0] := by
    rw [← hack]
    exact flowTrace_connection kernelHelpers hview (by decide) inView_dataAck (by decide) []
  have hval : (run (serverStep kernelHelpers) Server.boot
      [.ingress (0, 0) lastCookieAck]).conntrack_map.lookup clientKey = some (createVal 0) := by
    rw [lookup_run, htrace]
    rfl
  have horigin : origin kernelHelpers clientKey [.ingress (0, 0) lastCookieAck] =
      some (.proxied 0 []) := by
    unfold origin
    rw [htrace]
    rfl
  generalize run (serverStep kernelHelpers) Server.boot
    [.ingress (0, 0) lastCookieAck] = s at hval ⊢
  refine ⟨createVal 0, hval, enView_serverSynack, hkey, horigin, ?_⟩
  rw [← hkey] at hval
  exact (passesThrough_iff enView_serverSynack hval).mpr (by decide)

end edge_cookie
