-- Clients that come back. The gateway puts the address of a checked client into
-- its filter for good, and the cookie of the client into a slot. A SYN takes the
-- cookie out of the slot, and other addresses have the same slot; so the next
-- SYN of the client finds its cookie only when nothing was written there since.
import EdgeCookie.KeyTables

namespace edge_cookie.switch_agent

open bytes headers runs

/-! ## What a frame does to the filter and the cache -/

/-- What the gateway remembers of its clients. -/
structure Memory where
  bf : bloom_filter
  syn_cache : Nat → U32

def memory (a : Agent) : Memory := ⟨a.bf, a.syn_cache⟩

/-- A SYN takes the cookie of an address; an ACK makes the gateway learn an
address and its cookie. -/
inductive Effect where
  | nothing
  | take (ip : U32)
  | learn (ip cookie : U32)
  deriving DecidableEq, Repr

def Memory.after (map_seeds : U16 → U32) (m : Memory) : Effect → Memory
  | .nothing => m
  | .take ip =>
    { m with syn_cache := fun i => if i = cacheIndex map_seeds ip then 0 else m.syn_cache i }
  | .learn ip cookie =>
    { bf := bloom_filter_put m.bf (bytes32 ip)
      syn_cache := fun i => if i = cacheIndex map_seeds ip then cookie else m.syn_cache i }

/-- Where the timestamp option of a SYN is, when the agent finds it. -/
def synTs (o : Options) (p : Pkt) : Option Nat :=
  match synTsOffset o p with
  | none => none
  | some off => if p.len < tcpAt + 20 + off + 10 then none else some (tcpAt + 20 + off)

instance (o : Options) (a : Agent) (p : Pkt) (w : Nat) : Decidable (SynCheck o a p w) :=
  inferInstanceAs (Decidable (_ = _))

/-- The first ACK of an address that passes the SYN cookie check. -/
def firstCheck (o : Options) (a : Agent) (p : Pkt) (w : Nat) : Bool :=
  (ackTs p).any (fun ts => p.tsecr ts = TS_START) && decide (SynCheck o a p w) &&
    !bloom_filter_test a.bf (bytes32 p.saddr)

/-- What an inbound frame does. -/
def effect (o : Options) (a : Agent) (p : Pkt) (w : Nat) : Effect :=
  if o.opt_drop then .nothing
  else if p.h_proto ≠ htons ETH_P_IP ∧ p.protocol ≠ IPPROTO_TCP then .nothing
  else if o.opt_forward then .nothing
  else if p.syn tcpAt && !p.ack tcpAt then
    if (synTs o p).isSome && bloom_filter_test a.bf (bytes32 p.saddr) then .take p.saddr
    else .nothing
  else if p.ack tcpAt && !p.syn tcpAt then
    if firstCheck o a p w then .learn p.saddr (synCookie o a p w) else .nothing
  else .nothing

section

variable (o : Options) (a : Agent) (p : Pkt) (w : Nat)

theorem memory_answerSyn (ts : Nat) : memory (answerSyn o a p w ts).1 = memory a := by
  unfold answerSyn synackOpts
  dsimp only
  split <;> rfl

theorem inboundSyn_none {o : Options} {p : Pkt} (h : synTs o p = none) (r : Agent) (w : Nat) :
    inboundSyn o r p w = (-1, r, p) := by
  unfold inboundSyn
  unfold synTs at h
  split
  · rfl
  · rename_i off hoff
    rw [hoff] at h
    dsimp only at h ⊢
    split at h
    · rename_i hlen
      rw [if_pos hlen]
    · cases h

/-- With the timestamp option at `ts` the filter decides. -/
theorem inboundSyn_some {o : Options} {p : Pkt} {ts : Nat} (h : synTs o p = some ts) (r : Agent)
    (w : Nat) :
    inboundSyn o r p w =
      (let index := cacheIndex r.map_seeds p.saddr
      let q := p.put32 (ts + 6) (r.syn_cache index)
      let x := answerSyn o r p w ts
      if bloom_filter_test r.bf (bytes32 p.saddr) then
        ((forward q).1, { r with syn_cache := fun i => if i = index then 0 else r.syn_cache i },
          (forward q).2)
      else if o.opt_pressure then (-1, x.1, x.2)
      else ((forward x.2).1, x.1, (forward x.2).2)) := by
  unfold inboundSyn
  unfold synTs at h
  split
  · rename_i hoff
    rw [hoff] at h
    cases h
  · rename_i off hoff
    rw [hoff] at h
    dsimp only at h ⊢
    split at h
    · cases h
    · rename_i hlen
      obtain rfl := Option.some.inj h
      rw [if_neg hlen]

theorem memory_inboundSyn :
    memory (inboundSyn o (recordFlow a p w) p w).2.1 =
      (memory a).after a.map_seeds
        (if (synTs o p).isSome && bloom_filter_test a.bf (bytes32 p.saddr) then .take p.saddr
        else .nothing) := by
  cases hts : synTs o p with
  | none =>
    rw [inboundSyn_none hts]
    rfl
  | some ts =>
    rw [inboundSyn_some hts, Option.isSome_some, Bool.true_and]
    dsimp only
    cases hbf : bloom_filter_test a.bf (bytes32 p.saddr) with
    | true =>
      rw [if_pos (by exact hbf)]
      rfl
    | false =>
      rw [if_neg (by exact Bool.eq_false_iff.mp hbf), if_neg Bool.false_ne_true]
      split
      · exact memory_answerSyn o _ p w _
      · exact memory_answerSyn o _ p w _

theorem memory_apacheOpts (ts : Nat) : memory (apacheOpts o a p w ts).1 = memory a := by
  unfold apacheOpts
  dsimp only
  split <;> rfl

theorem memory_inboundAck :
    memory (inboundAck o (recordFlow a p w) p w).2.1 =
      (memory a).after a.map_seeds
        (if firstCheck o a p w then .learn p.saddr (synCookie o a p w) else .nothing) := by
  unfold firstCheck
  cases hts : ackTs p with
  | none =>
    rw [inboundAck_none hts]
    rfl
  | some ts =>
    rw [inboundAck_some hts, Option.any_some]
    dsimp only
    by_cases hstart : p.tsecr ts = TS_START
    · rw [if_pos hstart, decide_eq_true hstart, Bool.true_and]
      by_cases hcheck : SynCheck o a p w
      · rw [if_neg (not_not_intro (by exact hcheck)), decide_eq_true hcheck, Bool.true_and,
          memory_apacheOpts]
        cases hbf : bloom_filter_test a.bf (bytes32 p.saddr) with
        | true =>
          rw [resetFirst_known (recordFlow a p w) _ _ hbf]
          rfl
        | false =>
          rw [resetFirst_new (recordFlow a p w) _ _ hbf]
          rfl
      · rw [if_pos (by exact hcheck), decide_eq_false hcheck]
        rfl
    · rw [if_neg hstart, decide_eq_false hstart, Bool.false_and, Bool.false_and,
        if_neg Bool.false_ne_true]
      split_ifs <;> rfl

/-- An inbound frame changes the memory by its effect. -/
theorem memory_inbound :
    memory (xsknf_packet_processor o a p 0 w).2.1 =
      (memory a).after a.map_seeds (effect o a p w) := by
  unfold xsknf_packet_processor effect
  dsimp only
  split
  · rfl
  · split
    · rfl
    · split
      · rfl
      · rw [if_pos rfl]
        split
        · exact memory_inboundSyn o a p w
        · split
          · exact memory_inboundAck o a p w
          · rfl

end

/-! ## Runs of inbound frames -/

/-- The gateway on one inbound frame, with its worker. -/
def inboundStep (o : Options) (a : Agent) (f : Pkt × Nat) : Agent :=
  (xsknf_packet_processor o a f.1 0 f.2).2.1

/-- What an effect writes to a slot of the cache. -/
def Effect.write (map_seeds : U16 → U32) (index : Nat) : Effect → Option U32
  | .nothing => none
  | .take ip => if index = cacheIndex map_seeds ip then some 0 else none
  | .learn ip cookie => if index = cacheIndex map_seeds ip then some cookie else none

/-- What the frames write to a slot of the cache, in order. -/
def slotWrites (o : Options) (a : Agent) (fs : List (Pkt × Nat)) (index : Nat) : List U32 :=
  (trace (inboundStep o) (fun a f => effect o a f.1 f.2) a fs).filterMap
    (Effect.write a.map_seeds index)

section

variable (o : Options)

theorem map_seeds_inboundStep (a : Agent) (f : Pkt × Nat) :
    (inboundStep o a f).map_seeds = a.map_seeds := (inbound_keys o a f.1 f.2).seeds

theorem map_seeds_inboundRun (a : Agent) (fs : List (Pkt × Nat)) :
    (run (inboundStep o) a fs).map_seeds = a.map_seeds :=
  run_invariant (fun b : Agent => b.map_seeds = a.map_seeds) fs
    (fun b f h => (map_seeds_inboundStep o b f).trans h) rfl

theorem syn_cache_inboundStep (a : Agent) (f : Pkt × Nat) (index : Nat) :
    (inboundStep o a f).syn_cache index =
      ((effect o a f.1 f.2).write a.map_seeds index).getD (a.syn_cache index) := by
  have hmem := congrArg (Memory.syn_cache · index) (memory_inbound o a f.1 f.2)
  refine hmem.trans ?_
  cases effect o a f.1 f.2 with
  | nothing => rfl
  | take ip =>
    dsimp only [Memory.after, Effect.write]
    split <;> rfl
  | learn ip cookie =>
    dsimp only [Memory.after, Effect.write]
    split <;> rfl

/-- After a run a slot has what was written to it last. -/
theorem syn_cache_inboundRun (a : Agent) (fs : List (Pkt × Nat)) (index : Nat) :
    (run (inboundStep o) a fs).syn_cache index =
      (slotWrites o a fs index).getLast?.getD (a.syn_cache index) := by
  refine run_last (Agent.syn_cache · index) (Effect.write a.map_seeds index)
    (fun b : Agent => b.map_seeds = a.map_seeds) (P := fun _ => True) (fun _ _ => trivial)
    (fun b f _ h => (map_seeds_inboundStep o b f).trans h) (fun b f _ h => ?_) rfl
  rw [← h]
  exact syn_cache_inboundStep o b f index

theorem bf_inboundStep (a : Agent) (f : Pkt × Nat) : a.bf.Extends (inboundStep o a f).bf := by
  have hmem := congrArg Memory.bf (memory_inbound o a f.1 f.2)
  change (inboundStep o a f).bf = _ at hmem
  rw [hmem]
  cases effect o a f.1 f.2 with
  | nothing => exact .refl _
  | take ip => exact .refl _
  | learn ip cookie => exact bloom_filter_put_extends _ _

theorem bf_inboundRun (a : Agent) (fs : List (Pkt × Nat)) :
    a.bf.Extends (run (inboundStep o) a fs).bf :=
  run_invariant (fun b : Agent => a.bf.Extends b.bf) fs
    (fun b f h => h.trans (bf_inboundStep o b f)) (.refl _)

/-- Whatever comes, no address leaves the filter. -/
theorem bf_agentStep (a : Agent) (f : Pkt × Nat × Nat) : a.bf.Extends (agentStep o a f).bf := by
  obtain ⟨p, ifindex, w⟩ := f
  by_cases hi : ifindex = 0
  · subst hi
    exact bf_inboundStep o a (p, w)
  · have hbf : (agentStep o a (p, ifindex, w)).bf = a.bf := by
      unfold agentStep xsknf_packet_processor
      dsimp only
      split
      · rfl
      · split
        · rfl
        · split
          · rfl
          · rw [outbound_agent]
            split <;> rfl
    rw [hbf]
    exact .refl _

theorem bf_agentRun (a : Agent) (fs : List (Pkt × Nat × Nat)) :
    a.bf.Extends (run (agentStep o) a fs).bf :=
  run_invariant (fun b : Agent => a.bf.Extends b.bf) fs
    (fun b f h => h.trans (bf_agentStep o b f)) (.refl _)

end

/-! ## The SYN of a client that the gateway knows -/

section

variable {o : Options} {a : Agent} {p : Pkt} {w ts : Nat}

theorem synTs_ge (h : synTs o p = some ts) : 54 ≤ ts := by
  unfold synTs at h
  split at h
  · cases h
  · split at h
    · cases h
    · obtain rfl := Option.some.inj h
      unfold tcpAt
      omega

theorem forward_out_put32 (p : Pkt) (b : Nat) (v : U32) (hb : 34 ≤ b) :
    (forward (p.put32 b v)).1 = (forward p).1 := by
  have hdaddr : (p.put32 b v).daddr = p.daddr := Pkt.u32_put_ne _ _ _ _ _ (by omega)
  unfold forward
  rw [hdaddr]
  split
  · rfl
  · split <;> rfl

/-- The SYN goes on with the word of its slot. -/
theorem processor_take (hdrop : o.opt_drop = false) (hforward : o.opt_forward = false)
    (hp : ¬ (p.h_proto ≠ htons ETH_P_IP ∧ p.protocol ≠ IPPROTO_TCP)) (hsyn : p.syn tcpAt = true)
    (hack : p.ack tcpAt = false) (hts : synTs o p = some ts)
    (hbf : bloom_filter_test a.bf (bytes32 p.saddr) = true) :
    (xsknf_packet_processor o a p 0 w).1 = (forward p).1 ∧
      (xsknf_packet_processor o a p 0 w).2.2.tsecr ts =
        a.syn_cache (cacheIndex a.map_seeds p.saddr) := by
  have hge := synTs_ge hts
  rw [processor_syn hdrop hforward hp hsyn hack, inboundSyn_some hts]
  dsimp only
  rw [if_pos (by exact hbf)]
  refine ⟨forward_out_put32 _ _ _ (by omega), ?_⟩
  dsimp only
  unfold Pkt.tsecr
  rw [(forward_sameFrom _).u32 (by omega), Pkt.u32_put_same]
  rfl

/-- The first ACK of an address that passes the check puts the address into the
filter, and its cookie into the slot. -/
theorem effect_learn (hdrop : o.opt_drop = false) (hforward : o.opt_forward = false)
    (hp : ¬ (p.h_proto ≠ htons ETH_P_IP ∧ p.protocol ≠ IPPROTO_TCP)) (hack : p.ack tcpAt = true)
    (hsyn : p.syn tcpAt = false) (hts : ackTs p = some ts) (hstart : p.tsecr ts = TS_START)
    (hcheck : SynCheck o a p w) (hnew : bloom_filter_test a.bf (bytes32 p.saddr) = false) :
    effect o a p w = .learn p.saddr (synCookie o a p w) := by
  have hfirst : firstCheck o a p w = true := by
    unfold firstCheck
    rw [hts, Option.any_some, decide_eq_true hstart, decide_eq_true hcheck, hnew]
    rfl
  unfold effect
  rw [hdrop, hforward, hack, hsyn, hfirst, if_neg Bool.false_ne_true, if_neg hp,
    if_neg Bool.false_ne_true]
  rfl

end

/-- Behind the frame that the gateway learns an address from, the address is in
the filter and its cookie in the slot. -/
theorem learned {o : Options} {a : Agent} {p : Pkt} {w : Nat} {ip cookie : U32}
    (hsize : 0 < a.bf.vect.size) (h : effect o a p w = .learn ip cookie) :
    bloom_filter_test (xsknf_packet_processor o a p 0 w).2.1.bf (bytes32 ip) = true ∧
      (xsknf_packet_processor o a p 0 w).2.1.syn_cache
        (cacheIndex (xsknf_packet_processor o a p 0 w).2.1.map_seeds ip) = cookie := by
  have hmem := memory_inbound o a p w
  rw [h] at hmem
  have hbf : (xsknf_packet_processor o a p 0 w).2.1.bf = bloom_filter_put a.bf (bytes32 ip) :=
    congrArg Memory.bf hmem
  refine ⟨?_, ?_⟩
  · rw [hbf]
    exact bloom_filter_test_put _ hsize
  · rw [(inbound_keys o a p w).seeds]
    exact (congrArg (Memory.syn_cache · _) hmem).trans (if_pos rfl)

/-- The ACK `p0` of an address passes the SYN cookie check and brings the
address into the filter. Behind any inbound frames `fs`, a SYN `q` of the address
goes on with the cookie of the ACK, which is not 0, just when this cookie is what
was written last to the slot of the address, and is not 0. -/
theorem a_known_client_gets_its_cookie_iff (o : Options) (salt : Nat → Fin 5 → U32)
    (before : List (Pkt × Nat × Nat)) (p0 q : Pkt) (w0 w ts0 ts : Nat) (fs : List (Pkt × Nat))
    (a0 a1 : Agent) (cookie : U32) (hdrop : o.opt_drop = false) (hforward : o.opt_forward = false)
    (ha0 : run (agentStep o) (Agent.boot salt) before = a0)
    (hp0 : ¬ (p0.h_proto ≠ htons ETH_P_IP ∧ p0.protocol ≠ IPPROTO_TCP))
    (hack0 : p0.ack tcpAt = true) (hsyn0 : p0.syn tcpAt = false) (hts0 : ackTs p0 = some ts0)
    (hstart0 : p0.tsecr ts0 = TS_START) (hcheck0 : SynCheck o a0 p0 w0)
    (hcookie : synCookie o a0 p0 w0 = cookie)
    (hnew0 : bloom_filter_test a0.bf (bytes32 p0.saddr) = false)
    (ha1 : (xsknf_packet_processor o a0 p0 0 w0).2.1 = a1)
    (hq : ¬ (q.h_proto ≠ htons ETH_P_IP ∧ q.protocol ≠ IPPROTO_TCP)) (hsyn : q.syn tcpAt = true)
    (hack : q.ack tcpAt = false) (hts : synTs o q = some ts) (hip : q.saddr = p0.saddr) :
    ((xsknf_packet_processor o (run (inboundStep o) a1 fs) q 0 w).1 = (forward q).1 ∧
      (xsknf_packet_processor o (run (inboundStep o) a1 fs) q 0 w).2.2.tsecr ts = cookie ∧
      cookie ≠ 0) ↔
      (slotWrites o a1 fs (cacheIndex a1.map_seeds q.saddr)).getLast?.getD cookie = cookie ∧
        cookie ≠ 0 := by
  subst hcookie
  have hsize : 0 < a0.bf.vect.size := by
    rw [← ha0, (bf_agentRun o _ before).size]
    exact Nat.succ_pos 3145727
  obtain ⟨hknown, hslot⟩ := learned hsize
    (effect_learn hdrop hforward hp0 hack0 hsyn0 hts0 hstart0 hcheck0 hnew0)
  rw [ha1, ← hip] at hknown hslot
  obtain ⟨hout, htsecr⟩ := processor_take (w := w) hdrop hforward hq hsyn hack hts
    ((bf_inboundRun o a1 fs).test hknown)
  rw [htsecr, map_seeds_inboundRun, syn_cache_inboundRun, hslot]
  exact ⟨fun h => h.2, fun h => ⟨hout, h⟩⟩

/-- The ACK of the client for its SYN cookie. -/
def provenAck : Pkt := clientAck 158052239

theorem provenAck_cookie : synCookie {} plainAgent provenAck 0 = 158052239 := by decide +kernel

theorem provenAck_checked : SynCheck {} plainAgent provenAck 0 := by
  unfold SynCheck
  rw [provenAck_cookie]
  decide

/-- The SYN of the client goes on with the cookie. -/
theorem the_syn_of_the_client_gets_its_cookie :
    (xsknf_packet_processor {} (run (inboundStep {})
      (xsknf_packet_processor {} plainAgent provenAck 0 0).2.1 []) clientSyn 0 0).2.2.tsecr 56 =
      158052239 :=
  ((a_known_client_gets_its_cookie_iff {} (fun _ _ => 0) [] provenAck clientSyn 0 0 56
    56 [] plainAgent _ 158052239 rfl rfl rfl (by decide) (by decide) (by decide)
    (by decide) (by decide) provenAck_checked provenAck_cookie (by decide) rfl
    (by decide) (by decide) (by decide) (by decide)
    (by decide)).mpr ⟨rfl, by decide⟩).2.1

/-- The same SYN once more goes on with 0. -/
theorem the_second_syn_of_the_client_gets_no_cookie :
    SynCheck {} plainAgent provenAck 0 ∧ synCookie {} plainAgent provenAck 0 = 158052239 ∧
      bloom_filter_test plainAgent.bf (bytes32 provenAck.saddr) = false ∧
      clientSyn.saddr = provenAck.saddr ∧ synTs {} clientSyn = some 56 ∧
      (xsknf_packet_processor {} (run (inboundStep {})
        (xsknf_packet_processor {} plainAgent provenAck 0 0).2.1 [(clientSyn, 0)]) clientSyn 0
        0).2.2.tsecr 56 = 0 := by
  have hts : synTs {} clientSyn = some 56 := by decide
  have hip : clientSyn.saddr = provenAck.saddr := by decide
  have hnew : bloom_filter_test plainAgent.bf (bytes32 provenAck.saddr) = false := by decide
  have hproto : ¬ (clientSyn.h_proto ≠ htons ETH_P_IP ∧ clientSyn.protocol ≠ IPPROTO_TCP) := by
    decide
  have hsyn : clientSyn.syn tcpAt = true := by decide
  have hack : clientSyn.ack tcpAt = false := by decide
  refine ⟨provenAck_checked, provenAck_cookie, hnew, hip, hts, ?_⟩
  have hts0 : ackTs provenAck = some 56 := by decide
  have hlearn := effect_learn rfl rfl (by decide) (by decide) (by decide) hts0
    (by decide) provenAck_checked hnew
  have hknown := (learned (Nat.succ_pos 3145727) hlearn).1
  rw [← hip] at hknown
  generalize (xsknf_packet_processor {} plainAgent provenAck 0 0).2.1 = a at hknown ⊢
  have htake : effect {} a clientSyn 0 = .take clientSyn.saddr := by
    unfold effect
    rw [hsyn, hack, hts, hknown, if_neg hproto]
    rfl
  rw [(processor_take rfl rfl hproto hsyn hack hts ((bf_inboundRun {} a [(clientSyn, 0)]).test
    hknown)).2, map_seeds_inboundRun, run_cons, run_nil, syn_cache_inboundStep, htake]
  exact congrArg (Option.getD · _) (if_pos rfl)

end edge_cookie.switch_agent
