-- Frames that leave no trace. What the gateway says to a frame depends on its
-- keys, its filter and its cache, and only a few frames change those: a flood of
-- SYNs from unknown addresses, or of ACKs with wrong numbers, changes no answer
-- to any other frame.
import EdgeCookie.Normalise

namespace edge_cookie.switch_agent

open bytes headers runs

/-! ## What the gateway reads of its globals -/

/-- The options for an answer are the same up to the timestamps, which are
written anew for each answer. -/
structure SameTemplates (a b : Agent) : Prop where
  synack : ∀ w tsecr, { a.sa_opts w with ts := { (a.sa_opts w).ts with tsecr := tsecr } } =
    { b.sa_opts w with ts := { (b.sa_opts w).ts with tsecr := tsecr } }
  apache : ∀ w tsval tsecr,
    { a.sa_apache_opts w with
        ts := { (a.sa_apache_opts w).ts with tsval := tsval, tsecr := tsecr } } =
      { b.sa_apache_opts w with
        ts := { (b.sa_apache_opts w).ts with tsval := tsval, tsecr := tsecr } }

/-- Two agents that say the same to every frame. -/
structure Alike (a b : Agent) : Prop where
  salt : ∀ w, (a.flows w).salt = (b.flows w).salt
  templates : SameTemplates a b
  keys : KeysKept b a
  memory : memory a = memory b

theorem SameTemplates.trans {a b c : Agent} (h1 : SameTemplates a b) (h2 : SameTemplates b c) :
    SameTemplates a c :=
  ⟨fun w tsecr => (h1.synack w tsecr).trans (h2.synack w tsecr),
    fun w tsval tsecr => (h1.apache w tsval tsecr).trans (h2.apache w tsval tsecr)⟩

theorem SameTemplates.symm {a b : Agent} (h : SameTemplates a b) : SameTemplates b a :=
  ⟨fun w tsecr => (h.synack w tsecr).symm, fun w tsval tsecr => (h.apache w tsval tsecr).symm⟩

theorem Alike.refl (a : Agent) : Alike a a :=
  ⟨fun _ => rfl, ⟨fun _ _ => rfl, fun _ _ _ => rfl⟩, .refl a, rfl⟩

section

variable {a b : Agent} (h : Alike a b)
include h

theorem Alike.bf : a.bf = b.bf := congrArg Memory.bf h.memory

theorem Alike.syn_cache : a.syn_cache = b.syn_cache := congrArg Memory.syn_cache h.memory

/-- The block of the worker is filled anew, with the same salt. -/
theorem Alike.flow (p : Pkt) (w : Nat) :
    (recordFlow a p w).flows w = (recordFlow b p w).flows w := by
  rw [recordFlow_self, recordFlow_self, h.salt w]

theorem Alike.synCookie (o : Options) (p : Pkt) (w : Nat) :
    synCookie o a p w = synCookie o b p w := by
  unfold switch_agent.synCookie
  rw [h.salt w]

theorem Alike.firstCheck (o : Options) (p : Pkt) (w : Nat) :
    firstCheck o a p w = firstCheck o b p w := by
  have hcheck : SynCheck o a p w ↔ SynCheck o b p w := by
    unfold SynCheck
    rw [h.synCookie]
  unfold switch_agent.firstCheck
  rw [h.bf, decide_eq_decide.mpr hcheck]

theorem Alike.effect (o : Options) (p : Pkt) (w : Nat) : effect o a p w = effect o b p w := by
  unfold switch_agent.effect
  rw [h.bf, h.synCookie, h.firstCheck]

end

/-! ## The options of the workers -/

section

variable (o : Options) (a : Agent) (p : Pkt) (w : Nat)

theorem templates_synackOpts (ts : Nat) : SameTemplates (synackOpts o a p w ts).1 a := by
  refine ⟨fun i tsecr => ?_, fun i tsval tsecr => ?_⟩
  · unfold synackOpts
    dsimp only
    split
    · dsimp only
      split
      · rename_i hi
        rw [hi]
      · rfl
    · rfl
  · unfold synackOpts
    dsimp only
    split <;> rfl

theorem templates_inboundSyn : SameTemplates (inboundSyn o (recordFlow a p w) p w).2.1 a := by
  have hsame : SameTemplates (recordFlow a p w) a := ⟨fun _ _ => rfl, fun _ _ _ => rfl⟩
  cases hts : synTs o p with
  | none =>
    rw [inboundSyn_none hts]
    exact hsame
  | some ts =>
    rw [inboundSyn_some hts]
    dsimp only
    split_ifs
    · exact ⟨fun _ _ => rfl, fun _ _ _ => rfl⟩
    · exact (templates_synackOpts o (recordFlow a p w) p w ts).trans hsame
    · exact (templates_synackOpts o (recordFlow a p w) p w ts).trans hsame

theorem templates_apacheOpts (ts : Nat) : SameTemplates (apacheOpts o a p w ts).1 a := by
  refine ⟨fun i tsecr => ?_, fun i tsval tsecr => ?_⟩
  · unfold apacheOpts
    dsimp only
    split <;> rfl
  · unfold apacheOpts
    dsimp only
    split
    · dsimp only
      split
      · rename_i hi
        rw [hi]
      · rfl
    · rfl

theorem templates_resetFirst (cookie : U32) : SameTemplates (resetFirst a p cookie).1 a := by
  unfold resetFirst
  split <;> exact ⟨fun _ _ => rfl, fun _ _ _ => rfl⟩

theorem templates_inboundAck : SameTemplates (inboundAck o (recordFlow a p w) p w).2.1 a := by
  have hsame : SameTemplates (recordFlow a p w) a := ⟨fun _ _ => rfl, fun _ _ _ => rfl⟩
  cases hts : ackTs p with
  | none =>
    rw [inboundAck_none hts]
    exact hsame
  | some ts =>
    rw [inboundAck_some hts]
    dsimp only
    split_ifs
    · exact hsame
    · exact ((templates_apacheOpts o _ _ w ts).trans (templates_resetFirst _ p _)).trans hsame
    · exact hsame
    · exact hsame
    · exact hsame
    · exact hsame

/-- No frame changes more of the options than their timestamps. -/
theorem templates_agentStep (f : Pkt × Nat × Nat) : SameTemplates (agentStep o a f) a := by
  obtain ⟨p, ifindex, w⟩ := f
  rcases agentStep_opts o a p ifindex w with hsyn | hack | ⟨hsa, hapache⟩
  · rw [hsyn]
    exact templates_inboundSyn o a p w
  · rw [hack]
    exact templates_inboundAck o a p w
  · exact ⟨fun i tsecr => by rw [hsa], fun i tsval tsecr => by rw [hapache]⟩

end

/-! ## The answers -/

/-- What the gateway says to a frame: the interface, and the frame as it goes
out. An outbound SYN gets a timestamp from the block of the worker, which the
last inbound frame has filled, so its frame is left out. -/
def answer (o : Options) (a : Agent) : Pkt × Nat × Nat → Int × Option Pkt
  | (p, ifindex, w) =>
    let x := xsknf_packet_processor o a p ifindex w
    (x.1, if ifindex ≠ 0 ∧ p.syn tcpAt = true ∧ p.ack tcpAt = false then none else some x.2.2)

theorem SameTemplates.synackOpts {a b : Agent} (h : SameTemplates a b) (o : Options) (p : Pkt)
    (w ts : Nat) :
    (synackOpts o a p w ts).2 = (synackOpts o b p w ts).2 := by
  unfold switch_agent.synackOpts
  dsimp only
  split
  · exact congrArg (fun opt : common_synack_opt => replaceOpts _ tcpAt opt.bytes) (h.synack w _)
  · rfl

theorem SameTemplates.apacheOpts {a b : Agent} (h : SameTemplates a b) (o : Options) (p : Pkt)
    (w ts : Nat) :
    (apacheOpts o a p w ts).2 = (apacheOpts o b p w ts).2 := by
  unfold switch_agent.apacheOpts
  dsimp only
  rw [h.apache w]
  split <;> rfl

section

variable {a b : Agent} (h : Alike a b) (o : Options) (p : Pkt) (w : Nat)
include h

theorem Alike.answerSyn (ts : Nat) :
    (answerSyn o (recordFlow a p w) p w ts).2 = (answerSyn o (recordFlow b p w) p w ts).2 := by
  have htemplates : SameTemplates (recordFlow a p w) (recordFlow b p w) :=
    ⟨h.templates.synack, h.templates.apache⟩
  unfold switch_agent.answerSyn
  dsimp only
  rw [synackOpts_flows, synackOpts_flows, h.flow p w, htemplates.synackOpts]

theorem Alike.inboundSyn :
    (inboundSyn o (recordFlow a p w) p w).1 = (inboundSyn o (recordFlow b p w) p w).1 ∧
      (inboundSyn o (recordFlow a p w) p w).2.2 = (inboundSyn o (recordFlow b p w) p w).2.2 := by
  cases hts : synTs o p with
  | none =>
    rw [inboundSyn_none hts, inboundSyn_none hts]
    exact ⟨rfl, rfl⟩
  | some ts =>
    have hbf : (recordFlow a p w).bf = (recordFlow b p w).bf := h.bf
    have hseeds : (recordFlow a p w).map_seeds = (recordFlow b p w).map_seeds := h.keys.seeds
    have hcache : (recordFlow a p w).syn_cache = (recordFlow b p w).syn_cache := h.syn_cache
    rw [inboundSyn_some hts, inboundSyn_some hts]
    dsimp only
    rw [hbf, hseeds, hcache, h.answerSyn o p w ts]
    split_ifs <;> exact ⟨rfl, rfl⟩

theorem Alike.resetFirst (cookie : U32) :
    (resetFirst (recordFlow a p w) p cookie).2 = (resetFirst (recordFlow b p w) p cookie).2 := by
  have hbf : (recordFlow a p w).bf = (recordFlow b p w).bf := h.bf
  unfold switch_agent.resetFirst
  rw [hbf]
  split <;> rfl

theorem Alike.inboundAck :
    (inboundAck o (recordFlow a p w) p w).1 = (inboundAck o (recordFlow b p w) p w).1 ∧
      (inboundAck o (recordFlow a p w) p w).2.2 = (inboundAck o (recordFlow b p w) p w).2.2 := by
  cases hts : ackTs p with
  | none =>
    rw [inboundAck_none hts, inboundAck_none hts]
    exact ⟨rfl, rfl⟩
  | some ts =>
    have hrecord : SameTemplates (recordFlow a p w) (recordFlow b p w) :=
      ⟨h.templates.synack, h.templates.apache⟩
    have htemplates : ∀ cookie,
        SameTemplates (switch_agent.resetFirst (recordFlow a p w) p cookie).1
        (switch_agent.resetFirst (recordFlow b p w) p cookie).1 := by
      intro cookie
      exact ((templates_resetFirst (recordFlow a p w) p cookie).trans hrecord).trans
        (templates_resetFirst (recordFlow b p w) p cookie).symm
    rw [inboundAck_some hts, inboundAck_some hts]
    dsimp only
    rw [h.synCookie, h.keys.seeds, h.keys.duration, h.resetFirst p w, (htemplates _).apacheOpts]
    split_ifs <;> exact ⟨rfl, rfl⟩

end

/-! ## Frames from the side of the server -/

theorem forward_out {p q : Pkt} (h : q.daddr = p.daddr) : (forward q).1 = (forward p).1 := by
  unfold forward
  rw [h]
  split
  · rfl
  · split <;> rfl

section

variable (a b : Agent) (p : Pkt) (w : Nat)

theorem withOutboundCookie_daddr {ts : Nat} (hts : ackTs p = some ts) :
    (withOutboundCookie a p w ts).daddr = p.daddr := by
  have hin := ackTs_inside hts
  unfold withOutboundCookie Pkt.daddr tcpAt at *
  rw [Pkt.u32_put_ne _ _ _ _ _ (by omega), Pkt.u32_put_ne _ _ _ _ _ (by omega)]

/-- Where the frame goes is not a matter of the globals. -/
theorem outbound_out : (outbound a p w).1 = (outbound b p w).1 := by
  cases hece : p.ece tcpAt with
  | true =>
    unfold outbound
    simp only [hece, if_true]
  | false =>
    cases hsyn : p.syn tcpAt && !p.ack tcpAt with
    | false =>
      unfold outbound
      simp only [hece, hsyn, Bool.false_eq_true, if_false]
    | true =>
      cases hts : ackTs p with
      | none => rw [outbound_syn_none hece hsyn hts, outbound_syn_none hece hsyn hts]
      | some ts =>
        rw [outbound_syn_some hece hsyn hts, outbound_syn_some hece hsyn hts]
        dsimp only
        rw [forward_out (withOutboundCookie_daddr a p w hts),
          forward_out (withOutboundCookie_daddr b p w hts)]

/-- Only a SYN takes something from them. -/
theorem outbound_frame (hsyn : ¬ (p.syn tcpAt = true ∧ p.ack tcpAt = false)) :
    (outbound a p w).2.2 = (outbound b p w).2.2 := by
  have hplain : (p.syn tcpAt && !p.ack tcpAt) = false := by
    simpa using hsyn
  unfold outbound
  dsimp only
  rw [hplain]
  split <;> rfl

end

/-! ## One frame -/

theorem processor_foreign {o : Options} {p : Pkt}
    (hp : p.h_proto ≠ htons ETH_P_IP ∧ p.protocol ≠ IPPROTO_TCP) (a : Agent) (ifindex w : Nat) :
    xsknf_packet_processor o a p ifindex w = (-1, a, p) := by
  unfold xsknf_packet_processor
  dsimp only
  rw [if_pos hp, ite_self]

section

variable {a b : Agent} (h : Alike a b) (o : Options)
include h

/-- Where the two agents send a frame, and what they make of it. -/
theorem Alike.processor (p : Pkt) (ifindex w : Nat) :
    (xsknf_packet_processor o a p ifindex w).1 = (xsknf_packet_processor o b p ifindex w).1 ∧
      (¬ (ifindex ≠ 0 ∧ p.syn tcpAt = true ∧ p.ack tcpAt = false) →
        (xsknf_packet_processor o a p ifindex w).2.2 =
          (xsknf_packet_processor o b p ifindex w).2.2) := by
  by_cases hdrop : o.opt_drop = true
  · rw [processor_drop hdrop, processor_drop hdrop]
    exact ⟨rfl, fun _ => rfl⟩
  by_cases hp : p.h_proto ≠ htons ETH_P_IP ∧ p.protocol ≠ IPPROTO_TCP
  · rw [processor_foreign hp, processor_foreign hp]
    exact ⟨rfl, fun _ => rfl⟩
  have hdrop' := Bool.eq_false_iff.mpr hdrop
  by_cases hforward : o.opt_forward = true
  · rw [processor_forward hdrop' hforward hp, processor_forward hdrop' hforward hp]
    exact ⟨rfl, fun _ => rfl⟩
  have hforward' := Bool.eq_false_iff.mpr hforward
  by_cases hi : ifindex = 0
  · subst hi
    rw [processor_inbound hdrop' hforward' hp, processor_inbound hdrop' hforward' hp]
    split
    · exact ⟨(h.inboundSyn o p w).1, fun _ => (h.inboundSyn o p w).2⟩
    · split
      · exact ⟨(h.inboundAck o p w).1, fun _ => (h.inboundAck o p w).2⟩
      · exact ⟨rfl, fun _ => rfl⟩
  · rw [processor_outbound hdrop' hforward' hp hi, processor_outbound hdrop' hforward' hp hi]
    exact ⟨outbound_out a b p w, fun hsyn => outbound_frame a b p w fun hs => hsyn ⟨hi, hs⟩⟩

/-- The two agents say the same. -/
theorem Alike.answer (f : Pkt × Nat × Nat) : answer o a f = answer o b f := by
  obtain ⟨p, ifindex, w⟩ := f
  obtain ⟨hout, hframe⟩ := h.processor o p ifindex w
  unfold switch_agent.answer
  dsimp only
  rw [hout]
  split
  · rfl
  · rename_i hsyn
    rw [hframe hsyn]

/-- A frame from the side of the server changes the same in both. -/
theorem Alike.outboundStep (p : Pkt) {ifindex : Nat} (hi : ifindex ≠ 0) (w : Nat) :
    KeysKept (agentStep o b (p, ifindex, w)) (agentStep o a (p, ifindex, w)) ∧
      switch_agent.memory (agentStep o a (p, ifindex, w)) =
        switch_agent.memory (agentStep o b (p, ifindex, w)) := by
  unfold agentStep
  by_cases hdrop : o.opt_drop = true
  · rw [processor_drop hdrop, processor_drop hdrop]
    exact ⟨h.keys, h.memory⟩
  by_cases hp : p.h_proto ≠ htons ETH_P_IP ∧ p.protocol ≠ IPPROTO_TCP
  · rw [processor_foreign hp, processor_foreign hp]
    exact ⟨h.keys, h.memory⟩
  have hdrop' := Bool.eq_false_iff.mpr hdrop
  by_cases hforward : o.opt_forward = true
  · rw [processor_forward hdrop' hforward hp, processor_forward hdrop' hforward hp]
    exact ⟨h.keys, h.memory⟩
  have hforward' := Bool.eq_false_iff.mpr hforward
  rw [processor_outbound hdrop' hforward' hp hi, processor_outbound hdrop' hforward' hp hi,
    outbound_agent, outbound_agent]
  split
  · refine ⟨⟨?_, ?_, rfl⟩, h.memory⟩
    · dsimp only
      rw [h.keys.seeds]
    · dsimp only
      rw [h.keys.cookies]
  · exact ⟨h.keys, h.memory⟩

/-- And both are alike afterwards. -/
theorem Alike.step (f : Pkt × Nat × Nat) : Alike (agentStep o a f) (agentStep o b f) := by
  have htemplates : SameTemplates (agentStep o a f) (agentStep o b f) :=
    ((templates_agentStep o a f).trans h.templates).trans (templates_agentStep o b f).symm
  obtain ⟨p, ifindex, w⟩ := f
  have hsalt : ∀ i, ((agentStep o a (p, ifindex, w)).flows i).salt =
      ((agentStep o b (p, ifindex, w)).flows i).salt := by
    intro i
    exact ((processor_salt ifindex i).trans (h.salt i)).trans (processor_salt ifindex i).symm
  by_cases hi : ifindex = 0
  · subst hi
    have ha := inbound_keys o a p w
    have hb := inbound_keys o b p w
    refine ⟨hsalt, htemplates, ⟨?_, ?_, ?_⟩, ?_⟩
    · exact (ha.seeds.trans h.keys.seeds).trans hb.seeds.symm
    · exact (ha.cookies.trans h.keys.cookies).trans hb.cookies.symm
    · exact (ha.duration.trans h.keys.duration).trans hb.duration.symm
    · refine (memory_inbound o a p w).trans (Eq.trans ?_ (memory_inbound o b p w).symm)
      rw [h.memory, h.keys.seeds, h.effect o p w]
  · obtain ⟨hkeys, hmemory⟩ := h.outboundStep o p hi w
    exact ⟨hsalt, htemplates, hkeys, hmemory⟩

end

/-! ## Runs -/

/-- The gateway keeps nothing of the frame: it comes from the side of the
clients, and is neither a SYN of a known address nor the first ACK of an address
with the right cookie. -/
def Forgotten (o : Options) (a : Agent) : Pkt × Nat × Nat → Prop
  | (p, ifindex, w) => ifindex = 0 ∧ effect o a p w = .nothing

instance (o : Options) (a : Agent) (f : Pkt × Nat × Nat) : Decidable (Forgotten o a f) :=
  inferInstanceAs (Decidable (_ ∧ _))

theorem alike_of_forgotten {o : Options} {a : Agent} {f : Pkt × Nat × Nat} (h : Forgotten o a f) :
    Alike (agentStep o a f) a := by
  have htemplates := templates_agentStep o a f
  obtain ⟨p, ifindex, w⟩ := f
  obtain ⟨rfl, heffect⟩ := h
  refine ⟨fun i => processor_salt 0 i, htemplates, inbound_keys o a p w, ?_⟩
  have hmemory := memory_inbound o a p w
  rw [heffect] at hmemory
  exact hmemory

theorem Alike.trans {a b c : Agent} (h1 : Alike a b) (h2 : Alike b c) : Alike a c :=
  ⟨fun w => (h1.salt w).trans (h2.salt w), h1.templates.trans h2.templates, h2.keys.trans h1.keys,
    h1.memory.trans h2.memory⟩

/-- A frame with a mark, which the gateway does not see. -/
def markedStep (o : Options) (a : Agent) (f : Bool × Pkt × Nat × Nat) : Agent := agentStep o a f.2

/-- Mark any frames of a run that the gateway forgets. Without them every other
frame gets the answer that it gets among them, and the gateway has the same keys,
filter and cache in the end. -/
theorem forgotten_frames_change_no_answer (o : Options) (a : Agent)
    (fs : List (Bool × Pkt × Nat × Nat))
    (hforgotten : Along (markedStep o) (fun a f => f.1 = true → Forgotten o a f.2) a fs) :
    seen (markedStep o) (fun a f => answer o a f.2) Prod.fst a fs =
        trace (markedStep o) (fun a f => answer o a f.2) a (fs.filter (!·.1)) ∧
      KeysKept (run (markedStep o) a (fs.filter (!·.1))) (run (markedStep o) a fs) ∧
      memory (run (markedStep o) a fs) = memory (run (markedStep o) a (fs.filter (!·.1))) := by
  have hskip : ∀ a b (f : Bool × Pkt × Nat × Nat), (f.1 = true → Forgotten o a f.2) → f.1 = true →
      Alike a b → Alike (markedStep o a f) b := by
    intro a b f hf hmark h
    exact (alike_of_forgotten (hf hmark)).trans h
  have hstep : ∀ a b (f : Bool × Pkt × Nat × Nat), (f.1 = true → Forgotten o a f.2) → f.1 = false →
      Alike a b → Alike (markedStep o a f) (markedStep o b f) := by
    intro a b f _ _ h
    exact h.step o f.2
  have halike : Alike (run (markedStep o) a fs) (run (markedStep o) a (fs.filter (!·.1))) :=
    run_without Alike hskip hstep hforgotten (.refl a)
  refine ⟨?_, halike.keys, halike.memory⟩
  exact seen_without Alike hskip hstep (fun a b f _ _ h => h.answer o f.2) hforgotten (.refl a)

/-- A SYN of an address that the gateway does not know. -/
def attackerSyn : Pkt := .segment attacker_ip server_ip 7 80 1 0 0x02 5 0

theorem attackerSyn_changes_no_answer :
    seen (markedStep {}) (fun a f => answer {} a f.2) Prod.fst plainAgent
        [(true, attackerSyn, 0, 0), (false, provenAck, 0, 0)] =
      [answer {} plainAgent (provenAck, 0, 0)] := by
  have hsyn : Forgotten {} plainAgent (attackerSyn, 0, 0) := ⟨rfl, by decide⟩
  refine (forgotten_frames_change_no_answer {} plainAgent
    [(true, attackerSyn, 0, 0), (false, provenAck, 0, 0)] ⟨fun _ => hsyn, ?_, trivial⟩).1
  exact fun hmark => absurd hmark Bool.false_ne_true

end edge_cookie.switch_agent
