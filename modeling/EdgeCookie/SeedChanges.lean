-- How often the server changes a seed. `server_in` counts the ACKs of flows
-- that it does not know, and makes every 5000000th of them a seed change; no
-- other frame touches the seeds.
import EdgeCookie.Isolation

namespace edge_cookie

open bytes headers server runs
open server_in (inView initTables DROP_THRESH)

/-- The frame counts as a miss: a later ACK of a flow without an entry. -/
def countsMiss (s : Server) : Event → Bool
  | .ingress _ p =>
    match inView p with
    | .data tcp ts =>
      (s.conntrack_map.lookup (inKey p tcp)).isNone && decide (p.tsecr ts ≠ TS_START)
    | _ => false
  | _ => false

/-- The frame goes back to the gateway as a seed change. -/
def sendsChange (K : Helpers) (s : Server) : Event → Bool
  | .ingress rnd p => (server_in.xdp_router K rnd s p).1 = .XDP_TX
  | _ => false

/-- The frames of both programs. -/
def Event.isFrame : Event → Bool
  | .seed _ _ => false
  | _ => true

/-! ## One frame -/

theorem missBranch_change (rnd : U32 × U32) (s : Server) {p : Pkt} (tcp : Nat) {ts : Nat}
    (h : p.tsecr ts ≠ TS_START) :
    ((server_in.missBranch rnd s p tcp ts).1 = .XDP_TX ↔ ¬ s.dropcnt + 1 < DROP_THRESH) ∧
      (server_in.missBranch rnd s p tcp ts).2.1.dropcnt =
        if s.dropcnt + 1 < DROP_THRESH then s.dropcnt + 1 else 0 := by
  unfold server_in.missBranch
  dsimp only
  rw [if_neg h]
  split
  · rename_i hlt
    exact ⟨iff_of_false nofun (not_not_intro hlt), rfl⟩
  · rename_i hge
    exact ⟨iff_of_true rfl hge, rfl⟩

theorem missBranch_seeds {s : Server} (rnd : U32 × U32) (p : Pkt) (tcp ts : Nat)
    (h : s.dropcnt + 1 < DROP_THRESH) :
    (server_in.missBranch rnd s p tcp ts).2.1.map_seeds = s.map_seeds := by
  unfold server_in.missBranch
  dsimp only
  split <;> rfl

theorem missBranch_start (rnd : U32 × U32) (s : Server) {p : Pkt} {tcp ts : Nat}
    (h : p.tsecr ts = TS_START) :
    server_in.missBranch rnd s p tcp ts = (.XDP_DROP, s, p) := if_pos h

theorem hitBranch_dropcnt (K : Helpers) (s : Server) (p : Pkt) (tcp ts : Nat) (val : map_val_t) :
    (server_in.hitBranch K s p tcp ts val).2.1.dropcnt = s.dropcnt := by
  unfold server_in.hitBranch
  dsimp only
  split <;> rfl

theorem initTables_dropcnt (s : Server) : (initTables s).dropcnt = s.dropcnt := by
  unfold initTables
  split <;> rfl

theorem egress_dropcnt (K : Helpers) (s : Server) (p : Pkt) :
    (server_en.xdp_router K s p).2.1.dropcnt = s.dropcnt := by
  have hrtt : ∀ val tsval, (server_en.updateRtt s val tsval).dropcnt = s.dropcnt := by
    intro val tsval
    unfold server_en.updateRtt
    simp only [apply_ite Server.dropcnt, ite_self]
  rw [server_en.xdp_router_eq]
  cases server_en.enView p with
  | drop => rfl
  | pass => rfl
  | synack tcp ts =>
    dsimp only [server_en.runView]
    unfold server_en.withEntry server_en.synackBranch
    split
    · rfl
    · split
      · rfl
      · rw [convertSynack_server]
  | rst tcp =>
    dsimp only [server_en.runView]
    unfold server_en.withEntry
    split <;> rfl
  | ack tcp ts =>
    dsimp only [server_en.runView]
    unfold server_en.withEntry
    split
    · rfl
    · exact hrtt _ _

/-- What a frame for `server_in` does to the counter, when it counts no miss. -/
structure CountsNothing (s : Server) (x : server_in.xdp_action × Server × Pkt) : Prop where
  action : x.1 ≠ .XDP_TX
  dropcnt : x.2.1.dropcnt = s.dropcnt
  seeds : x.2.1.map_seeds = s.map_seeds

theorem countsNothing_data {K : Helpers} {rnd : U32 × U32} {s : Server} {p : Pkt} {tcp ts : Nat}
    (h : (s.conntrack_map.lookup (inKey p tcp)).isSome = true ∨ p.tsecr ts = TS_START) :
    CountsNothing s (server_in.dataBranch K rnd s p tcp ts) := by
  unfold server_in.dataBranch
  split
  · exact ⟨nofun, hitBranch_dropcnt K s p tcp ts _, hitBranch_seeds K s p tcp ts _⟩
  · rename_i hnone
    rw [hnone] at h
    rcases h with hsome | hstart
    · exact absurd hsome Bool.false_ne_true
    · rw [missBranch_start rnd s hstart]
      exact ⟨nofun, rfl, rfl⟩

/-- The part of `server_in` behind the tables. -/
theorem countsNothing_runView {K : Helpers} {rnd : U32 × U32} {s : Server} {p : Pkt}
    (h : countsMiss s (.ingress rnd p) = false) :
    CountsNothing s (server_in.runView K rnd s p (inView p)) := by
  unfold countsMiss at h
  dsimp only at h
  cases hv : inView p with
  | drop => exact ⟨nofun, rfl, rfl⟩
  | pass => exact ⟨nofun, rfl, rfl⟩
  | syn tcp ts => exact ⟨nofun, rfl, rfl⟩
  | create tcp ts =>
    dsimp only [server_in.runView]
    refine ⟨?_, ?_, ?_⟩
    · unfold server_in.createBranch
      dsimp only
      split <;> exact nofun
    · rw [createBranch_server]
    · rw [createBranch_server]
  | synack tcp =>
    dsimp only [server_in.runView]
    refine ⟨?_, ?_, ?_⟩
    · unfold server_in.synackBranch
      dsimp only
      split <;> exact nofun
    · rw [synackBranch_server]
    · rw [synackBranch_server]
  | data tcp ts =>
    rw [hv] at h
    refine countsNothing_data ?_
    simp only [ne_eq, decide_not, Bool.and_eq_false_imp, Option.isNone_iff_eq_none,
      Bool.not_eq_eq_eq_not, Bool.not_false, decide_eq_true_eq] at h
    cases hl : s.conntrack_map.lookup (inKey p tcp) with
    | none => exact .inr (h hl)
    | some val => exact .inl rfl

theorem countsMiss_initTables (s : Server) (e : Event) :
    countsMiss (initTables s) e = countsMiss s e := by
  unfold countsMiss
  rw [initTables_conntrack]

/-- A miss counts, and at the threshold it is a seed change. -/
theorem ingress_dropcnt (K : Helpers) (rnd : U32 × U32) (s : Server) (p : Pkt) :
    sendsChange K s (.ingress rnd p) =
      (countsMiss s (.ingress rnd p) && !decide (s.dropcnt + 1 < DROP_THRESH)) ∧
      (server_in.xdp_router K rnd s p).2.1.dropcnt =
        if countsMiss s (.ingress rnd p) then
          if s.dropcnt + 1 < DROP_THRESH then s.dropcnt + 1 else 0
        else s.dropcnt := by
  unfold sendsChange
  dsimp only
  rw [server_in.xdp_router_eq, ← countsMiss_initTables, ← initTables_dropcnt s]
  cases hm : countsMiss (initTables s) (.ingress rnd p) with
  | false =>
    obtain ⟨haction, hdropcnt, -⟩ := countsNothing_runView (K := K) hm
    rw [decide_eq_false haction, hdropcnt]
    exact ⟨rfl, rfl⟩
  | true =>
    unfold countsMiss at hm
    dsimp only at hm
    split at hm
    · rename_i tcp ts hv
      simp only [ne_eq, decide_not, Bool.and_eq_true, Option.isNone_iff_eq_none,
        Bool.not_eq_eq_eq_not, Bool.not_true, decide_eq_false_iff_not] at hm
      obtain ⟨hnone, hstart⟩ := hm
      obtain ⟨haction, hdropcnt⟩ := missBranch_change rnd (initTables s) tcp hstart
      have hrun : server_in.runView K rnd (initTables s) p (inView p) =
          server_in.missBranch rnd (initTables s) p tcp ts := by
        rw [hv]
        dsimp only [server_in.runView, server_in.dataBranch]
        rw [hnone]
      rw [hrun]
      refine ⟨?_, hdropcnt⟩
      rw [decide_eq_decide.mpr haction, decide_not, Bool.true_and]
    · exact absurd hm Bool.false_ne_true

/-- One event: a counted miss, which is a seed change at the threshold, or
nothing of the kind. -/
theorem step_dropcnt (K : Helpers) (s : Server) (e : Event) :
    sendsChange K s e = (countsMiss s e && !decide (s.dropcnt + 1 < DROP_THRESH)) ∧
      (serverStep K s e).dropcnt =
        if countsMiss s e then if s.dropcnt + 1 < DROP_THRESH then s.dropcnt + 1 else 0
        else s.dropcnt := by
  cases e with
  | ingress rnd p => exact ingress_dropcnt K rnd s p
  | egress p => exact ⟨rfl, egress_dropcnt K s p⟩
  | seed seed_key new_seed => exact ⟨rfl, rfl⟩

/-- Frames that send no seed change leave the seeds alone. -/
theorem step_seeds {K : Helpers} {s : Server} {e : Event} (hinit : s.init = true)
    (hframe : e.isFrame = true) (h : countsMiss s e = true → s.dropcnt + 1 < DROP_THRESH) :
    (serverStep K s e).map_seeds = s.map_seeds := by
  cases e with
  | seed seed_key new_seed => exact absurd hframe Bool.false_ne_true
  | egress p => exact (egress_keeps K s p).2.1
  | ingress rnd p =>
    change (server_in.xdp_router K rnd s p).2.1.map_seeds = s.map_seeds
    rw [server_in.xdp_router_eq, initTables_of_init hinit]
    cases hm : countsMiss s (.ingress rnd p) with
    | false => exact (countsNothing_runView hm).seeds
    | true =>
      have hbelow := h hm
      unfold countsMiss at hm
      dsimp only at hm
      split at hm
      · rename_i tcp ts hv
        rw [hv]
        dsimp only [server_in.runView]
        unfold server_in.dataBranch
        split
        · exact hitBranch_seeds K s p tcp ts _
        · exact missBranch_seeds rnd p tcp ts hbelow
      · exact absurd hm Bool.false_ne_true

/-! ## Runs -/

section

variable (K : Helpers) {s : Server} (h : s.dropcnt < DROP_THRESH)
include h

theorem dropcnt_lt_step (e : Event) : (serverStep K s e).dropcnt < DROP_THRESH := by
  rw [(step_dropcnt K s e).2]
  split
  · split
    · assumption
    · decide
  · exact h

/-- The counter of one event as a number. -/
theorem dropcnt_step (e : Event) :
    s.dropcnt.toNat + (if countsMiss s e then 1 else 0) =
      DROP_THRESH.toNat * (if sendsChange K s e then 1 else 0) +
        (serverStep K s e).dropcnt.toNat := by
  obtain ⟨hchange, hdropcnt⟩ := step_dropcnt K s e
  rw [hchange, hdropcnt]
  have hlt : s.dropcnt.toNat < 5000000 := h
  have hsum : (s.dropcnt + 1).toNat = s.dropcnt.toNat + 1 := by
    rw [BitVec.toNat_add]
    exact Nat.mod_eq_of_lt (by simp; omega)
  have hthresh : DROP_THRESH.toNat = 5000000 := rfl
  cases countsMiss s e with
  | false => simp
  | true =>
    rw [if_pos rfl, if_pos rfl]
    by_cases hnext : s.dropcnt + 1 < DROP_THRESH
    · rw [if_pos hnext, decide_eq_true hnext, hsum]
      simp
    · have hge : ¬ (s.dropcnt + 1).toNat < 5000000 := hnext
      rw [if_neg hnext, decide_eq_false hnext, hthresh]
      simp
      omega

/-- The misses of a run, and the seed changes among them. -/
theorem dropcnt_run (es : List Event) :
    (run (serverStep K) s es).dropcnt < DROP_THRESH ∧
      s.dropcnt.toNat + (trace (serverStep K) countsMiss s es).count true =
        DROP_THRESH.toNat * (trace (serverStep K) (sendsChange K) s es).count true +
          (run (serverStep K) s es).dropcnt.toNat := by
  induction es generalizing s with
  | nil =>
    refine ⟨h, ?_⟩
    rw [trace, trace, List.count_nil, Nat.mul_zero, Nat.zero_add, Nat.add_zero]
    rfl
  | cons e es ih =>
    obtain ⟨hend, hcount⟩ := ih (dropcnt_lt_step K h e)
    have hone := dropcnt_step K h e
    refine ⟨hend, ?_⟩
    rw [trace, trace, List.count_cons, List.count_cons, run_cons, Nat.mul_add]
    simp only [beq_true]
    omega

/-- Frames with fewer misses than it takes change no seed. -/
theorem seeds_run (es : List Event) (hinit : s.init = true) (hframes : ∀ e ∈ es, e.isFrame = true)
    (hfew : s.dropcnt.toNat + (trace (serverStep K) countsMiss s es).count true <
      DROP_THRESH.toNat) :
    (run (serverStep K) s es).map_seeds = s.map_seeds := by
  induction es generalizing s with
  | nil => rfl
  | cons e es ih =>
    rw [trace, List.count_cons] at hfew
    simp only [beq_true] at hfew
    have hbelow : countsMiss s e = true → s.dropcnt + 1 < DROP_THRESH := by
      intro hm
      rw [hm, if_pos rfl] at hfew
      have hsum : (s.dropcnt + 1).toNat ≤ s.dropcnt.toNat + 1 := by
        rw [BitVec.toNat_add]
        exact Nat.mod_le _ _
      exact BitVec.lt_def.mpr (by omega)
    have hquiet : sendsChange K s e = false := by
      rw [(step_dropcnt K s e).1]
      cases hm : countsMiss s e with
      | false => rfl
      | true => rw [decide_eq_true (hbelow hm)]; rfl
    have hone := dropcnt_step K h e
    rw [hquiet] at hone
    rw [run_cons, ih (dropcnt_lt_step K h e) (init_step e hinit)
      (fun e' he' => hframes e' (List.mem_cons_of_mem e he')) (by simp at hone; omega)]
    exact step_seeds hinit (hframes e List.mem_cons_self) hbelow

end

/-- Over every run the misses are 5000000 for each seed change that the server
sends, and the rest is in the counter. So no frames with fewer misses than that
can change a seed. -/
theorem each_seed_change_costs_five_million_misses (K : Helpers) (s : Server) (es : List Event)
    (hs : s.dropcnt < DROP_THRESH) :
    s.dropcnt.toNat + (trace (serverStep K) countsMiss s es).count true =
        5000000 * (trace (serverStep K) (sendsChange K) s es).count true +
          (run (serverStep K) s es).dropcnt.toNat ∧
      (run (serverStep K) s es).dropcnt.toNat < 5000000 ∧
      (s.init = true → (∀ e ∈ es, e.isFrame = true) →
        s.dropcnt.toNat + (trace (serverStep K) countsMiss s es).count true < 5000000 →
        (run (serverStep K) s es).map_seeds = s.map_seeds) :=
  ⟨(dropcnt_run K hs es).2, (dropcnt_run K hs es).1, seeds_run K hs es⟩

/-- An initialised server that has counted misses, and knows no flow. -/
def countedServer (dropcnt : U32) : Server := { initTables Server.boot with dropcnt }

/-- The last miss before the threshold makes a seed change, and the one before it
changes no seed. -/
theorem the_miss_at_the_threshold_changes_a_seed :
    (trace (serverStep kernelHelpers) (sendsChange kernelHelpers) (countedServer 4999999)
        [.ingress (0, 0) dataAck]).count true = 1 ∧
      (run (serverStep kernelHelpers) (countedServer 4999999)
        [.ingress (0, 0) dataAck]).dropcnt.toNat = 0 ∧
      (run (serverStep kernelHelpers) (countedServer 4999998)
        [.ingress (0, 0) dataAck]).map_seeds = (countedServer 4999998).map_seeds := by
  have hmiss : ∀ n, (trace (serverStep kernelHelpers) countsMiss (countedServer n)
      [.ingress (0, 0) dataAck]).count true = 1 := by
    intro n
    have hnone : (countedServer n).conntrack_map.lookup (inKey dataAck 34) = none := rfl
    have hecho : decide (dataAck.tsecr 56 ≠ TS_START) = true := by decide
    simp only [trace, countsMiss, inView_dataAck]
    rw [hnone, hecho]
    rfl
  obtain ⟨hlast, hbelow, -⟩ := each_seed_change_costs_five_million_misses kernelHelpers
    (countedServer 4999999) [.ingress (0, 0) dataAck] (by decide)
  obtain ⟨-, -, hseeds⟩ := each_seed_change_costs_five_million_misses kernelHelpers
    (countedServer 4999998) [.ingress (0, 0) dataAck] (by decide)
  have hstart : (countedServer 4999999).dropcnt.toNat = 4999999 := rfl
  have hstart' : (countedServer 4999998).dropcnt.toNat = 4999998 := rfl
  rw [hmiss, hstart] at hlast
  refine ⟨by omega, by omega, hseeds rfl (by simp [Event.isFrame]) ?_⟩
  rw [hmiss, hstart']
  decide

end edge_cookie
