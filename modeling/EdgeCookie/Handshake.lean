-- Handshakes with retransmissions. The handshake ACK makes the entry anew each
-- time. The SYN-ACK is not so harmless: each one subtracts the initial sequence
-- number of the server once more.
import EdgeCookie.ServerRun
import Mathlib.Logic.Function.Iterate

namespace edge_cookie

open bytes headers server runs
open server_in (InView inView createVal)
open server_en (EnView enView rstVal synackVal)

/-! ## Repeated SYN-ACKs -/

/-- What a SYN-ACK with the number `isn` makes of `delta`. -/
def deltaStep (isn delta : U32) : U32 := if delta = 0 then 0 else delta - isn - 1

theorem synackEntry_delta (val : map_val_t) (seq tsval : U32) :
    (synackEntry val seq tsval).delta = deltaStep (ntohl seq) val.delta := by
  unfold synackEntry deltaStep
  split
  · assumption
  · rfl

theorem deltaStep_iterate_zero (isn : U32) (n : Nat) : (deltaStep isn)^[n] 0 = 0 := by
  induction n with
  | zero => rfl
  | succ n ih => rw [Function.iterate_succ_apply, deltaStep, if_pos rfl, ih]

/-- As long as `delta` does not become 0, each SYN-ACK subtracts the same. -/
theorem deltaStep_iterate_sub (isn a : U32) (n : Nat)
    (h : ∀ j < n, a ≠ BitVec.ofNat 32 j * (isn + 1)) :
    (deltaStep isn)^[n] a = a - BitVec.ofNat 32 n * (isn + 1) := by
  induction n with
  | zero => simp
  | succ n ih =>
    have hne : a - BitVec.ofNat 32 n * (isn + 1) ≠ 0 := by
      have := h n (Nat.lt_succ_self n)
      grind
    have hn : BitVec.ofNat 32 (n + 1) = BitVec.ofNat 32 n + 1 := BitVec.ofNat_add n 1
    rw [Function.iterate_succ_apply', ih (fun j hj => h j (Nat.lt_succ_of_lt hj)), deltaStep,
      if_neg hne, hn]
    grind

/-- Once `delta` is 0 it stays 0. -/
theorem deltaStep_iterate_hit (isn a : U32) (n j : Nat) (hj : j < n)
    (h : a = BitVec.ofNat 32 j * (isn + 1)) : (deltaStep isn)^[n] a = 0 := by
  -- The first such `j` is where `delta` becomes 0.
  induction j using Nat.strongRecOn with
  | ind j ih =>
    by_cases hex : ∃ i < j, a = BitVec.ofNat 32 i * (isn + 1)
    · obtain ⟨i, hi, hai⟩ := hex
      exact ih i hi (Nat.lt_trans hi hj) hai
    · have hz : (deltaStep isn)^[j] a = 0 := by
        rw [deltaStep_iterate_sub isn a j (fun i hi hai => hex ⟨i, hi, hai⟩), ← h]
        exact BitVec.sub_self a
      obtain ⟨m, rfl⟩ : ∃ m, n = m + j := ⟨n - j, by omega⟩
      rw [Function.iterate_add_apply, hz, deltaStep_iterate_zero]

/-- When do `n` more SYN-ACKs leave `delta` as it is. -/
theorem deltaStep_iterate_eq_iff (isn a : U32) (n : Nat) :
    (deltaStep isn)^[n] a = a ↔
      a = 0 ∨ (BitVec.ofNat 32 n * (isn + 1) = 0 ∧ ∀ j < n, a ≠ BitVec.ofNat 32 j * (isn + 1)) := by
  by_cases hex : ∃ j < n, a = BitVec.ofNat 32 j * (isn + 1)
  · obtain ⟨j, hj, ha⟩ := hex
    rw [deltaStep_iterate_hit isn a n j hj ha]
    constructor
    · intro h
      exact .inl h.symm
    · rintro (h | ⟨-, h⟩)
      · exact h.symm
      · exact absurd ha (h j hj)
  · have hall : ∀ j < n, a ≠ BitVec.ofNat 32 j * (isn + 1) := fun j hj ha => hex ⟨j, hj, ha⟩
    rw [deltaStep_iterate_sub isn a n hall]
    constructor
    · intro h
      exact .inr ⟨by grind, hall⟩
    · rintro (h | ⟨h, -⟩)
      · -- No SYN-ACK follows, or `delta` would be 0 already at the first.
        rcases Nat.eq_zero_or_pos n with rfl | hn
        · simp
        · exact absurd (by simpa using h) (hall 0 hn)
      · rw [h]
        exact BitVec.sub_zero a

/-- When do `n` SYN-ACKs after the ACK for the cookie `c` leave the difference
of the initial sequence numbers. -/
theorem deltaStep_iterate_ack (c isn : U32) (n : Nat) (hc : c ≠ 0xffffffff#32) :
    (deltaStep isn)^[n] (c + 1) = c - isn ↔
      isn = 0xffffffff#32 ∨
        (1 ≤ n ∧
          (c = isn ∨
            (BitVec.ofNat 32 (n - 1) * (isn + 1) = 0 ∧
              ∀ j < n - 1, c - isn ≠ BitVec.ofNat 32 j * (isn + 1)))) := by
  cases n with
  | zero =>
    rw [Function.iterate_zero_apply]
    have hnone : ¬ 1 ≤ 0 := by decide
    simp only [hnone, false_and, or_false]
    grind
  | succ n =>
    have hfirst : deltaStep isn (c + 1) = c - isn := by
      unfold deltaStep
      rw [if_neg (by grind)]
      grind
    have hzero : c - isn = 0 ↔ c = isn := by grind
    rw [Function.iterate_succ_apply, hfirst, deltaStep_iterate_eq_iff, hzero, Nat.add_sub_cancel]
    constructor
    · intro h
      exact .inr ⟨Nat.le_add_left 1 n, h⟩
    · rintro (rfl | ⟨-, h⟩)
      · -- The server number -1 subtracts nothing.
        by_cases hz : c = 0xffffffff#32
        · exact .inl hz
        · refine .inr ⟨by grind, fun j _ => by grind⟩
      · exact h

/-! ## Handshakes -/

/-- One frame of a handshake: the ACK of the client, or the SYN-ACK. -/
inductive Retransmit where
  | ack (rnd : U32 × U32)
  | synack
  deriving DecidableEq, Repr

def Retransmit.event (pa pe : Pkt) : Retransmit → Event
  | .ack rnd => .ingress rnd pa
  | .synack => .egress pe

/-- How many SYN-ACKs come after the last ACK, with `n` of them before. -/
def synacksSince (n : Nat) (hs : List Retransmit) : Nat :=
  hs.foldl (fun n h => match h with
    | .ack _ => 0
    | .synack => n + 1) n

section

variable {K : Helpers} {pa pe : Pkt} {k : map_key_t} {ta tsa te tse : Nat}

/-- With the entry in the table, `delta` is what the SYN-ACKs since the last
ACK made of it. -/
theorem delta_handshake (hpa : inView pa = .create ta tsa) (hka : inKey pa ta = k)
    (hpe : enView pe = .synack te tse) (hke : enKey pe te = k) (hs : List Retransmit) (s : Server)
    (val : map_val_t) (n : Nat) (hval : s.conntrack_map.lookup k = some val)
    (hdelta : val.delta = (deltaStep (ntohl (pe.seq te)))^[n] (ntohl (pa.ack_seq ta))) :
    ∃ val', (run (serverStep K) s (hs.map (·.event pa pe))).conntrack_map.lookup k = some val' ∧
      val'.delta =
        (deltaStep (ntohl (pe.seq te)))^[synacksSince n hs] (ntohl (pa.ack_seq ta)) := by
  induction hs generalizing s val n with
  | nil => exact ⟨val, hval, hdelta⟩
  | cons h hs ih =>
    cases h with
    | ack rnd =>
      have hstep : (serverStep K s (.ingress rnd pa)).conntrack_map.lookup k =
          some (createVal (pa.ack_seq ta)) := by
        rw [lookup_step]
        change flowStep _ _ (inEvent s k pa) = _
        rw [inEvent_create hpa hka (BoundedMap.hasRoom_of_lookup hval)]
        rfl
      exact ih _ _ 0 hstep rfl
    | synack =>
      have hstep : (serverStep K s (.egress pe)).conntrack_map.lookup k =
          some (synackEntry val (pe.seq te) (pe.tsval tse)) := by
        rw [lookup_step, hval]
        change flowStep _ _ (enEvent k pe) = _
        rw [enEvent_synack hpe hke]
        rfl
      refine ih _ _ (n + 1) hstep ?_
      rw [synackEntry_delta, hdelta, Function.iterate_succ_apply']

/-- In a full table the flow gets no entry. -/
theorem full_handshake (hpa : inView pa = .create ta tsa) (hka : inKey pa ta = k)
    (hpe : enView pe = .synack te tse) (hke : enKey pe te = k) (hs : List Retransmit) (s : Server)
    (hfull : ¬ s.conntrack_map.HasRoom k) :
    (run (serverStep K) s (hs.map (·.event pa pe))).conntrack_map.lookup k = none := by
  induction hs generalizing s with
  | nil => exact BoundedMap.lookup_of_full hfull
  | cons h hs ih =>
    cases h with
    | ack rnd =>
      have hstep : (serverStep K s (.ingress rnd pa)).conntrack_map = s.conntrack_map := by
        change (server_in.xdp_router K rnd s pa).2.1.conntrack_map = _
        rw [server_in.xdp_router_eq, hpa]
        change (server_in.createBranch _ _ _ _ _).2.1.conntrack_map = _
        rw [createBranch_server, hka, initTables_conntrack, BoundedMap.putAny_of_full _ hfull]
      refine ih (serverStep K s (.ingress rnd pa)) ?_
      rw [hstep]
      exact hfull
    | synack =>
      have hstep : serverStep K s (.egress pe) = s := by
        change (server_en.xdp_router K s pe).2.1 = s
        rw [server_en.xdp_router_eq, hpe]
        dsimp only [server_en.runView, server_en.withEntry]
        rw [hke, BoundedMap.lookup_of_full hfull]
      refine ih (serverStep K s (.egress pe)) ?_
      rw [hstep]
      exact hfull

end

/-- A handshake of the flow `k` with retransmissions in any order: the first
frame is an ACK for the cookie `c`, and the server answers with `isn`. The entry
ends with the difference `c - isn` just when the table has room for it, and the
SYN-ACKs after the last ACK are one, or so many that they do nothing together. -/
theorem a_handshake_sets_the_difference_iff (K : Helpers) (s : Server) (pa pe : Pkt) (k : map_key_t)
    (ta tsa te tse : Nat) (c isn : U32) (hpa : inView pa = .create ta tsa) (hka : inKey pa ta = k)
    (hpe : enView pe = .synack te tse) (hke : enKey pe te = k)
    (hc : ntohl (pa.ack_seq ta) = c + 1) (hisn : ntohl (pe.seq te) = isn) (hc1 : c ≠ 0xffffffff#32)
    (rnd : U32 × U32) (hs : List Retransmit) :
    (∃ val, (run (serverStep K) s ((.ack rnd :: hs).map (·.event pa pe))).conntrack_map.lookup k =
        some val ∧ val.delta = c - isn) ↔
      s.conntrack_map.HasRoom k ∧
      (isn = 0xffffffff#32 ∨
        (1 ≤ synacksSince 0 hs ∧
          (c = isn ∨
            (BitVec.ofNat 32 (synacksSince 0 hs - 1) * (isn + 1) = 0 ∧
              ∀ j < synacksSince 0 hs - 1, c - isn ≠ BitVec.ofNat 32 j * (isn + 1))))) := by
  have hbegin : run (serverStep K) s ((Retransmit.ack rnd :: hs).map (·.event pa pe)) =
      run (serverStep K) (serverStep K s (.ingress rnd pa)) (hs.map (·.event pa pe)) := rfl
  by_cases hroom : s.conntrack_map.HasRoom k
  · have hstep : (serverStep K s (.ingress rnd pa)).conntrack_map.lookup k =
        some (createVal (pa.ack_seq ta)) := by
      rw [lookup_step]
      change flowStep _ _ (inEvent s k pa) = _
      rw [inEvent_create hpa hka hroom]
      rfl
    obtain ⟨val, hval, hdelta⟩ :=
      delta_handshake (K := K) hpa hka hpe hke hs _ _ 0 hstep rfl
    rw [hc, hisn] at hdelta
    rw [← deltaStep_iterate_ack c isn _ hc1, ← hdelta, hbegin, hval]
    simp [hroom]
  · rw [full_handshake hpa hka hpe hke _ s hroom]
    simp [hroom]

/-- The server answers 5 to the cookie 1 of the client. The client repeats its ACK,
and then the server its SYN-ACK. -/
theorem one_synack_sets_the_difference :
    ∃ val, (run (serverStep kernelHelpers) Server.boot
        ([Retransmit.ack (0, 0), .synack, .ack (0, 0), .synack].map
          (·.event handshakeAck serverSynack))).conntrack_map.lookup clientKey = some val ∧
      val.delta = 1 - 5 :=
  (a_handshake_sets_the_difference_iff kernelHelpers Server.boot handshakeAck serverSynack
    clientKey 34 56 34 56 1 5 inView_handshakeAck (by decide) enView_serverSynack (by decide)
    (by decide) (by decide) (by decide) (0, 0) [.synack, .ack (0, 0), .synack]).mpr
    ⟨.inr (by decide), .inr ⟨by decide, .inr ⟨by decide, by decide⟩⟩⟩

/-- The server sends its SYN-ACK twice, and the difference is wrong. -/
theorem a_second_synack_spoils_the_difference :
    ¬ ∃ val, (run (serverStep kernelHelpers) Server.boot
        ([Retransmit.ack (0, 0), .synack, .synack].map
          (·.event handshakeAck serverSynack))).conntrack_map.lookup clientKey = some val ∧
      val.delta = 1 - 5 := by
  have hstart :
      (serverStep kernelHelpers Server.boot (.ingress (0, 0) handshakeAck)).conntrack_map.lookup
      clientKey = some (createVal (htonl 2)) := lookup_clientRun_nil
  obtain ⟨val, hval, hdelta⟩ :=
    delta_handshake (K := kernelHelpers) (k := clientKey) inView_handshakeAck
    (by decide) enView_serverSynack (by decide) [.synack, .synack] _ _ 0 hstart
    (by decide)
  rintro ⟨val', hval', hdelta'⟩
  obtain rfl := Option.some.inj (hval.symm.trans hval')
  rw [hdelta] at hdelta'
  revert hdelta'
  decide

end edge_cookie
