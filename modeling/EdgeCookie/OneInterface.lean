-- The path for one interface. It has its own functions, without rows for the
-- owners of frames and with the ring operations in another order. Under the
-- frame invariant it does to the rings what the general path does, at every
-- moment of a call.
import EdgeCookie.FrameRun

namespace edge_cookie.xsknf

open batch runs

/-- A configuration with one interface. -/
abbrev oneInterface (batch_size xsk_frame_size : Nat) : xsknf_config :=
  ⟨1, batch_size, xsk_frame_size⟩

variable {b s : Nat}

/-- The interface. -/
abbrev theOne : Fin (oneInterface b s).num_interfaces := ⟨0, Nat.one_pos⟩

theorem eq_theOne (i : Fin (oneInterface b s).num_interfaces) : i = theOne :=
  Fin.ext (Nat.lt_one_iff.mp i.isLt)

theorem update_theOne (xsks : Xsks (oneInterface b s)) (xsk : xsk_socket_info) :
    Function.update xsks theOne xsk theOne = xsk := Function.update_self theOne xsk xsks

/-- What the move is on the general path. -/
def Move.event : Move → Event (oneInterface b s)
  | .turn seen => .turn seen
  | .receive offset len => .receive theOne offset len
  | .transmit => .transmit theOne

variable {xsks xsks' : Xsks (oneInterface b s)} {seen : Nat}

/-! ## The completed frames -/

theorem to_fill_one (hb : b ≤ 255)
    (howner : ∀ addr ∈ completed (oneInterface b s) seen (xsks theOne), owner
      (oneInterface b s) addr < 1) :
    to_fill (oneInterface b s) (completed (oneInterface b s) seen (xsks theOne)) (some theOne) =
      completed (oneInterface b s) seen (xsks theOne) := by
  rw [to_fill_eq_rowOf hb, rowOf_of_forall, List.map_map]
  · exact List.map_id _
  · intro x hx
    obtain ⟨addr, hmem, rfl⟩ := List.mem_map.mp hx
    unfold ownerRow
    dsimp only
    rw [dif_pos (howner addr hmem)]
    exact congrArg some (eq_theOne _)

/-- Both paths take the same frames back. -/
theorem complete_tx_one (hb : b ≤ 255)
    (howner : ∀ addr ∈ completed (oneInterface b s) seen (xsks theOne), owner
      (oneInterface b s) addr < 1)
    (h : complete_tx seen xsks theOne = some xsks') :
    complete_tx_1if (oneInterface b s) seen (xsks theOne) = some (xsks' theOne) := by
  have spec := completed_of_complete_tx h
  unfold complete_tx_1if
  dsimp only
  by_cases h0 : sentOf (oneInterface b s) seen (xsks theOne) = 0
  · rw [if_pos h0]
    unfold complete_tx at h
    dsimp only at h
    rw [if_pos h0] at h
    rw [Option.some.inj h]
  · rw [if_neg h0]
    have hfq := spec.fq theOne
    rw [to_fill_one hb howner] at hfq
    have hroom : (xsks theOne).fq.entries.length +
        (completed (oneInterface b s) seen (xsks theOne)).length ≤ fill_size := by
      rw [← List.length_append, ← hfq]
      exact (xsks' theOne).fq.fits
    obtain ⟨fq, hproduce⟩ := Fifo.exists_produce hroom
    have heq : (xsks' theOne).fq = fq :=
      Fifo.eq_of_entries (hfq.trans (Fifo.produce_eq_some hproduce).symm)
    unfold completed at hproduce
    rw [hproduce, Option.map_some]
    congr 1
    rw [← heq, ← spec.rx theOne, ← spec.tx theOne, ← spec.cq, ← spec.outstanding, ← spec.stats]

/-! ## A batch -/

/-- The two paths sort a batch into the same rows. -/
theorem to_tx_one (processor : Processor (oneInterface b s)) (pkts : List pkt_info)
    (out : Option (Fin (oneInterface b s).num_interfaces)) :
    to_tx_1if processor pkts out.isSome = to_tx processor pkts out := by
  have hinj : Function.Injective
      (Option.isSome : Option (Fin (oneInterface b s).num_interfaces) → Bool) := by
    intro x y h
    rcases x with _ | x <;> rcases y with _ | y
    · rfl
    · cases h
    · cases h
    · rw [eq_theOne x, eq_theOne y]
  exact spread_map_key hinj (sorted processor pkts) out

/-- How far the two paths are: in the same turn of the loop, or both behind it.
The general path still has the end test of its loop to make. -/
inductive Alike : Phase (oneInterface b s) → Phase1if → Prop
  | idle : Alike .idle .idle
  | sending (rows : Fin (oneInterface b s).num_interfaces → List pkt_info) :
      Alike (.sending theOne 0 rows) (.sending (rows theOne))
  | ended {i : Nat} (rows : Fin (oneInterface b s).num_interfaces → List pkt_info) (h : 1 ≤ i) :
      Alike (.sending theOne i rows) .idle

/-- The two paths have the same rings and counters, and are as far. -/
structure Same (w : Worker (oneInterface b s)) (v : Worker1if) : Prop where
  xsk : w.xsks theOne = v.xsk
  phase : Alike w.phase v.phase

theorem same_receiveBatch (seen : Nat) (processor : Processor (oneInterface b s))
    (h : (receiveBatch seen processor xsks theOne).phase ≠ .exited) :
    Same (receiveBatch seen processor xsks theOne)
      (receiveBatch1if seen processor (xsks theOne)) := by
  unfold receiveBatch receiveBatch1if at *
  dsimp only at *
  by_cases h0 : (xsks theOne).rx.peek b seen = 0
  · rw [if_pos h0, if_pos h0]
    exact ⟨rfl, .idle⟩
  · rw [if_neg h0] at h ⊢
    rw [if_neg h0]
    have hdrop := to_tx_one processor ((xsks theOne).rx.first ((xsks theOne).rx.peek b seen)) none
    have hsend :=
      to_tx_one processor ((xsks theOne).rx.first ((xsks theOne).rx.peek b seen)) (some theOne)
    simp only [Option.isSome_none, Option.isSome_some] at hdrop hsend
    rw [hdrop, hsend]
    split at h
    · exact absurd rfl h
    · rename_i xsk hfill
      exact ⟨update_theOne xsks xsk, .sending _⟩

/-! ## The loop that sends -/

/-- A turn of the loop, when the general path does not exit in it. -/
theorem same_sendRow (seen : Nat) (rows : Fin (oneInterface b s).num_interfaces → List pkt_info)
    (hcomplete : ∃ xsks', complete_tx seen xsks theOne = some xsks' ∧
      complete_tx_1if (oneInterface b s) seen (xsks theOne) = some (xsks' theOne)) :
    Same (sendRow seen xsks theOne 0 rows)
    (sendRow1if (oneInterface b s) seen (xsks theOne) (rows theOne)) := by
  unfold sendRow sendRow1if
  rw [dif_pos Nat.one_pos]
  dsimp only
  by_cases hrow : rows theOne = []
  · rw [if_pos hrow, if_pos hrow]
    exact ⟨rfl, .ended rows (Nat.le_refl 1)⟩
  · rw [if_neg hrow, if_neg hrow]
    rcases (xsks theOne).tx.produce (rows theOne) with _ | tx
    · obtain ⟨xsks', hgeneral, hone⟩ := hcomplete
      dsimp only
      rw [hgeneral, hone]
      exact ⟨rfl, .sending rows⟩
    · exact ⟨update_theOne xsks { xsks theOne with
        tx := tx, outstanding_tx := (xsks theOne).outstanding_tx + (rows theOne).length },
        .ended rows (Nat.le_refl 1)⟩

/-- What the frame invariant gives for the completed frames. -/
theorem complete_tx_alike {e : Nat} {w : Worker (oneInterface b s)}
    (ha : Aligned (oneInterface b s) e) (h : Conserved w) (seen : Nat) :
    ∃ xsks', complete_tx seen w.xsks theOne = some xsks' ∧
      complete_tx_1if (oneInterface b s) seen (w.xsks theOne) = some (xsks' theOne) := by
  obtain ⟨xsks', hc, -, -⟩ := complete_tx_conserves ha h.frames h.owned seen theOne
  refine ⟨xsks', hc, complete_tx_one ha.batch ?_ hc⟩
  intro addr hmem
  exact owner_lt ha h.frames (List.mem_of_mem_take hmem)

/-! ## A whole call -/

/-- Each move keeps the two paths the same. -/
theorem same_step {e : Nat} {w : Worker (oneInterface b s)} {v : Worker1if}
    (ha : Aligned (oneInterface b s) e) (hinv : Conserved w) (h : Same w v) (m : Move) :
    Same (step w m.event) (step1if (oneInterface b s) v m) := by
  obtain ⟨xsks, phase⟩ := w
  obtain ⟨xsk, phase1⟩ := v
  obtain ⟨hxsk, hphase⟩ := h
  dsimp only at hxsk hphase
  subst hxsk
  cases m with
  | turn seen =>
    cases hphase with
    | idle => exact ⟨rfl, .idle⟩
    | sending rows => exact same_sendRow seen rows (complete_tx_alike ha hinv seen)
    | @ended i rows h =>
      -- Only the end test of the general loop is left.
      have hend : ¬ i < (oneInterface b s).num_interfaces := Nat.not_lt.mpr h
      change Same (sendRow seen xsks theOne i rows) _
      unfold sendRow
      rw [dif_neg hend]
      exact ⟨rfl, .idle⟩
  | receive offset len =>
    exact ⟨update_theOne xsks (kernelReceive (oneInterface b s) offset len (xsks theOne)), hphase⟩
  | transmit => exact ⟨update_theOne xsks (kernelTransmit (xsks theOne)), hphase⟩

theorem same_process_batch {e : Nat} (ha : Aligned (oneInterface b s) e)
    (hinv : Conserved ⟨xsks, .idle⟩) (seenTx seenRx : Nat)
    (processor : Processor (oneInterface b s)) :
    Same (process_batch seenTx seenRx processor xsks theOne)
      (process_batch_1if seenTx seenRx processor (xsks theOne)) := by
  have hrunning := (conserved_step ha hinv (.process_batch theOne seenTx seenRx processor)).running
  obtain ⟨xsks', hgeneral, hone⟩ := complete_tx_alike ha hinv seenTx
  dsimp only at hgeneral hone
  change (process_batch seenTx seenRx processor xsks theOne).phase ≠ .exited at hrunning
  unfold process_batch process_batch_1if at *
  rw [hgeneral] at hrunning
  rw [hgeneral, hone]
  exact same_receiveBatch seenRx processor hrunning

/-- The call has returned, or has only the end test of its loop to make. -/
def Phase.AtEnd {conf : xsknf_config} : Phase conf → Prop
  | .idle => True
  | .sending _ i _ => conf.num_interfaces ≤ i
  | .exited => False

/-- With one interface both paths do the same to the rings and the counters of
packets. The kernel may move frames at any time, and the loop may wait any
number of turns: at every moment the sockets are the same, neither path has
exited, and one has returned when the other has. -/
theorem the_two_paths_do_the_same (b e : Nat) (hb : b ≤ 255) (he : e < 31)
    (xsks : Xsks (oneInterface b (2 ^ e))) (hinv : Conserved ⟨xsks, .idle⟩) (seenTx seenRx : Nat)
    (processor : Processor (oneInterface b (2 ^ e))) (moves : List Move) :
    let general :=
      run step (process_batch seenTx seenRx processor xsks theOne) (moves.map Move.event)
    let fast := run (step1if (oneInterface b (2 ^ e)))
      (process_batch_1if seenTx seenRx processor (xsks theOne)) moves
    general.xsks theOne = fast.xsk ∧ general.phase ≠ .exited ∧ fast.phase ≠ .exited ∧
      (general.phase.AtEnd ↔ fast.phase = .idle) := by
  intro general fast
  have ha : Aligned (oneInterface b (2 ^ e)) e := ⟨rfl, he, hb⟩
  have hcall : Conserved (process_batch seenTx seenRx processor xsks theOne) :=
    conserved_step ha hinv (.process_batch theOne seenTx seenRx processor)
  have hrun : run step (process_batch seenTx seenRx processor xsks theOne) (moves.map Move.event) =
      run (fun w m => step w (Move.event m)) (process_batch seenTx seenRx processor xsks theOne)
        moves :=
    List.foldl_map
  obtain ⟨hinv', hxsk, hphase⟩ : Conserved general ∧ Same general fast := by
    change Conserved (run step _ _) ∧ Same (run step _ _) _
    rw [hrun]
    refine run_related (fun w v => Conserved w ∧ Same w v) ?_ moves
      ⟨hcall, same_process_batch ha hinv seenTx seenRx processor⟩
    rintro w v m ⟨hw, hsame⟩
    exact ⟨conserved_step ha hw m.event, same_step ha hw hsame m⟩
  refine ⟨hxsk, hinv'.running, ?_⟩
  generalize general.phase = phase at hphase ⊢
  generalize fast.phase = phase1 at hphase ⊢
  cases hphase with
  | idle => exact ⟨Phase1if.noConfusion, iff_of_true trivial rfl⟩
  | sending rows =>
    refine ⟨Phase1if.noConfusion, iff_of_false ?_ Phase1if.noConfusion⟩
    exact Nat.not_succ_le_zero 0
  | ended rows h => exact ⟨Phase1if.noConfusion, iff_of_true h rfl⟩

/-- Every packet goes back where it came from. -/
def echoAll : Processor (oneInterface 64 (2 ^ 12)) := fun _ => (some theOne, 60)

/-- The sockets when one packet has come in. -/
def onePacket : Xsks (oneInterface 64 (2 ^ 12)) :=
  (step (Worker.start _) (.receive theOne 256 60)).xsks

theorem the_two_paths_echo_a_packet :
    (run step (process_batch 1 1 echoAll onePacket theOne)
      ([.turn 0, .transmit].map Move.event)).xsks theOne =
        (run (step1if (oneInterface 64 (2 ^ 12))) (process_batch_1if 1 1 echoAll (onePacket theOne))
          [.turn 0, .transmit]).xsk := by
  have ha : Aligned (oneInterface 64 (2 ^ 12)) 12 := ⟨rfl, by decide, by decide⟩
  have hinv : Conserved ⟨onePacket, .idle⟩ :=
    conserved_step ha (conserved_start ha (by decide)) (.receive theOne 256 60)
  exact (the_two_paths_do_the_same 64 12 (by decide) (by decide) onePacket hinv 1 1 echoAll
    [.turn 0, .transmit]).1

end edge_cookie.xsknf
