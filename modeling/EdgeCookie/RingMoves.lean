-- What each part of the forwarding loop does to the rings, ring by ring, and
-- the first law of its runs: a socket counts the frames in its transmit and
-- completion rings.
import EdgeCookie.Xsknf

namespace edge_cookie.xsknf

open batch runs

variable {conf : xsknf_config} {xsks xsks' : Xsks conf} {ifindex : Fin conf.num_interfaces}
  {seen : Nat}

/-! ## Frames back to the fill ring -/

theorem refill_eq_some {xsk xsk' : xsk_socket_info} {addrs : List Nat}
    (h : refill xsk addrs = some xsk') :
    xsk' = { xsk with fq := xsk'.fq } ∧ xsk'.fq.entries = xsk.fq.entries ++ addrs := by
  unfold refill at h
  by_cases hnil : addrs = []
  · rw [if_pos hnil] at h
    cases h
    exact ⟨rfl, by rw [hnil, List.append_nil]⟩
  · rw [if_neg hnil] at h
    obtain ⟨fq, hfq, rfl⟩ := Option.map_eq_some_iff.mp h
    exact ⟨rfl, Fifo.produce_eq_some hfq⟩

theorem lt_of_refill_eq_none {xsk : xsk_socket_info} {addrs : List Nat}
    (h : refill xsk addrs = none) : fill_size < xsk.fq.entries.length + addrs.length := by
  unfold refill at h
  by_cases hnil : addrs = []
  · rw [if_pos hnil] at h
    cases h
  · rw [if_neg hnil, Option.map_eq_none_iff] at h
    exact Fifo.produce_eq_none_iff.mp h

theorem exists_refill {xsk : xsk_socket_info} {addrs : List Nat}
    (h : xsk.fq.entries.length + addrs.length ≤ fill_size) :
    ∃ xsk', refill xsk addrs = some xsk' := by
  apply Option.ne_none_iff_exists'.mp
  intro hnone
  have := lt_of_refill_eq_none hnone
  omega

/-! ## The completed frames -/

theorem sentOf_le_batch (seen : Nat) (xsk : xsk_socket_info) :
    sentOf conf seen xsk ≤ conf.batch_size := by
  unfold sentOf
  by_cases h0 : xsk.outstanding_tx = 0
  · rw [if_pos h0]
    omega
  · rw [if_neg h0]
    dsimp only
    refine Nat.le_trans Fifo.peek_le_nb ?_
    by_cases hb : xsk.outstanding_tx > conf.batch_size
    · rw [if_pos hb]
    · rw [if_neg hb]
      omega

theorem sentOf_le_length (conf : xsknf_config) (seen : Nat) (xsk : xsk_socket_info) :
    sentOf conf seen xsk ≤ xsk.cq.entries.length := by
  unfold sentOf
  by_cases h0 : xsk.outstanding_tx = 0
  · rw [if_pos h0]
    omega
  · rw [if_neg h0]
    exact Fifo.peek_le_length

/-- The frames that `complete_tx` takes out of the completion ring. -/
def completed (conf : xsknf_config) (seen : Nat) (xsk : xsk_socket_info) : List Nat :=
  xsk.cq.first (sentOf conf seen xsk)

theorem length_completed_le (xsk : xsk_socket_info) :
    (completed conf seen xsk).length ≤ conf.batch_size :=
  Nat.le_trans Fifo.length_first_le (sentOf_le_batch seen xsk)

/-- What `complete_tx` does to each ring. -/
structure Completed (seen : Nat) (xsks xsks' : Xsks conf) (ifindex : Fin conf.num_interfaces) :
    Prop where
  rx : ∀ j, (xsks' j).rx = (xsks j).rx
  tx : ∀ j, (xsks' j).tx = (xsks j).tx
  fq : ∀ j, (xsks' j).fq.entries =
    (xsks j).fq.entries ++ to_fill conf (completed conf seen (xsks ifindex)) (some j)
  cq : (xsks' ifindex).cq = (xsks ifindex).cq.release (sentOf conf seen (xsks ifindex))
  cq_other : ∀ j, j ≠ ifindex → (xsks' j).cq = (xsks j).cq
  outstanding : (xsks' ifindex).outstanding_tx =
    (xsks ifindex).outstanding_tx - sentOf conf seen (xsks ifindex)
  outstanding_other : ∀ j, j ≠ ifindex → (xsks' j).outstanding_tx = (xsks j).outstanding_tx
  stats : (xsks' ifindex).stats = (xsks ifindex).stats.sent (sentOf conf seen (xsks ifindex))

theorem completed_refl (h : sentOf conf seen (xsks ifindex) = 0) :
    Completed seen xsks xsks ifindex where
  rx _ := rfl
  tx _ := rfl
  fq j := by
    have hnil : completed conf seen (xsks ifindex) = [] := by
      unfold completed Fifo.first
      rw [h, List.take_zero]
    rw [hnil]
    exact (List.append_nil _).symm
  cq := by
    rw [h]
    rfl
  cq_other _ _ := rfl
  outstanding := by rw [h, Nat.sub_zero]
  outstanding_other _ _ := rfl
  stats := by
    rw [h]
    rfl

/-- The socket of the interface and the other sockets, behind a call that takes frames out. -/
theorem complete_tx_sockets (h0 : sentOf conf seen (xsks ifindex) ≠ 0)
    (h : complete_tx seen xsks ifindex = some xsks') :
    xsks' ifindex =
        { xsks ifindex with
          fq := (xsks' ifindex).fq
          cq := (xsks ifindex).cq.release (sentOf conf seen (xsks ifindex))
          stats := (xsks ifindex).stats.sent (sentOf conf seen (xsks ifindex))
          outstanding_tx := (xsks ifindex).outstanding_tx - sentOf conf seen (xsks ifindex) } ∧
      (∀ j, j ≠ ifindex → xsks' j = { xsks j with fq := (xsks' j).fq }) ∧
      ∀ j, (xsks' j).fq.entries =
        (xsks j).fq.entries ++ to_fill conf (completed conf seen (xsks ifindex)) (some j) := by
  unfold complete_tx at h
  dsimp only at h
  rw [if_neg h0] at h
  split at h
  · cases h
  obtain ⟨xsks₁, hfill, rfl⟩ := Option.map_eq_some_iff.mp h
  -- the rows go to the sockets one by one, so each socket has its own step
  have hrow : ∀ j, xsks₁ j = { released seen xsks ifindex j with fq := (xsks₁ j).fq } ∧
      (xsks₁ j).fq.entries = (released seen xsks ifindex j).fq.entries ++
        to_fill conf (completed conf seen (xsks ifindex)) (some j) := by
    intro j
    exact refill_eq_some ((forEach_eq_some (List.nodup_finRange _) hfill).1 j (List.mem_finRange j))
  obtain ⟨hself, hentries⟩ := hrow ifindex
  rw [released, Function.update_self] at hself hentries
  have hother : ∀ j, j ≠ ifindex → released seen xsks ifindex j = xsks j := by
    intro j hj
    rw [released, Function.update_of_ne hj]
  refine ⟨?_, ?_, ?_⟩
  · rw [Function.update_self, hself]
  · intro j hj
    rw [Function.update_of_ne hj, ← hother j hj]
    exact (hrow j).1
  · intro j
    by_cases hj : j = ifindex
    · subst hj
      rw [Function.update_self]
      exact hentries
    · rw [Function.update_of_ne hj, (hrow j).2, hother j hj]

theorem completed_of_complete_tx (h : complete_tx seen xsks ifindex = some xsks') :
    Completed seen xsks xsks' ifindex := by
  by_cases h0 : sentOf conf seen (xsks ifindex) = 0
  · unfold complete_tx at h
    dsimp only at h
    rw [if_pos h0] at h
    cases h
    exact completed_refl h0
  obtain ⟨hself, hother, hfq⟩ := complete_tx_sockets h0 h
  have hrings : ∀ j, (xsks' j).rx = (xsks j).rx ∧ (xsks' j).tx = (xsks j).tx := by
    intro j
    by_cases hj : j = ifindex
    · subst hj
      rw [hself]
      exact ⟨rfl, rfl⟩
    · rw [hother j hj]
      exact ⟨rfl, rfl⟩
  refine ⟨fun j => (hrings j).1, fun j => (hrings j).2, hfq, ?_, ?_, ?_, ?_, ?_⟩
  · rw [hself]
  · intro j hj
    rw [hother j hj]
  · rw [hself]
  · intro j hj
    rw [hother j hj]
  · rw [hself]

/-- `complete_tx` does not exit when every frame has an owner with room. -/
theorem exists_complete_tx
    (howner : ∀ addr ∈ completed conf seen (xsks ifindex), owner conf addr < conf.num_interfaces)
    (hfit : ∀ j, (xsks j).fq.entries.length +
      (to_fill conf (completed conf seen (xsks ifindex)) (some j)).length ≤ fill_size) :
    ∃ xsks', complete_tx seen xsks ifindex = some xsks' := by
  unfold complete_tx
  dsimp only
  by_cases h0 : sentOf conf seen (xsks ifindex) = 0
  · rw [if_pos h0]
    exact ⟨xsks, rfl⟩
  have hrows : ∀ addr, addr ∈ completed conf seen (xsks ifindex) →
      ¬ conf.num_interfaces ≤ owner conf addr := by
    intro addr hmem hle
    exact absurd (howner addr hmem) (by omega)
  have hfq : ∀ j, (released seen xsks ifindex j).fq = (xsks j).fq := by
    intro j
    unfold released
    by_cases hj : j = ifindex
    · subst hj
      rw [Function.update_self]
    · rw [Function.update_of_ne hj]
  obtain ⟨xsks₁, hfill⟩ : ∃ xsks₁, refillAll
      (fun i => to_fill conf (completed conf seen (xsks ifindex)) (some i))
      (released seen xsks ifindex) = some xsks₁ := by
    apply exists_forEach (List.nodup_finRange _)
    intro j _
    apply exists_refill
    rw [hfq]
    exact hfit j
  rw [if_neg h0, if_neg (by rintro ⟨addr, hmem, hle⟩; exact hrows addr hmem hle)]
  exact ⟨_, Option.map_eq_some_iff.mpr ⟨xsks₁, hfill, rfl⟩⟩

/-! ## A batch and a row -/

/-- The packets that a call takes out of the receive ring. -/
def received (conf : xsknf_config) (seen : Nat) (xsk : xsk_socket_info) : List pkt_info :=
  xsk.rx.first (xsk.rx.peek conf.batch_size seen)

theorem length_received_le (xsk : xsk_socket_info) :
    (received conf seen xsk).length ≤ conf.batch_size :=
  Nat.le_trans Fifo.length_first_le Fifo.peek_le_nb

/-- The receiving socket when its packets are taken and the dropped ones are
back in its fill ring. -/
def Batched (conf : xsknf_config) (seen : Nat) (drop : List pkt_info)
    (xsk xsk' : xsk_socket_info) : Prop :=
  ∃ fq : Fifo Nat fill_size,
    xsk' = { xsk with
      rx := xsk.rx.release (xsk.rx.peek conf.batch_size seen)
      stats := xsk.stats.rcvd (xsk.rx.peek conf.batch_size seen)
      fq := fq } ∧
      fq.entries = xsk.fq.entries ++ drop.map pkt_info.addr

/-- A call finds no packet, or it spreads a batch, or it exits. -/
theorem receiveBatch_cases (seen : Nat) (processor : Processor conf) (xsks : Xsks conf)
    (ifindex : Fin conf.num_interfaces) :
    ((xsks ifindex).rx.peek conf.batch_size seen = 0 ∧
        receiveBatch seen processor xsks ifindex = ⟨xsks, .idle⟩) ∨
      (∃ xsk', Batched conf seen
          (to_tx processor (received conf seen (xsks ifindex)) none) (xsks ifindex) xsk' ∧
        receiveBatch seen processor xsks ifindex = ⟨Function.update xsks ifindex xsk',
          .sending ifindex 0 fun i =>
            to_tx processor (received conf seen (xsks ifindex)) (some i)⟩) ∨
      (fill_size < (xsks ifindex).fq.entries.length +
          (to_tx processor (received conf seen (xsks ifindex)) none).length ∧
        receiveBatch seen processor xsks ifindex = ⟨Function.update xsks ifindex
          { xsks ifindex with
            rx := (xsks ifindex).rx.release ((xsks ifindex).rx.peek conf.batch_size seen)
            stats := (xsks ifindex).stats.rcvd ((xsks ifindex).rx.peek conf.batch_size seen) },
          .exited⟩) := by
  unfold receiveBatch
  dsimp only
  by_cases h0 : (xsks ifindex).rx.peek conf.batch_size seen = 0
  · rw [if_pos h0]
    exact .inl ⟨h0, rfl⟩
  rw [if_neg h0]
  right
  cases hfill : refill { xsks ifindex with
      rx := (xsks ifindex).rx.release ((xsks ifindex).rx.peek conf.batch_size seen)
      stats := (xsks ifindex).stats.rcvd ((xsks ifindex).rx.peek conf.batch_size seen) }
      ((to_tx processor (received conf seen (xsks ifindex)) none).map pkt_info.addr) with
  | some xsk' =>
    left
    obtain ⟨heq, hfq⟩ := refill_eq_some hfill
    refine ⟨xsk', ⟨xsk'.fq, heq, hfq⟩, ?_⟩
    unfold received at hfill ⊢
    rw [hfill]
  | none =>
    right
    constructor
    · have hlt := lt_of_refill_eq_none hfill
      rw [List.length_map] at hlt
      exact hlt
    · unfold received at hfill
      rw [hfill]

/-- The socket with a row in its transmit ring. -/
def Sent (row : List pkt_info) (xsk xsk' : xsk_socket_info) : Prop :=
  ∃ tx : Fifo pkt_info XSK_RING_PROD_DEFAULT_NUM_DESCS,
    xsk' = { xsk with tx := tx, outstanding_tx := xsk.outstanding_tx + row.length } ∧
      tx.entries = xsk.tx.entries ++ row

/-- A turn of the loop ends it, sends the row, or finds no room and takes the
completed frames of the receiving interface. -/
theorem sendRow_cases (seen : Nat) (xsks : Xsks conf) (ifindex : Fin conf.num_interfaces) (i : Nat)
    (rows : Fin conf.num_interfaces → List pkt_info) :
    (conf.num_interfaces ≤ i ∧ sendRow seen xsks ifindex i rows = ⟨xsks, .idle⟩) ∨
      ∃ h : i < conf.num_interfaces,
        (∃ xsk', Sent (rows ⟨i, h⟩) (xsks ⟨i, h⟩) xsk' ∧ sendRow seen xsks ifindex i rows =
          ⟨Function.update xsks ⟨i, h⟩ xsk', .sending ifindex (i + 1) rows⟩) ∨
        (XSK_RING_PROD_DEFAULT_NUM_DESCS <
            (xsks ⟨i, h⟩).tx.entries.length + (rows ⟨i, h⟩).length ∧
          ((∃ xsks', complete_tx seen xsks ifindex = some xsks' ∧
              sendRow seen xsks ifindex i rows = ⟨xsks', .sending ifindex i rows⟩) ∨
            (complete_tx seen xsks ifindex = none ∧
              sendRow seen xsks ifindex i rows = ⟨xsks, .exited⟩))) := by
  unfold sendRow
  by_cases h : i < conf.num_interfaces
  · right
    refine ⟨h, ?_⟩
    rw [dif_pos h]
    dsimp only
    by_cases hrow : rows ⟨i, h⟩ = []
    · left
      rw [if_pos hrow]
      refine ⟨xsks ⟨i, h⟩, ⟨(xsks ⟨i, h⟩).tx, ?_, ?_⟩, ?_⟩
      · rw [hrow]
        rfl
      · rw [hrow, List.append_nil]
      · rw [Function.update_eq_self]
    · rw [if_neg hrow]
      cases hroom : (xsks ⟨i, h⟩).tx.produce (rows ⟨i, h⟩) with
      | some tx => exact .inl ⟨_, ⟨tx, rfl, Fifo.produce_eq_some hroom⟩, rfl⟩
      | none =>
        refine .inr ⟨Fifo.produce_eq_none_iff.mp hroom, ?_⟩
        cases hc : complete_tx seen xsks ifindex with
        | some xsks' => exact .inl ⟨xsks', rfl, rfl⟩
        | none => exact .inr ⟨rfl, rfl⟩
  · rw [dif_neg h]
    exact .inl ⟨by omega, rfl⟩

/-! ## The kernel -/

theorem kernelReceive_cases (conf : xsknf_config) (offset len : Nat) (xsk : xsk_socket_info) :
    ((xsk.fq.entries = [] ∨ XSK_RING_CONS_DEFAULT_NUM_DESCS ≤ xsk.rx.entries.length) ∧
        kernelReceive conf offset len xsk = xsk) ∨
      ∃ addr fq rx, xsk.fq.entries = addr :: Fifo.entries fq ∧
        Fifo.entries rx = xsk.rx.entries ++
          [⟨addr / conf.xsk_frame_size * conf.xsk_frame_size + offset % conf.xsk_frame_size, len⟩] ∧
        kernelReceive conf offset len xsk = { xsk with fq := fq, rx := rx } := by
  unfold kernelReceive
  cases hfq : xsk.fq.entries with
  | nil => exact .inl ⟨.inl rfl, rfl⟩
  | cons addr rest =>
    dsimp only
    cases hrx : xsk.rx.produce
        [⟨addr / conf.xsk_frame_size * conf.xsk_frame_size + offset % conf.xsk_frame_size,
          len⟩] with
    | none => exact .inl ⟨.inr (Nat.le_of_lt_succ (Fifo.produce_eq_none_iff.mp hrx)), rfl⟩
    | some rx =>
      refine .inr ⟨addr, xsk.fq.release 1, rx, ?_, Fifo.produce_eq_some hrx, rfl⟩
      rw [Fifo.entries_release_one hfq]

theorem kernelTransmit_cases (xsk : xsk_socket_info) :
    ((xsk.tx.entries = [] ∨ comp_size ≤ xsk.cq.entries.length) ∧ kernelTransmit xsk = xsk) ∨
      ∃ pkt tx cq, xsk.tx.entries = pkt :: Fifo.entries tx ∧
        Fifo.entries cq = xsk.cq.entries ++ [pkt.addr] ∧
        kernelTransmit xsk = { xsk with tx := tx, cq := cq } := by
  unfold kernelTransmit
  cases htx : xsk.tx.entries with
  | nil => exact .inl ⟨.inl rfl, rfl⟩
  | cons pkt rest =>
    dsimp only
    cases hcq : xsk.cq.produce [pkt.addr] with
    | none => exact .inl ⟨.inr (Nat.le_of_lt_succ (Fifo.produce_eq_none_iff.mp hcq)), rfl⟩
    | some cq =>
      refine .inr ⟨pkt, xsk.tx.release 1, cq, ?_, Fifo.produce_eq_some hcq, rfl⟩
      rw [Fifo.entries_release_one htx]

/-! ## The count of the frames to send -/

/-- The socket counts the frames in its transmit and completion rings. -/
def Counts (xsk : xsk_socket_info) : Prop :=
  xsk.outstanding_tx = xsk.tx.entries.length + xsk.cq.entries.length

/-- No row of the batch is longer than a batch. -/
def Phase.RowsFit : Phase conf → Prop
  | .sending _ _ rows => ∀ j, (rows j).length ≤ conf.batch_size
  | _ => True

structure Tallied (w : Worker conf) : Prop where
  counts : ∀ j, Counts (w.xsks j)
  rows : w.phase.RowsFit

/-- What holds of each socket holds of each after a change that keeps it. -/
theorem forall_update {P : Fin conf.num_interfaces → xsk_socket_info → Prop}
    {i : Fin conf.num_interfaces} {xsk : xsk_socket_info} (h : ∀ j, P j (xsks j)) (hx : P i xsk)
    (j : Fin conf.num_interfaces) : P j (Function.update xsks i xsk j) := by
  by_cases hj : j = i
  · subst hj
    rw [Function.update_self]
    exact hx
  · rw [Function.update_of_ne hj]
    exact h j

theorem counts_complete_tx (h : ∀ j, Counts (xsks j))
    (hc : complete_tx seen xsks ifindex = some xsks') (j : Fin conf.num_interfaces) :
    Counts (xsks' j) := by
  have spec := completed_of_complete_tx hc
  have hj := h j
  unfold Counts at hj ⊢
  rw [spec.tx]
  by_cases hji : j = ifindex
  · subst hji
    have hsent := sentOf_le_length conf seen (xsks j)
    rw [spec.outstanding, spec.cq, Fifo.length_release]
    omega
  · rw [spec.outstanding_other j hji, spec.cq_other j hji]
    exact hj

theorem length_sorted (processor : Processor conf) (pkts : List pkt_info) :
    (sorted processor pkts).length = pkts.length := List.length_mapIdx

/-- A batch that the byte counters can hold is spread without loss. -/
theorem to_tx_eq_rowOf (hb : conf.batch_size ≤ 255) (seen : Nat) (processor : Processor conf)
    (xsk : xsk_socket_info) :
    to_tx processor (received conf seen xsk) =
      rowOf (sorted processor (received conf seen xsk)) := by
  apply spread_eq_rowOf
  rw [length_sorted]
  exact Nat.le_trans (length_received_le xsk) hb

theorem tallied_receiveBatch (hb : conf.batch_size ≤ 255) (h : ∀ j, Counts (xsks j))
    (processor : Processor conf) : Tallied (receiveBatch seen processor xsks ifindex) := by
  rcases receiveBatch_cases seen processor xsks ifindex with
    ⟨-, heq⟩ | ⟨xsk', ⟨fq, rfl, -⟩, heq⟩ | ⟨-, heq⟩
  · rw [heq]
    exact ⟨h, trivial⟩
  · rw [heq]
    refine ⟨forall_update (P := fun _ => Counts) h (h ifindex), ?_⟩
    intro j
    rw [to_tx_eq_rowOf hb]
    refine Nat.le_trans length_rowOf_le ?_
    rw [length_sorted]
    exact length_received_le _
  · rw [heq]
    exact ⟨forall_update (P := fun _ => Counts) h (h ifindex), trivial⟩

theorem tallied_sendRow {i : Nat} {rows : Fin conf.num_interfaces → List pkt_info}
    (h : ∀ j, Counts (xsks j)) (hrows : ∀ j, (rows j).length ≤ conf.batch_size) :
    Tallied (sendRow seen xsks ifindex i rows) := by
  rcases sendRow_cases seen xsks ifindex i rows with
    ⟨-, heq⟩ | ⟨hi, ⟨xsk', ⟨tx, rfl, htx⟩, heq⟩ | ⟨-, ⟨xsks', hc, heq⟩ | ⟨-, heq⟩⟩⟩
  · rw [heq]
    exact ⟨h, trivial⟩
  · rw [heq]
    refine ⟨forall_update (P := fun _ => Counts) h ?_, hrows⟩
    have hcount := h ⟨i, hi⟩
    unfold Counts at hcount ⊢
    dsimp only
    rw [htx, List.length_append]
    omega
  · rw [heq]
    exact ⟨counts_complete_tx h hc, hrows⟩
  · rw [heq]
    exact ⟨h, trivial⟩

theorem counts_kernelReceive {xsk : xsk_socket_info} (offset len : Nat) (h : Counts xsk) :
    Counts (kernelReceive conf offset len xsk) := by
  rcases kernelReceive_cases conf offset len xsk with ⟨-, heq⟩ | ⟨addr, fq, rx, -, -, heq⟩
  · rw [heq]
    exact h
  · rw [heq]
    exact h

theorem counts_kernelTransmit {xsk : xsk_socket_info} (h : Counts xsk) :
    Counts (kernelTransmit xsk) := by
  rcases kernelTransmit_cases xsk with ⟨-, heq⟩ | ⟨pkt, tx, cq, htx, hcq, heq⟩
  · rw [heq]
    exact h
  · rw [heq]
    unfold Counts at h ⊢
    rw [htx, List.length_cons] at h
    dsimp only
    rw [hcq, List.length_append, List.length_singleton]
    omega

theorem tallied_step (hb : conf.batch_size ≤ 255) {w : Worker conf} (h : Tallied w)
    (e : Event conf) : Tallied (step w e) := by
  obtain ⟨xsks, phase⟩ := w
  obtain ⟨hcounts, hrows⟩ := h
  cases e with
  | process_batch ifindex seenTx seenRx processor =>
    cases phase with
    | idle =>
      change Tallied (process_batch seenTx seenRx processor xsks ifindex)
      unfold process_batch
      cases hc : complete_tx seenTx xsks ifindex with
      | none => exact ⟨hcounts, trivial⟩
      | some xsks' => exact tallied_receiveBatch hb (counts_complete_tx hcounts hc) processor
    | sending ifindex' i rows => exact ⟨hcounts, hrows⟩
    | exited => exact ⟨hcounts, hrows⟩
  | turn seen =>
    cases phase with
    | idle => exact ⟨hcounts, hrows⟩
    | sending ifindex i rows => exact tallied_sendRow hcounts hrows
    | exited => exact ⟨hcounts, hrows⟩
  | receive i offset len =>
    exact ⟨forall_update (P := fun _ => Counts) hcounts
      (counts_kernelReceive offset len (hcounts i)), hrows⟩
  | transmit i => exact ⟨forall_update (P := fun _ => Counts) hcounts
      (counts_kernelTransmit (hcounts i)), hrows⟩

/-- In every state of a run, each socket counts the frames in its transmit and
completion rings. -/
theorem tallied_run (hb : conf.batch_size ≤ 255) (events : List (Event conf)) :
    Tallied (run step (Worker.start conf) events) :=
  run_invariant Tallied events (fun _ e h => tallied_step hb h e) ⟨fun _ => rfl, trivial⟩

end edge_cookie.xsknf
