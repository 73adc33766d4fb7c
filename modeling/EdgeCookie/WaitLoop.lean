-- The wait for room in a transmit ring. The loop takes completed frames of the
-- interface that received the batch, not of the one that it waits for. So when
-- both rings of another interface are full, the wait never ends.
import EdgeCookie.RingMoves

namespace edge_cookie.xsknf

open batch runs

variable {conf : xsknf_config} {xsks xsks' : Xsks conf} {ifindex i : Fin conf.num_interfaces}
  {rows : Fin conf.num_interfaces → List pkt_info} {seen : Nat}

/-! ## What can end a wait -/

/-- The transmit ring has room for the row. -/
def HasRoom (xsk : xsk_socket_info) (row : List pkt_info) : Prop :=
  xsk.tx.entries.length + row.length ≤ XSK_RING_PROD_DEFAULT_NUM_DESCS

/-- The kernel can move a frame from the transmit ring to the completion ring. -/
def KernelCanMove (xsk : xsk_socket_info) : Prop :=
  xsk.tx.entries ≠ [] ∧ xsk.cq.entries.length < comp_size

/-- The `complete_tx` call of the loop takes frames out of the completion ring
of interface `i`. -/
def Reaps (xsks : Xsks conf) (ifindex i : Fin conf.num_interfaces) : Prop :=
  ∀ seen, (released seen xsks ifindex i).cq.entries.length < (xsks i).cq.entries.length

theorem sentOf_pos {xsk : xsk_socket_info} (hb : 0 < conf.batch_size) (h : Counts xsk)
    (hcq : xsk.cq.entries ≠ []) : 0 < sentOf conf seen xsk := by
  have hlen := List.length_pos_iff.mpr hcq
  unfold Counts at h
  have hout : xsk.outstanding_tx ≠ 0 := by omega
  unfold sentOf
  rw [if_neg hout]
  dsimp only
  apply Nat.pos_of_ne_zero
  rw [ne_eq, Fifo.peek_eq_zero_iff]
  by_cases hmany : xsk.outstanding_tx > conf.batch_size
  · rw [if_pos hmany]
    omega
  · rw [if_neg hmany]
    omega

/-- The loop takes frames of the receiving interface, and of no other. -/
theorem reaps_iff (hb : 0 < conf.batch_size) (h : ∀ j, Counts (xsks j)) :
    Reaps xsks ifindex i ↔ ifindex = i ∧ (xsks i).cq.entries ≠ [] := by
  unfold Reaps released
  constructor
  · intro hreap
    by_cases hi : ifindex = i
    · refine ⟨hi, ?_⟩
      intro hnil
      have := hreap 0
      rw [hnil, List.length_nil] at this
      omega
    · have := hreap 0
      rw [Function.update_of_ne (fun h => hi h.symm)] at this
      omega
  · rintro ⟨rfl, hcq⟩ seen
    have hsent : 0 < sentOf conf seen (xsks ifindex) := sentOf_pos hb (h ifindex) hcq
    have hlen := List.length_pos_iff.mpr hcq
    rw [Function.update_self]
    dsimp only
    rw [Fifo.length_release]
    omega

/-- A wait can end when the loop waits for the receiving interface itself, or
the transmit ring has room, or the completion ring is not full. In every other
state of a run nothing can end it. -/
theorem a_wait_can_end_iff (conf : xsknf_config) (hb : conf.batch_size ≤ 255)
    (events : List (Event conf)) (ifindex i : Fin conf.num_interfaces)
    (rows : Fin conf.num_interfaces → List pkt_info) (hrow : rows i ≠ [])
    (hwait : (run step (Worker.start conf) events).phase = .sending ifindex i rows) :
    (HasRoom ((run step (Worker.start conf) events).xsks i) (rows i) ∨
      KernelCanMove ((run step (Worker.start conf) events).xsks i) ∨
      Reaps (run step (Worker.start conf) events).xsks ifindex i) ↔
    (ifindex = i ∨ HasRoom ((run step (Worker.start conf) events).xsks i) (rows i) ∨
      ((run step (Worker.start conf) events).xsks i).cq.entries.length < comp_size) := by
  obtain ⟨hcounts, hrows⟩ := tallied_run hb events
  generalize run step (Worker.start conf) events = w at hwait hcounts hrows ⊢
  rw [hwait] at hrows
  have hlen := hrows i
  have hrowpos := List.length_pos_iff.mpr hrow
  have hbatch : 0 < conf.batch_size := by omega
  constructor
  · rintro (hroom | ⟨-, hcq⟩ | hreap)
    · exact .inr (.inl hroom)
    · exact .inr (.inr hcq)
    · exact .inl ((reaps_iff hbatch hcounts).mp hreap).1
  · intro hcond
    by_cases hroom : HasRoom (w.xsks i) (rows i)
    · exact .inl hroom
    right
    by_cases hcq : (w.xsks i).cq.entries.length < comp_size
    · -- a ring without room for a batch of 255 frames is not empty
      refine .inl ⟨?_, hcq⟩
      intro hnil
      apply hroom
      unfold HasRoom XSK_RING_PROD_DEFAULT_NUM_DESCS
      rw [hnil, List.length_nil]
      omega
    · rcases hcond with hself | hroom' | hcq'
      · refine .inr ((reaps_iff hbatch hcounts).mpr ⟨hself, ?_⟩)
        intro hnil
        rw [hnil] at hcq
        exact hcq (by decide)
      · exact absurd hroom' hroom
      · exact absurd hcq' hcq

/-! ## A wait that never ends -/

/-- The worker waits for an interface other than the receiving one, and both
rings of the interface are full. -/
structure Stuck (ifindex i : Fin conf.num_interfaces)
    (rows : Fin conf.num_interfaces → List pkt_info) (w : Worker conf) : Prop where
  phase : w.phase = .sending ifindex i rows ∨ w.phase = .exited
  no_room : ¬ HasRoom (w.xsks i) (rows i)
  full : (w.xsks i).cq.entries.length = comp_size

theorem kernelTransmit_full {xsk : xsk_socket_info} (h : xsk.cq.entries.length = comp_size) :
    kernelTransmit xsk = xsk := by
  rcases kernelTransmit_cases xsk with ⟨-, heq⟩ | ⟨pkt, tx, cq, -, hcq, -⟩
  · exact heq
  · have hfits := cq.fits
    rw [hcq, List.length_append, List.length_singleton] at hfits
    omega

theorem kernelReceive_keeps (conf : xsknf_config) (offset len : Nat) (xsk : xsk_socket_info) :
    (kernelReceive conf offset len xsk).tx = xsk.tx ∧
      (kernelReceive conf offset len xsk).cq = xsk.cq := by
  rcases kernelReceive_cases conf offset len xsk with ⟨-, heq⟩ | ⟨addr, fq, rx, -, -, heq⟩
  · rw [heq]
    exact ⟨rfl, rfl⟩
  · rw [heq]
    exact ⟨rfl, rfl⟩

/-- A change of another interface leaves the wait as it is. -/
theorem stuck_of_same {w : Worker conf} (hs : Stuck ifindex i rows w) {phase : Phase conf}
    (hp : phase = .sending ifindex i rows ∨ phase = .exited)
    (htx : (xsks i).tx = (w.xsks i).tx) (hcq : (xsks i).cq = (w.xsks i).cq) :
    Stuck ifindex i rows ⟨xsks, phase⟩ := by
  refine ⟨hp, ?_, ?_⟩
  · unfold HasRoom
    dsimp only
    rw [htx]
    exact hs.no_room
  · dsimp only
    rw [hcq]
    exact hs.full

theorem stuck_complete_tx {w : Worker conf} (hs : Stuck ifindex i rows w) (hne : ifindex ≠ i)
    (hc : complete_tx seen w.xsks ifindex = some xsks') :
    Stuck ifindex i rows ⟨xsks', .sending ifindex i rows⟩ := by
  have spec := completed_of_complete_tx hc
  exact stuck_of_same hs (.inl rfl) (spec.tx i) (spec.cq_other i hne.symm)

theorem stuck_turn (hne : ifindex ≠ i) {w : Worker conf} (hs : Stuck ifindex i rows w)
    (seen : Nat) :
    Stuck ifindex i rows (step w (.turn seen)) := by
  rcases hs.phase with hp | hp
  · have hturn : step w (.turn seen) = sendRow seen w.xsks ifindex i rows := by
      unfold step
      rw [hp]
    rw [hturn]
    rcases sendRow_cases seen w.xsks ifindex i rows with
      ⟨hle, -⟩ | ⟨hi, ⟨xsk', ⟨tx, -, htx⟩, -⟩ | ⟨-, ⟨xsks', hc, heq⟩ | ⟨-, heq⟩⟩⟩
    · exact absurd i.isLt (by omega)
    · -- the row fits a ring that has no room for it
      have hfits := tx.fits
      rw [htx, List.length_append] at hfits
      exact absurd hfits hs.no_room
    · rw [heq]
      exact stuck_complete_tx hs hne hc
    · rw [heq]
      exact stuck_of_same hs (.inr rfl) rfl rfl
  · have hturn : step w (.turn seen) = w := by
      unfold step
      rw [hp]
    rw [hturn]
    exact hs

/-- A socket may change as long as it keeps the two rings that the wait is about. -/
theorem stuck_update {w : Worker conf} (hs : Stuck ifindex i rows w) {j : Fin conf.num_interfaces}
    {xsk : xsk_socket_info} (h : i = j → xsk.tx = (w.xsks i).tx ∧ xsk.cq = (w.xsks i).cq) :
    Stuck ifindex i rows { w with xsks := Function.update w.xsks j xsk } := by
  by_cases hj : i = j
  · obtain ⟨htx, hcq⟩ := h hj
    subst hj
    apply stuck_of_same hs hs.phase
    · rw [Function.update_self, htx]
    · rw [Function.update_self, hcq]
  · apply stuck_of_same hs hs.phase
    · rw [Function.update_of_ne hj]
    · rw [Function.update_of_ne hj]

theorem stuck_step (hne : ifindex ≠ i) {w : Worker conf} (hs : Stuck ifindex i rows w)
    (e : Event conf) : Stuck ifindex i rows (step w e) := by
  cases e with
  | process_batch ifindex' seenTx seenRx processor =>
    have hsame : step w (.process_batch ifindex' seenTx seenRx processor) = w := by
      unfold step
      rcases hs.phase with hp | hp
      · rw [hp]
      · rw [hp]
    rw [hsame]
    exact hs
  | turn seen => exact stuck_turn hne hs seen
  | receive j offset len =>
    apply stuck_update hs
    rintro rfl
    exact kernelReceive_keeps conf offset len (w.xsks i)
  | transmit j =>
    apply stuck_update hs
    rintro rfl
    rw [kernelTransmit_full hs.full]
    exact ⟨rfl, rfl⟩

/-- A worker that waits for a full interface other than the receiving one makes
no other call, whatever it and the kernel do. -/
theorem a_stuck_wait_never_ends (hne : ifindex ≠ i) {w : Worker conf}
    (hs : Stuck ifindex i rows w) (events : List (Event conf)) :
    (run step w events).phase = .sending ifindex i rows ∨ (run step w events).phase = .exited :=
  (run_invariant (Stuck ifindex i rows) events (fun _ e h => stuck_step hne h e) hs).phase

/-! ## Many interfaces that send to one -/

/-- Every packet goes to the interface. -/
def allTo (last : Fin conf.num_interfaces) : Processor conf := fun _ => (some last, 60)

/-- A burst of packets comes in on an interface. -/
def arrivals (k : Fin conf.num_interfaces) (n : Nat) : List (Event conf) :=
  List.replicate n (.receive k 0 60)

/-- A burst, and the call on it up to the row of the interface `last`. -/
def callUpTo (k last : Fin conf.num_interfaces) : List (Event conf) :=
  arrivals k 255 ++ .process_batch k 0 255 (allTo last) :: List.replicate last (.turn 0)

/-- The worker is between two calls. The interfaces from `k` up to `last` are
still new, and the rings of `last` hold `t` and `c` frames. -/
structure Ready (last : Fin conf.num_interfaces) (k t c : Nat) (w : Worker conf) : Prop where
  idle : w.phase = .idle
  fresh : ∀ j : Fin conf.num_interfaces, k ≤ j → j < last → w.xsks j = xsknf_init conf j
  tx : (w.xsks last).tx.entries.length = t
  cq : (w.xsks last).cq.entries.length = c

/-- The worker waits to send a full batch of interface `k` to `last`. -/
structure Waiting (last k : Fin conf.num_interfaces) (t c : Nat) (w : Worker conf) : Prop where
  phase : ∃ rows, w.phase = .sending k last rows ∧ (rows last).length = 255 ∧
    ∀ j, last < j → rows j = []
  none_sent : (w.xsks k).outstanding_tx = 0
  fresh : ∀ j : Fin conf.num_interfaces, k < j → j < last → w.xsks j = xsknf_init conf j
  tx : (w.xsks last).tx.entries.length = t
  cq : (w.xsks last).cq.entries.length = c

variable {last k : Fin conf.num_interfaces} {t c n : Nat} {w : Worker conf}

theorem length_init_fq (k : Fin conf.num_interfaces) :
    (xsknf_init conf k).fq.entries.length = FRAMES_PER_SOCKET := by
  unfold xsknf_init xsk_configure_socket
  rw [List.length_map, List.length_range]

/-- A burst fills the receive ring, and changes nothing else but the fill ring. -/
theorem run_arrivals (hrx : (w.xsks k).rx.entries.length + n ≤ XSK_RING_CONS_DEFAULT_NUM_DESCS)
    (hfq : n ≤ (w.xsks k).fq.entries.length) :
    ∃ fq rx, (Fifo.entries rx).length = (w.xsks k).rx.entries.length + n ∧
      run step w (arrivals k n) =
        ⟨Function.update w.xsks k { w.xsks k with fq := fq, rx := rx }, w.phase⟩ := by
  induction n generalizing w with
  | zero =>
    refine ⟨(w.xsks k).fq, (w.xsks k).rx, rfl, ?_⟩
    rw [Function.update_eq_self]
    rfl
  | succ n ih =>
    rcases kernelReceive_cases conf 0 60 (w.xsks k) with
      ⟨hnil | hfull, -⟩ | ⟨addr, fq₁, rx₁, hfq₁, hrx₁, heq⟩
    · rw [hnil, List.length_nil] at hfq
      omega
    · omega
    have hself : (step w (.receive k 0 60)).xsks k = { w.xsks k with fq := fq₁, rx := rx₁ } := by
      unfold step
      dsimp only
      rw [Function.update_self, heq]
    have hlen₁ : rx₁.entries.length = (w.xsks k).rx.entries.length + 1 := by
      rw [hrx₁, List.length_append, List.length_singleton]
    rw [hfq₁, List.length_cons] at hfq
    obtain ⟨fq, rx, hlen, hrun⟩ := @ih (step w (.receive k 0 60))
      (by rw [hself]; dsimp only; omega) (by rw [hself]; dsimp only; omega)
    rw [hself] at hlen hrun
    refine ⟨fq, rx, by dsimp only at hlen; omega, ?_⟩
    change run step (step w (.receive k 0 60)) (arrivals k n) = _
    rw [hrun]
    unfold step
    dsimp only
    rw [Function.update_idem]

/-- The kernel moves frames of the interface to its completion ring. -/
theorem ready_transmit (h : Ready last n t c w) (m : Nat) (hm : m ≤ t) (hc : c + m ≤ comp_size) :
    Ready last n (t - m) (c + m) (run step w (List.replicate m (.transmit last))) := by
  induction m generalizing w t c with
  | zero => exact h
  | succ m ih =>
    rcases kernelTransmit_cases (w.xsks last) with
      ⟨hnil | hfull, -⟩ | ⟨pkt, tx, cq, htx, hcq, heq⟩
    · have := h.tx
      rw [hnil, List.length_nil] at this
      omega
    · have := h.cq
      omega
    have hone : Ready last n (t - 1) (c + 1) (step w (.transmit last)) := by
      refine ⟨h.idle, ?_, ?_, ?_⟩
      · intro j hj hlast
        unfold step
        dsimp only
        rw [Function.update_of_ne (Fin.ne_of_lt hlast)]
        exact h.fresh j hj hlast
      · have := h.tx
        rw [htx, List.length_cons] at this
        unfold step
        dsimp only
        rw [Function.update_self, heq]
        dsimp only
        omega
      · have := h.cq
        unfold step
        dsimp only
        rw [Function.update_self, heq]
        dsimp only
        rw [hcq, List.length_append, List.length_singleton]
        omega
    have hrest := ih hone (by omega) (by omega)
    rw [show t - (m + 1) = t - 1 - m by omega, show c + (m + 1) = c + 1 + m by omega]
    exact hrest

theorem complete_tx_none_outstanding (h : (xsks ifindex).outstanding_tx = 0) :
    complete_tx seen xsks ifindex = some xsks := by
  have hsent : sentOf conf seen (xsks ifindex) = 0 := by
    unfold sentOf
    rw [if_pos h]
  unfold complete_tx
  dsimp only
  rw [if_pos hsent]

theorem mem_sorted_allTo {pkts : List pkt_info} {x : Option (Fin conf.num_interfaces) × pkt_info}
    (hx : x ∈ sorted (allTo last) pkts) : x.1 = some last := by
  unfold sorted at hx
  obtain ⟨m, hm, rfl⟩ := List.mem_mapIdx.mp hx
  rfl

/-- A batch of 255 packets for one interface is one full row. -/
theorem receiveBatch_allTo (last : Fin conf.num_interfaces) (hb : conf.batch_size = 255)
    (hrx : (xsks k).rx.entries.length = 255) :
    ∃ xsk' rows, receiveBatch 255 (allTo last) xsks k =
        ⟨Function.update xsks k xsk', .sending k 0 rows⟩ ∧
      xsk'.outstanding_tx = (xsks k).outstanding_tx ∧
      (rows last).length = 255 ∧ ∀ j, j ≠ last → rows j = [] := by
  have hpeek : (xsks k).rx.peek conf.batch_size 255 = 255 := by
    rw [Fifo.peek_all (by omega) (by omega), hrx]
  have hpkts : (received conf 255 (xsks k)).length = 255 := by
    unfold received Fifo.first
    rw [hpeek, List.length_take, hrx]
    rfl
  have hrow := to_tx_eq_rowOf (show conf.batch_size ≤ 255 by omega) 255 (allTo last) (xsks k)
  have hother : ∀ j, j ≠ some last → to_tx (allTo last) (received conf 255 (xsks k)) j = [] := by
    intro j hj
    rw [hrow]
    apply rowOf_eq_nil
    intro x hx
    rw [mem_sorted_allTo hx]
    exact hj.symm
  rcases receiveBatch_cases 255 (allTo last) xsks k with
    ⟨h0, -⟩ | ⟨xsk', ⟨fq, rfl, -⟩, heq⟩ | ⟨hlt, -⟩
  · omega
  · refine ⟨_, _, heq, rfl, ?_, ?_⟩
    · rw [hrow, rowOf_of_forall fun x hx => mem_sorted_allTo hx, List.length_map, length_sorted]
      exact hpkts
    · intro j hj
      exact hother (some j) fun h => hj (Option.some.inj h)
  · have hfits := (xsks k).fq.fits
    rw [hother none (by intro h; cases h), List.length_nil] at hlt
    omega

/-- The loop goes over empty rows. -/
theorem run_turns_empty {m a : Nat} {rows : Fin conf.num_interfaces → List pkt_info}
    (hp : w.phase = .sending k a rows) (ha : a + m ≤ conf.num_interfaces)
    (hrows : ∀ j : Fin conf.num_interfaces, a ≤ j → j < a + m → rows j = []) :
    run step w (List.replicate m (.turn 0)) = ⟨w.xsks, .sending k (a + m) rows⟩ := by
  induction m generalizing w a with
  | zero =>
    obtain ⟨xsks, phase⟩ := w
    dsimp only at hp
    rw [hp]
    rfl
  | succ m ih =>
    have hturn : step w (.turn 0) = ⟨w.xsks, .sending k (a + 1) rows⟩ := by
      unfold step
      rw [hp]
      dsimp only
      unfold sendRow
      rw [dif_pos (by omega)]
      dsimp only
      rw [if_pos (hrows ⟨a, by omega⟩ (Nat.le_refl a) (by dsimp only; omega))]
    change run step (step w (.turn 0)) (List.replicate m (.turn 0)) = _
    rw [hturn, ih rfl (by omega) fun j hj hlt => hrows j (by omega) (by omega),
      show a + 1 + m = a + (m + 1) by omega]

/-- A burst on a new interface and the call on it end in a wait for `last`. -/
theorem waiting_call (hb : conf.batch_size = 255) (h : Ready last k t c w) (hk : k < last) :
    Waiting last k t c (run step w (callUpTo k last)) := by
  have hnew := h.fresh k (Nat.le_refl _) hk
  have hne : last ≠ k := (Fin.ne_of_lt hk).symm
  have hrx : (w.xsks k).rx.entries = [] := by
    rw [hnew]
    rfl
  have hfq : (w.xsks k).fq.entries.length = FRAMES_PER_SOCKET := by
    rw [hnew]
    exact length_init_fq k
  have hout : (w.xsks k).outstanding_tx = 0 := by
    rw [hnew]
    rfl
  obtain ⟨fq, rx, hlen, hrun⟩ := run_arrivals (w := w) (k := k) (n := 255)
    (by rw [hrx]; decide) (by rw [hfq]; decide)
  rw [hrx, List.length_nil, Nat.zero_add] at hlen
  unfold callUpTo
  rw [run_append, hrun, h.idle]
  generalize hx : Function.update w.xsks k { w.xsks k with fq := fq, rx := rx } = xsks₁
  have hself : xsks₁ k = { w.xsks k with fq := fq, rx := rx } := by
    rw [← hx, Function.update_self]
  have hother : ∀ j, j ≠ k → xsks₁ j = w.xsks j := by
    intro j hj
    rw [← hx, Function.update_of_ne hj]
  obtain ⟨xsk', rows, hbatch, hsent, hrow, hrest⟩ := receiveBatch_allTo last hb
    (show (xsks₁ k).rx.entries.length = 255 by rw [hself]; exact hlen)
  have hcall : step ⟨xsks₁, .idle⟩ (.process_batch k 0 255 (allTo last)) =
      ⟨Function.update xsks₁ k xsk', .sending k 0 rows⟩ := by
    change process_batch 0 255 (allTo last) xsks₁ k = _
    unfold process_batch
    rw [complete_tx_none_outstanding (by rw [hself]; exact hout)]
    exact hbatch
  have hturns := run_turns_empty (w := ⟨Function.update xsks₁ k xsk', .sending k 0 rows⟩)
    (m := last) rfl (by omega) fun j _ hj => hrest j (Fin.ne_of_lt (by omega))
  change Waiting last k t c (run step (step ⟨xsks₁, .idle⟩ (.process_batch k 0 255 (allTo last)))
    (List.replicate last (.turn 0)))
  rw [hcall, hturns, Nat.zero_add]
  refine ⟨⟨rows, rfl, hrow, fun j hj => hrest j (Fin.ne_of_gt hj)⟩, ?_, ?_, ?_, ?_⟩
  · dsimp only
    rw [Function.update_self, hsent, hself]
    exact hout
  · intro j hkj hj
    dsimp only
    rw [Function.update_of_ne (Fin.ne_of_gt hkj), hother j (Fin.ne_of_gt hkj)]
    exact h.fresh j (Nat.le_of_lt hkj) hj
  · dsimp only
    rw [Function.update_of_ne hne, hother last hne]
    exact h.tx
  · dsimp only
    rw [Function.update_of_ne hne, hother last hne]
    exact h.cq

/-- The rest of the call, when the row fits: the row is sent, and the loop ends. -/
def callRest (last : Fin conf.num_interfaces) : List (Event conf) :=
  .turn 0 :: List.replicate (conf.num_interfaces - (last + 1)) (.turn 0) ++ [.turn 0]

theorem ready_callRest (h : Waiting last k t c w) (ht : t + 255 ≤ XSK_RING_PROD_DEFAULT_NUM_DESCS) :
    Ready last (k + 1) (t + 255) c (run step w (callRest last)) := by
  obtain ⟨rows, hp, hrow, hrest⟩ := h.phase
  obtain ⟨xsk', ⟨tx, rfl, htx⟩, hsend⟩ : ∃ xsk', Sent (rows last) (w.xsks last) xsk' ∧
      step w (.turn 0) = ⟨Function.update w.xsks last xsk', .sending k (last + 1) rows⟩ := by
    have hturn : step w (.turn 0) = sendRow 0 w.xsks k last rows := by
      unfold step
      rw [hp]
    have htx := h.tx
    rcases sendRow_cases 0 w.xsks k last rows with ⟨hle, -⟩ | ⟨_, ⟨xsk', hsent, heq⟩ | ⟨hfull, -⟩⟩
    · exact absurd last.isLt (by omega)
    · exact ⟨xsk', hsent, hturn.trans heq⟩
    · change _ < (w.xsks last).tx.entries.length + (rows last).length at hfull
      omega
  have hturns := run_turns_empty (w := ⟨Function.update w.xsks last { w.xsks last with
      tx := tx, outstanding_tx := (w.xsks last).outstanding_tx + (rows last).length },
      .sending k (last + 1) rows⟩) (m := conf.num_interfaces - (last + 1)) rfl (by omega)
    fun j hj _ => hrest j (by omega)
  unfold callRest
  rw [run_append]
  change Ready last (k + 1) (t + 255) c (run step (run step (step w (.turn 0))
    (List.replicate (conf.num_interfaces - (last + 1)) (.turn 0))) [.turn 0])
  rw [hsend, hturns, show (last : Nat) + 1 + (conf.num_interfaces - (last + 1)) =
    conf.num_interfaces by omega]
  have hend : ∀ xsks : Xsks conf, run step ⟨xsks, .sending k conf.num_interfaces rows⟩ [.turn 0] =
      ⟨xsks, .idle⟩ := by
    intro xsks
    change sendRow 0 xsks k conf.num_interfaces rows = _
    unfold sendRow
    rw [dif_neg (Nat.lt_irrefl _)]
  rw [hend]
  refine ⟨rfl, ?_, ?_, ?_⟩
  · intro j hkj hj
    dsimp only
    rw [Function.update_of_ne (Fin.ne_of_lt hj)]
    exact h.fresh j hkj hj
  · dsimp only
    rw [Function.update_self]
    dsimp only
    rw [htx, List.length_append, h.tx, hrow]
  · dsimp only
    rw [Function.update_self]
    exact h.cq

variable (last) in
/-- A burst on each of `m` interfaces from the `a`-th on, and the call on each. -/
def bursts (a : Nat) : Nat → List (Event conf)
  | 0 => []
  | m + 1 =>
    if h : a < conf.num_interfaces then
      callUpTo ⟨a, h⟩ last ++ callRest last ++ bursts (a + 1) m
    else []

theorem ready_bursts (hb : conf.batch_size = 255) {a m : Nat} (h : Ready last a t c w)
    (ha : a + m ≤ last) (ht : t + 255 * m ≤ XSK_RING_PROD_DEFAULT_NUM_DESCS) :
    Ready last (a + m) (t + 255 * m) c (run step w (bursts last a m)) := by
  induction m generalizing a t w with
  | zero => exact h
  | succ m ih =>
    have hlt : a < conf.num_interfaces := by omega
    have hone : t + 255 * (m + 1) = t + 255 + 255 * m := by omega
    rw [hone] at ht ⊢
    have hwait := waiting_call (k := ⟨a, hlt⟩) hb h (by change a < last.val; omega)
    have hready := ready_callRest hwait (Nat.le_trans (Nat.le_add_right _ _) ht)
    have hrest := ih hready (by dsimp only; omega) ht
    unfold bursts
    rw [dif_pos hlt, run_append, run_append]
    rw [show a + (m + 1) = a + 1 + m by omega]
    exact hrest

theorem ready_start (last : Fin conf.num_interfaces) :
    Ready last 0 0 0 (Worker.start conf) :=
  ⟨rfl, fun _ _ _ => rfl, rfl, rfl⟩

/-- The worker with 18 interfaces and the largest batch of a byte counter. -/
def manyInterfaces : xsknf_config := ⟨18, 255, 4096⟩

def egress : Fin manyInterfaces.num_interfaces := ⟨17, by decide⟩

/-- The first 16 interfaces send a batch each to the last one, and the kernel
completes frames until the completion ring is full. Then the next interface has
a batch for the last one. -/
def fullEgress : List (Event manyInterfaces) :=
  bursts egress 0 8 ++ List.replicate 2040 (.transmit egress) ++ bursts egress 8 8 ++
    List.replicate 8 (.transmit egress) ++ callUpTo ⟨16, by decide⟩ egress

theorem waiting_fullEgress :
    Waiting egress ⟨16, by decide⟩ 2032 2048
      (run step (Worker.start manyInterfaces) fullEgress) := by
  unfold fullEgress
  rw [run_append, run_append, run_append, run_append]
  have hstart : Ready egress 0 0 0 (Worker.start manyInterfaces) := ready_start egress
  generalize Worker.start manyInterfaces = w at hstart ⊢
  have hfirst : Ready egress 8 2040 0 _ := ready_bursts (m := 8) rfl hstart (by decide) (by decide)
  generalize run step w (bursts egress 0 8) = w at hfirst ⊢
  have hmoved : Ready egress 8 0 2040 _ := ready_transmit hfirst 2040 (by decide) (by decide)
  generalize run step w (List.replicate 2040 (.transmit egress)) = w at hmoved ⊢
  have hsecond : Ready egress 16 2040 2040 _ :=
    ready_bursts (m := 8) rfl hmoved (by decide) (by decide)
  generalize run step w (bursts egress 8 8) = w at hsecond ⊢
  have hfull : Ready egress 16 2032 2048 _ := ready_transmit hsecond 8 (by decide) (by decide)
  generalize run step w (List.replicate 8 (.transmit egress)) = w at hfull ⊢
  exact waiting_call rfl hfull (by decide)

/-- A turn of a wait that has no room and nothing to take changes nothing. -/
theorem waiting_turn (h : Waiting last k t c w) (ht : XSK_RING_PROD_DEFAULT_NUM_DESCS < t + 255) :
    step w (.turn 0) = w := by
  obtain ⟨rows, hp, hrow, -⟩ := h.phase
  have htx := h.tx
  have hturn : step w (.turn 0) = sendRow 0 w.xsks k last rows := by
    unfold step
    rw [hp]
  have hsame : w = ⟨w.xsks, .sending k last rows⟩ := by
    rw [← hp]
  rw [hturn]
  rcases sendRow_cases 0 w.xsks k last rows with
    ⟨hle, -⟩ | ⟨_, ⟨xsk', ⟨tx, -, hfit⟩, -⟩ | ⟨-, ⟨xsks', hc, heq⟩ | ⟨hc, -⟩⟩⟩
  · exact absurd last.isLt (by omega)
  · have hfits := tx.fits
    change tx.entries = (w.xsks last).tx.entries ++ rows last at hfit
    rw [hfit, List.length_append] at hfits
    omega
  · rw [complete_tx_none_outstanding h.none_sent] at hc
    cases hc
    rw [heq]
    exact hsame.symm
  · rw [complete_tx_none_outstanding h.none_sent] at hc
    cases hc

/-- The first batch for the last interface finds room. -/
theorem the_first_wait_for_the_egress_can_end :
    ∃ rows, (run step (Worker.start manyInterfaces) (callUpTo ⟨0, by decide⟩ egress)).phase =
        .sending ⟨0, by decide⟩ egress rows ∧ rows egress ≠ [] ∧
      (HasRoom ((run step (Worker.start manyInterfaces)
          (callUpTo ⟨0, by decide⟩ egress)).xsks egress) (rows egress) ∨
        KernelCanMove ((run step (Worker.start manyInterfaces)
          (callUpTo ⟨0, by decide⟩ egress)).xsks egress) ∨
        Reaps (run step (Worker.start manyInterfaces) (callUpTo ⟨0, by decide⟩ egress)).xsks
          ⟨0, by decide⟩ egress) := by
  have hwait := waiting_call (k := ⟨0, by decide⟩) rfl (ready_start egress) (by decide)
  obtain ⟨rows, hp, hrow, -⟩ := hwait.phase
  have hne : rows egress ≠ [] := List.ne_nil_of_length_pos (by omega)
  have hroom : HasRoom ((run step (Worker.start manyInterfaces)
      (callUpTo ⟨0, by decide⟩ egress)).xsks egress) (rows egress) := by
    unfold HasRoom
    rw [hwait.tx, hrow]
    decide
  exact ⟨rows, hp, hne, (a_wait_can_end_iff manyInterfaces (by decide) _ _ egress rows hne hp).mpr
    (.inr (.inl hroom))⟩

/-- When both rings of the interface are full, nothing can end the wait. -/
theorem full_wait_cannot_end (h : Waiting last k t comp_size w) (hk : k ≠ last)
    (ht : XSK_RING_PROD_DEFAULT_NUM_DESCS < t + 255) (hb : 0 < conf.batch_size)
    (hw : Tallied w) :
    ∃ rows, w.phase = .sending k last rows ∧ rows last ≠ [] ∧ ¬ HasRoom (w.xsks last) (rows last) ∧
      ¬ KernelCanMove (w.xsks last) ∧ ¬ Reaps w.xsks k last := by
  obtain ⟨rows, hp, hrow, -⟩ := h.phase
  refine ⟨rows, hp, List.ne_nil_of_length_pos (by omega), ?_, ?_, ?_⟩
  · unfold HasRoom
    rw [h.tx, hrow]
    omega
  · rintro ⟨-, hlt⟩
    rw [h.cq] at hlt
    omega
  · rw [reaps_iff hb hw.counts]
    rintro ⟨hself, -⟩
    exact hk hself

/-- The worker is inside the loop, and nothing can end the wait: the transmit
ring has 16 free places for 255 frames, the completion ring is full, and the
loop takes frames of an interface that has none to take. -/
theorem the_wait_for_the_full_egress_cannot_end :
    ∃ rows, (run step (Worker.start manyInterfaces) (fullEgress ++ [.turn 0])).phase =
        .sending ⟨16, by decide⟩ egress rows ∧ rows egress ≠ [] ∧
      ¬ HasRoom ((run step (Worker.start manyInterfaces)
          (fullEgress ++ [.turn 0])).xsks egress) (rows egress) ∧
      ¬ KernelCanMove ((run step (Worker.start manyInterfaces)
          (fullEgress ++ [.turn 0])).xsks egress) ∧
      ¬ Reaps (run step (Worker.start manyInterfaces) (fullEgress ++ [.turn 0])).xsks
          ⟨16, by decide⟩ egress := by
  have htally : Tallied (run step (Worker.start manyInterfaces) fullEgress) :=
    tallied_run (by decide) fullEgress
  rw [run_append, run_cons, run_nil, waiting_turn waiting_fullEgress (by decide)]
  exact full_wait_cannot_end waiting_fullEgress (by decide) (by decide) (by decide) htally

end edge_cookie.xsknf
