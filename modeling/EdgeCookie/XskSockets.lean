-- The forwarding loop of a worker over the rings themselves. The sockets of
-- Xsknf have queues in their place; here they have the counters and slots, and
-- every run of a worker is a run over the queues.
import EdgeCookie.RingMoves
import EdgeCookie.XskRing

namespace edge_cookie.xsk

open bytes ring runs batch
open xsknf (xsknf_config pkt_info xsknf_socket_stats owner to_fill to_tx Processor Phase fillAddr
  FRAMES_PER_SOCKET XSK_RING_CONS_DEFAULT_NUM_DESCS XSK_RING_PROD_DEFAULT_NUM_DESCS
    fill_size comp_size)

variable {α : Type} {cap : Nat}

/-! ## Whole lists of entries -/

/-- The loop that writes the entries, each at `idx++`. -/
def writeAll (r : xsk_ring_prod α) (idx : U32) : List α → xsk_ring_prod α
  | [] => r
  | x :: l => writeAll (r.store (slot r idx) x) (idx + 1) l

/-- The loop that reads `n` entries, each at `idx++`. -/
def readAll (r : xsk_ring_cons α) (idx : U32) : Nat → List α
  | 0 => []
  | n + 1 => r.ring (slot r idx) :: readAll r (idx + 1) n

/-- Places are reserved, filled and submitted, when there are enough. -/
def produce (r : xsk_ring_prod α) (l : List α) : Bool × xsk_ring_prod α :=
  let nb := BitVec.ofNat 32 l.length
  let (ret, idx, r) := xsk_ring_prod_reserve r nb 0
  if ret = nb then (true, xsk_ring_prod_submit (writeAll r idx l) nb) else (false, r)

/-- Up to `nb` entries are read and released. -/
def consume (r : xsk_ring_cons α) (nb : U32) : List α × xsk_ring_cons α :=
  let (ret, idx, r) := xsk_ring_cons_peek r nb 0
  (readAll r idx ret.toNat, xsk_ring_cons_release r ret)

/-- The entries between the two counters. -/
def published (r : xsk_ring α) : List α := readAll r r.consumer (r.producer - r.consumer).toNat

/-! ## The rings and the queues -/

/-- The ring stands for the queue, and the program holds no places of it. -/
def IsProd (r : xsk_ring_prod α) (q : Fifo α cap) : Prop :=
  ∃ k c s, cap = 2 ^ k ∧ Fills k c s r q.entries [] 0

/-- The ring stands for the queue, and the program holds no entries of it. -/
def IsCons (r : xsk_ring_cons α) (q : Fifo α cap) : Prop :=
  ∃ k c s, cap = 2 ^ k ∧ Shows k c r q.entries 0 s

section

variable {k c s n : Nat} {r : xsk_ring α} {q : Fifo α cap}

theorem fills_writeAll {q ready l : List α} (h : Fills k c s r q ready n)
    (hn : ready.length + l.length ≤ n) :
    Fills k c s (writeAll r (BitVec.ofNat 32 (c + q.length + ready.length)) l) q
      (ready ++ l) n := by
  induction l generalizing r ready with
  | nil =>
    rw [List.append_nil]
    exact h
  | cons x l ih =>
    rw [List.length_cons] at hn
    have hidx : BitVec.ofNat 32 (c + q.length + ready.length) + 1 =
        BitVec.ofNat 32 (c + q.length + (ready ++ [x]).length) := by
      rw [List.length_append, List.length_singleton, ← Nat.add_assoc, BitVec.ofNat_add _ 1]
      rfl
    have hstore := h.store (by omega) x
    have hrest := ih hstore (by rw [List.length_append, List.length_singleton]; omega)
    rw [writeAll, hidx, List.append_cons ready x l]
    exact hrest

theorem readAll_eq {l : List α} (hs : Shaped k r) (hl : Holds r.ring (2 ^ k) c l) :
    readAll r (BitVec.ofNat 32 c) l.length = l := by
  induction l generalizing c with
  | nil => rfl
  | cons x l ih =>
    have hidx : BitVec.ofNat 32 c + 1 = BitVec.ofNat 32 (c + 1) := by
      rw [BitVec.ofNat_add]
      rfl
    rw [List.length_cons, readAll, hidx, ih (hl.drop 1), hs.slot_eq, hl.head]

theorem IsProd.produce {l : List α} (h : IsProd r q) (hl : l.length < 2 ^ 32) :
    (produce r l).1 = (q.produce l).isSome ∧ IsProd (produce r l).2 ((q.produce l).getD q) := by
  obtain ⟨k, c, s, rfl, h⟩ := h
  have hnb : (BitVec.ofNat 32 l.length).toNat = l.length := by
    rw [BitVec.toNat_ofNat, Nat.mod_eq_of_lt hl]
  rcases Nat.lt_or_ge (2 ^ k) (q.entries.length + l.length) with hfull | hroom
  · obtain ⟨r', hr', hfills, hne⟩ := h.reserve_full (BitVec.ofNat 32 l.length) 0 (by omega)
    simp only [xsk.produce, hr', hne.symm, if_false, Fifo.produce_eq_none_iff.mpr hfull]
    exact ⟨rfl, k, c, c, rfl, hfills⟩
  · obtain ⟨s', r', hr', hfills⟩ := h.reserve (BitVec.ofNat 32 l.length) 0 (by omega)
    obtain ⟨q', hq'⟩ := Fifo.exists_produce hroom
    have hwrite := fills_writeAll (l := l) hfills (by rw [hnb, List.length_nil, Nat.zero_add])
    have hsubmit := hwrite.submit (by rw [hnb]; rfl) rfl
    simp only [xsk.produce, hr', if_true, hq', Option.isSome_some, Option.getD_some]
    refine ⟨trivial, k, c, s', rfl, ?_⟩
    rw [Fifo.produce_eq_some hq']
    exact hsubmit

theorem IsCons.consume (h : IsCons r q) (nb : U32) :
    ∃ seen, (consume r nb).1 = q.first (q.peek nb.toNat seen) ∧
      IsCons (consume r nb).2 (q.release (q.peek nb.toNat seen)) := by
  obtain ⟨k, c, s, rfl, h⟩ := h
  obtain ⟨ret, r', hr', hret, hshows⟩ := h.peek nb 0
  have hpeek : q.peek nb.toNat (knownOf q.entries s) = ret.toNat := by
    rw [hret, peek_knownOf (Nat.le_of_add_left_le h.known)]
  have hle : ret.toNat ≤ q.entries.length := Nat.le_of_add_right_le hshows.known
  refine ⟨knownOf q.entries s, ?_, ?_⟩
  · rw [hpeek]
    simp only [xsk.consume, hr']
    by_cases hzero : ret = 0
    · simp only [hzero, if_true]
      rfl
    · simp only [hzero, if_false]
      have hholds :
          Holds r'.ring (2 ^ k) c (q.first ret.toNat ++ (q.release ret.toNat).entries) := by
        rw [Fifo.first_append_release]
        exact hshows.holds
      have hread := readAll_eq hshows.shaped hholds.left
      rw [Fifo.first, List.length_take, Nat.min_eq_left hle] at hread
      exact hread
  · simp only [xsk.consume, hr', hpeek]
    exact ⟨k, c + ret.toNat, _, rfl, hshows.release rfl⟩

theorem IsProd.published_eq (h : IsProd r q) : published r = q.entries := by
  obtain ⟨k, c, s, rfl, h⟩ := h
  rw [published, h.length_toNat, h.consumer]
  exact readAll_eq h.shaped h.holds.left

theorem IsCons.published_eq (h : IsCons r q) : published r = q.entries := by
  obtain ⟨k, c, s, rfl, h⟩ := h
  rw [published, h.length_toNat, h.consumer]
  exact readAll_eq h.shaped h.holds

/-- The kernel takes the oldest entry. -/
theorem IsProd.take {x : α} {rest : List α} (h : IsProd r q) (hq : q.entries = x :: rest) :
    ∃ r', kernelTake r = some (x, r') ∧ IsProd r' (q.release 1) := by
  obtain ⟨k, c, s, rfl, h⟩ := h
  obtain ⟨r', hr', htake⟩ := h.take hq
  rw [← Fifo.entries_release_one hq] at htake
  exact ⟨r', hr', k, c + 1, s, rfl, htake⟩

theorem IsProd.take_empty (h : IsProd r q) (hq : q.entries = []) : kernelTake r = none := by
  obtain ⟨k, c, s, rfl, h⟩ := h
  exact h.take_empty hq

/-- The kernel puts an entry in when the queue has room. -/
theorem IsCons.post {x : α} {q' : Fifo α cap} (h : IsCons r q) (hq : q.produce [x] = some q') :
    ∃ r', kernelPost r x = some r' ∧ IsCons r' q' := by
  obtain ⟨k, c, s, rfl, h⟩ := h
  have hfits := q'.fits
  rw [Fifo.produce_eq_some hq, List.length_append, List.length_singleton] at hfits
  obtain ⟨r', hr', hpost⟩ := h.post hfits x
  rw [← Fifo.produce_eq_some hq] at hpost
  exact ⟨r', hr', k, c, s, rfl, hpost⟩

theorem IsCons.post_full {x : α} (h : IsCons r q) (hq : q.produce [x] = none) :
    kernelPost r x = none := by
  obtain ⟨k, c, s, rfl, h⟩ := h
  have hfull := Fifo.produce_eq_none_iff.mp hq
  have hfits := q.fits
  rw [List.length_singleton] at hfull
  exact h.post_full (by omega) x

end

/-! ## The sockets -/

structure xsk_socket_info where
  rx : xsk_ring_cons pkt_info
  tx : xsk_ring_prod pkt_info
  fq : xsk_ring_prod Nat
  cq : xsk_ring_cons Nat
  stats : xsknf_socket_stats
  outstanding_tx : Nat

variable {conf : xsknf_config}

/-- The memory of the rings is zero at first. -/
def emptyDesc (_ : Nat) : pkt_info := ⟨0, 0⟩

variable (conf) in
/-- A new socket: the frames are written into the fill ring. -/
def xsk_configure_socket (umem_offset : Nat) : xsk_socket_info where
  rx := newCons (BitVec.ofNat 32 XSK_RING_CONS_DEFAULT_NUM_DESCS) 0 emptyDesc
  tx := newProd (BitVec.ofNat 32 XSK_RING_PROD_DEFAULT_NUM_DESCS) 0 emptyDesc
  fq := (produce (newProd (BitVec.ofNat 32 fill_size) 0 fun _ => 0)
    ((List.range FRAMES_PER_SOCKET).map (fillAddr conf umem_offset))).2
  cq := newCons (BitVec.ofNat 32 comp_size) 0 fun _ => 0
  stats := ⟨0, 0⟩
  outstanding_tx := 0

abbrev Xsks (conf : xsknf_config) := Fin conf.num_interfaces → xsk_socket_info

variable (conf) in
def xsknf_init : Xsks conf := fun if_idx => xsk_configure_socket conf (if_idx * FRAMES_PER_SOCKET)

/-- The frames go back to the fill ring, or the program exits. -/
def refill (xsk : xsk_socket_info) (addrs : List Nat) : Option xsk_socket_info :=
  if addrs = [] then some xsk
  else
    match produce xsk.fq addrs with
    | (true, fq) => some { xsk with fq := fq }
    | (false, _) => none

def refillAll (rows : Fin conf.num_interfaces → List Nat) (xsks : Xsks conf) : Option (Xsks conf) :=
  forEach (fun i xsk => refill xsk (rows i)) (List.finRange conf.num_interfaces) xsks

def complete_tx (xsks : Xsks conf) (ifindex : Fin conf.num_interfaces) : Option (Xsks conf) :=
  let tx_xsk := xsks ifindex
  if tx_xsk.outstanding_tx = 0 then some xsks
  else
    let ndescs :=
      if tx_xsk.outstanding_tx > conf.batch_size then conf.batch_size else tx_xsk.outstanding_tx
    let (addrs, cq) := consume tx_xsk.cq (BitVec.ofNat 32 ndescs)
    let sent := addrs.length
    if sent = 0 then some (Function.update xsks ifindex { tx_xsk with cq := cq })
    else if ∃ addr ∈ addrs, conf.num_interfaces ≤ owner conf addr then none
    else
      (refillAll (fun i => to_fill conf addrs (some i)) (Function.update xsks ifindex
        { tx_xsk with cq := cq, stats := tx_xsk.stats.sent sent })).map fun xsks =>
          Function.update xsks ifindex
            { xsks ifindex with outstanding_tx := (xsks ifindex).outstanding_tx - sent }

/-! ## A batch -/

structure Worker (conf : xsknf_config) where
  xsks : Xsks conf
  phase : Phase conf

variable (conf) in
def Worker.start : Worker conf := ⟨xsknf_init conf, .idle⟩

def receiveBatch (processor : Processor conf) (xsks : Xsks conf)
    (ifindex : Fin conf.num_interfaces) :
    Worker conf :=
  let rx_xsk := xsks ifindex
  let (pkts, rx) := consume rx_xsk.rx (BitVec.ofNat 32 conf.batch_size)
  let rcvd := pkts.length
  if rcvd = 0 then ⟨Function.update xsks ifindex { rx_xsk with rx := rx }, .idle⟩
  else
    let rows := to_tx processor pkts
    let rx_xsk := { rx_xsk with rx := rx, stats := rx_xsk.stats.rcvd rcvd }
    match refill rx_xsk ((rows none).map pkt_info.addr) with
    | none => ⟨Function.update xsks ifindex rx_xsk, .exited⟩
    | some rx_xsk =>
      ⟨Function.update xsks ifindex rx_xsk, .sending ifindex 0 fun i => rows (some i)⟩

def process_batch (processor : Processor conf) (xsks : Xsks conf)
    (ifindex : Fin conf.num_interfaces) :
    Worker conf :=
  match complete_tx xsks ifindex with
  | none => ⟨xsks, .exited⟩
  | some xsks => receiveBatch processor xsks ifindex

/-- One turn of the loop that sends. A failed reservation leaves a new copy of
the consumer in the ring. -/
def sendRow (xsks : Xsks conf) (ifindex : Fin conf.num_interfaces) (i : Nat)
    (rows : Fin conf.num_interfaces → List pkt_info) : Worker conf :=
  if h : i < conf.num_interfaces then
    let row := rows ⟨i, h⟩
    let xsk := xsks ⟨i, h⟩
    if row = [] then ⟨xsks, .sending ifindex (i + 1) rows⟩
    else
      match produce xsk.tx row with
      | (true, tx) =>
        let xsk := { xsk with tx := tx, outstanding_tx := xsk.outstanding_tx + row.length }
        ⟨Function.update xsks ⟨i, h⟩ xsk, .sending ifindex (i + 1) rows⟩
      | (false, tx) =>
        let xsks := Function.update xsks ⟨i, h⟩ { xsk with tx := tx }
        match complete_tx xsks ifindex with
        | none => ⟨xsks, .exited⟩
        | some xsks => ⟨xsks, .sending ifindex i rows⟩
  else ⟨xsks, .idle⟩

/-! ## The kernel -/

variable (conf) in
def kernelReceive (offset len : Nat) (xsk : xsk_socket_info) : xsk_socket_info :=
  match kernelTake xsk.fq with
  | none => xsk
  | some (addr, fq) =>
    let size := conf.xsk_frame_size
    match kernelPost xsk.rx ⟨addr / size * size + offset % size, len⟩ with
    | none => xsk
    | some rx => { xsk with fq := fq, rx := rx }

def kernelTransmit (xsk : xsk_socket_info) : xsk_socket_info :=
  match kernelTake xsk.tx with
  | none => xsk
  | some (pkt, tx) =>
    match kernelPost xsk.cq pkt.addr with
    | none => xsk
    | some cq => { xsk with tx := tx, cq := cq }

/-! ## Runs -/

inductive Event (conf : xsknf_config) where
  | process_batch (ifindex : Fin conf.num_interfaces) (processor : Processor conf)
  | turn
  | receive (i : Fin conf.num_interfaces) (offset len : Nat)
  | transmit (i : Fin conf.num_interfaces)

def step (w : Worker conf) : Event conf → Worker conf
  | .process_batch ifindex processor =>
    match w.phase with
    | .idle => process_batch processor w.xsks ifindex
    | _ => w
  | .turn =>
    match w.phase with
    | .sending ifindex i rows => sendRow w.xsks ifindex i rows
    | _ => w
  | .receive i offset len =>
    { w with xsks := Function.update w.xsks i (kernelReceive conf offset len (w.xsks i)) }
  | .transmit i => { w with xsks := Function.update w.xsks i (kernelTransmit (w.xsks i)) }

/-- The event without what the queues cannot tell: how far the copies of the
counters see. -/
def eventOf : xsknf.Event conf → Event conf
  | .process_batch ifindex _ _ processor => .process_batch ifindex processor
  | .turn _ => .turn
  | .receive i offset len => .receive i offset len
  | .transmit i => .transmit i

/-! ## A socket and its queues -/

/-- The socket with rings stands for the socket with queues. -/
structure Stands (x : xsk_socket_info) (y : xsknf.xsk_socket_info) : Prop where
  rx : IsCons x.rx y.rx
  tx : IsProd x.tx y.tx
  fq : IsProd x.fq y.fq
  cq : IsCons x.cq y.cq
  stats : x.stats = y.stats
  outstanding_tx : x.outstanding_tx = y.outstanding_tx

section

variable {x : xsk_socket_info} {y : xsknf.xsk_socket_info}

theorem Stands.receive (h : Stands x y) (offset len : Nat) :
    Stands (kernelReceive conf offset len x) (xsknf.kernelReceive conf offset len y) := by
  unfold kernelReceive xsknf.kernelReceive
  cases hq : y.fq.entries with
  | nil =>
    simp only [h.fq.take_empty hq]
    exact h
  | cons addr rest =>
    obtain ⟨fq, hfq, htake⟩ := h.fq.take hq
    simp only [hfq]
    cases hrx : y.rx.produce
        [⟨addr / conf.xsk_frame_size * conf.xsk_frame_size + offset % conf.xsk_frame_size,
          len⟩] with
    | none =>
      simp only [h.rx.post_full hrx]
      exact h
    | some rx' =>
      obtain ⟨rx, hpost, hrx'⟩ := h.rx.post hrx
      simp only [hpost]
      exact { h with rx := hrx', fq := htake }

theorem Stands.transmit (h : Stands x y) : Stands (kernelTransmit x) (xsknf.kernelTransmit y) := by
  unfold kernelTransmit xsknf.kernelTransmit
  cases hq : y.tx.entries with
  | nil =>
    simp only [h.tx.take_empty hq]
    exact h
  | cons pkt rest =>
    obtain ⟨tx, htx, htake⟩ := h.tx.take hq
    simp only [htx]
    cases hcq : y.cq.produce [pkt.addr] with
    | none =>
      simp only [h.cq.post_full hcq]
      exact h
    | some cq' =>
      obtain ⟨cq, hpost, hcq'⟩ := h.cq.post hcq
      simp only [hpost]
      exact { h with tx := htake, cq := hcq' }

/-- The two sockets refill together. -/
theorem Stands.refill (h : Stands x y) {addrs : List Nat} (hlen : addrs.length < 2 ^ 32) :
    Option.Rel Stands (refill x addrs) (xsknf.refill y addrs) := by
  unfold xsk.refill xsknf.refill
  by_cases hnil : addrs = []
  · simp only [hnil, if_true]
    exact .some h
  · simp only [hnil, if_false]
    obtain ⟨hans, hfq⟩ := h.fq.produce hlen
    rcases hp : produce x.fq addrs with ⟨ans, fq⟩
    rw [hp] at hans hfq
    cases hq : y.fq.produce addrs with
    | none =>
      rw [hq] at hans
      cases hans
      exact .none
    | some fq' =>
      rw [hq] at hans hfq
      cases hans
      exact .some { h with fq := hfq }

end

/-! ## The sockets of a worker and their queues -/

/-- Each socket stands for its own. -/
def AllStand (xsks : Xsks conf) (ysks : xsknf.Xsks conf) : Prop := ∀ i, Stands (xsks i) (ysks i)

section

variable {xsks : Xsks conf} {ysks : xsknf.Xsks conf} {ifindex : Fin conf.num_interfaces}

theorem AllStand.update (h : AllStand xsks ysks) {x : xsk_socket_info} {y : xsknf.xsk_socket_info}
    (hxy : Stands x y) :
    AllStand (Function.update xsks ifindex x) (Function.update ysks ifindex y) := by
  intro i
  by_cases hi : i = ifindex
  · subst hi
    rw [Function.update_self, Function.update_self]
    exact hxy
  · rw [Function.update_of_ne hi, Function.update_of_ne hi]
    exact h i

/-- A socket whose copies of the counters are new stands for the same one. -/
theorem AllStand.update_left (h : AllStand xsks ysks) {x : xsk_socket_info}
    (hx : Stands x (ysks ifindex)) :
    AllStand (Function.update xsks ifindex x) ysks := by
  have hup :
      AllStand (Function.update xsks ifindex x) (Function.update ysks ifindex (ysks ifindex)) :=
    h.update hx
  rw [Function.update_eq_self] at hup
  exact hup

theorem AllStand.refillAll (h : AllStand xsks ysks) {rows : Fin conf.num_interfaces → List Nat}
    (hrows : ∀ i, (rows i).length < 2 ^ 32) :
    Option.Rel AllStand (refillAll rows xsks) (xsknf.refillAll rows ysks) :=
  forEach_related Stands (fun i _ _ hxy => hxy.refill (hrows i)) h

theorem length_to_fill_lt (addrs : List Nat) (i : Option (Fin conf.num_interfaces)) :
    (to_fill conf addrs i).length < 2 ^ 32 := by
  unfold to_fill
  rw [length_spread]
  omega

/-- The number of frames that `complete_tx` asks for. -/
def ndescsOf (conf : xsknf_config) (outstanding_tx : Nat) : Nat :=
  if outstanding_tx > conf.batch_size then conf.batch_size else outstanding_tx

theorem ndescsOf_toNat (hbatch : conf.batch_size < 2 ^ 32) (outstanding_tx : Nat) :
    (BitVec.ofNat 32 (ndescsOf conf outstanding_tx)).toNat = ndescsOf conf outstanding_tx := by
  rw [BitVec.toNat_ofNat, Nat.mod_eq_of_lt]
  unfold ndescsOf
  split
  · exact hbatch
  · omega

/-- A call that finds no outstanding frames does nothing. -/
theorem AllStand.complete_tx_idle (h : AllStand xsks ysks)
    (h0 : (xsks ifindex).outstanding_tx = 0) :
    Option.Rel AllStand (complete_tx xsks ifindex) (xsknf.complete_tx 0 ysks ifindex) := by
  have hsent : xsknf.sentOf conf 0 (ysks ifindex) = 0 := by
    simp only [xsknf.sentOf, ← (h ifindex).outstanding_tx, h0, if_true]
  simp only [xsk.complete_tx, xsknf.complete_tx, h0, hsent, if_true]
  exact .some h

theorem AllStand.complete_tx (h : AllStand xsks ysks) (hbatch : conf.batch_size < 2 ^ 32) :
    ∃ seen,
      Option.Rel AllStand (complete_tx xsks ifindex) (xsknf.complete_tx seen ysks ifindex) := by
  have hsock := h ifindex
  by_cases h0 : (xsks ifindex).outstanding_tx = 0
  · exact ⟨0, h.complete_tx_idle h0⟩
  obtain ⟨seen, haddrs, hcq⟩ :=
    hsock.cq.consume (BitVec.ofNat 32 (ndescsOf conf (xsks ifindex).outstanding_tx))
  rw [ndescsOf_toNat hbatch] at haddrs hcq
  have hsent : xsknf.sentOf conf seen (ysks ifindex) =
      (ysks ifindex).cq.peek (ndescsOf conf (xsks ifindex).outstanding_tx) seen := by
    rw [hsock.outstanding_tx] at h0 ⊢
    simp only [xsknf.sentOf, h0, if_false]
    rfl
  rw [← hsent] at haddrs hcq
  refine ⟨seen, ?_⟩
  rcases hc :
      consume (xsks ifindex).cq (BitVec.ofNat 32 (ndescsOf conf (xsks ifindex).outstanding_tx)) with
    ⟨addrs, cq⟩
  rw [hc] at haddrs hcq
  dsimp only at haddrs hcq
  subst haddrs
  have hlen : ((ysks ifindex).cq.first (xsknf.sentOf conf seen (ysks ifindex))).length =
      xsknf.sentOf conf seen (ysks ifindex) := by
    rw [Fifo.first, List.length_take, Nat.min_eq_left (xsknf.sentOf_le_length conf seen _)]
  unfold ndescsOf at hc
  simp only [xsk.complete_tx, xsknf.complete_tx, h0, if_false, hc, hlen]
  by_cases hzero : xsknf.sentOf conf seen (ysks ifindex) = 0
  · simp only [hzero, if_true]
    refine .some (h.update_left { hsock with cq := ?_ })
    rw [hzero] at hcq
    exact hcq
  · simp only [hzero, if_false]
    split
    · exact .none
    · have hstand : AllStand
          (Function.update xsks ifindex
            { xsks ifindex with
              cq :=
                cq, stats := (xsks ifindex).stats.sent (xsknf.sentOf conf seen (ysks ifindex)) })
          (xsknf.released seen ysks ifindex) :=
        h.update { hsock with cq := hcq, stats := by rw [hsock.stats] }
      have hfill := hstand.refillAll (fun i => length_to_fill_lt
        ((ysks ifindex).cq.first (xsknf.sentOf conf seen (ysks ifindex))) (some i))
      exact rel_map hfill fun xs ys hall => hall.update
        { hall ifindex with outstanding_tx := by rw [(hall ifindex).outstanding_tx] }

theorem length_to_tx_lt (processor : Processor conf) (pkts : List pkt_info)
    (i : Option (Fin conf.num_interfaces)) : (to_tx processor pkts i).length < 2 ^ 32 := by
  unfold to_tx
  rw [length_spread]
  omega

/-- The two workers are at the same place, with sockets that stand for each
other unless both have exited. -/
structure Agrees (w : Worker conf) (v : xsknf.Worker conf) : Prop where
  phase : w.phase = v.phase
  sockets : v.phase ≠ .exited → AllStand w.xsks v.xsks
  short : ∀ ifindex i rows, v.phase = .sending ifindex i rows → ∀ j, (rows j).length < 2 ^ 32

theorem agrees_exited (xsks : Xsks conf) (ysks : xsknf.Xsks conf) :
    Agrees ⟨xsks, .exited⟩ ⟨ysks, .exited⟩ :=
  ⟨rfl, fun hne => absurd rfl hne, fun _ _ _ h => nomatch h⟩

theorem AllStand.idle (h : AllStand xsks ysks) : Agrees ⟨xsks, .idle⟩ ⟨ysks, .idle⟩ :=
  ⟨rfl, fun _ => h, fun _ _ _ h => nomatch h⟩

theorem AllStand.sending (h : AllStand xsks ysks) {i : Nat}
    {rows : Fin conf.num_interfaces → List pkt_info} (hrows : ∀ j, (rows j).length < 2 ^ 32) :
    Agrees ⟨xsks, .sending ifindex i rows⟩ ⟨ysks, .sending ifindex i rows⟩ := by
  refine ⟨rfl, fun _ => h, ?_⟩
  rintro _ _ _ ⟨⟩
  exact hrows

theorem AllStand.receiveBatch (h : AllStand xsks ysks) (hbatch : conf.batch_size < 2 ^ 32)
    (processor : Processor conf) :
    ∃ seen,
      Agrees (receiveBatch processor xsks ifindex)
        (xsknf.receiveBatch seen processor ysks ifindex) := by
  have hsock := h ifindex
  obtain ⟨seen, hpkts, hrx⟩ := hsock.rx.consume (BitVec.ofNat 32 conf.batch_size)
  rw [BitVec.toNat_ofNat, Nat.mod_eq_of_lt hbatch] at hpkts hrx
  rcases hc : consume (xsks ifindex).rx (BitVec.ofNat 32 conf.batch_size) with ⟨pkts, rx⟩
  rw [hc] at hpkts hrx
  dsimp only at hpkts hrx
  subst hpkts
  have hlen : ((ysks ifindex).rx.first ((ysks ifindex).rx.peek conf.batch_size seen)).length =
      (ysks ifindex).rx.peek conf.batch_size seen := by
    rw [Fifo.first, List.length_take, Nat.min_eq_left Fifo.peek_le_length]
  refine ⟨seen, ?_⟩
  simp only [xsk.receiveBatch, xsknf.receiveBatch, hc, hlen]
  by_cases hzero : (ysks ifindex).rx.peek conf.batch_size seen = 0
  · simp only [hzero, if_true]
    rw [hzero] at hrx
    exact AllStand.idle (h.update_left { hsock with rx := hrx })
  · simp only [hzero, if_false]
    generalize (ysks ifindex).rx.peek conf.batch_size seen = rcvd at hrx ⊢
    generalize hrows : to_tx processor ((ysks ifindex).rx.first rcvd) = rows
    have hstand : Stands { xsks ifindex with rx := rx, stats := (xsks ifindex).stats.rcvd rcvd }
        { ysks ifindex with
          rx := (ysks ifindex).rx.release rcvd, stats := (ysks ifindex).stats.rcvd rcvd } :=
      { hsock with rx := hrx, stats := by rw [hsock.stats] }
    have hlt : ((rows none).map pkt_info.addr).length < 2 ^ 32 := by
      rw [List.length_map, ← hrows]
      exact length_to_tx_lt _ _ _
    rcases rel_cases (hstand.refill hlt) with ⟨hx, hy⟩ | ⟨x, y, hx, hy, hxy⟩
    · dsimp only at hx hy
      simp only [hx, hy]
      exact agrees_exited _ _
    · dsimp only at hx hy
      simp only [hx, hy]
      refine (h.update hxy).sending fun j => ?_
      rw [← hrows]
      exact length_to_tx_lt _ _ _

theorem AllStand.process_batch (h : AllStand xsks ysks) (hbatch : conf.batch_size < 2 ^ 32)
    (processor : Processor conf) :
    ∃ seenTx seenRx, Agrees (process_batch processor xsks ifindex)
      (xsknf.process_batch seenTx seenRx processor ysks ifindex) := by
  obtain ⟨seenTx, hrel⟩ : ∃ seenTx, Option.Rel AllStand (xsk.complete_tx xsks ifindex)
    (xsknf.complete_tx seenTx ysks ifindex) := h.complete_tx hbatch
  rcases rel_cases hrel with ⟨hx, hy⟩ | ⟨xs, ys, hx, hy, hall⟩
  · refine ⟨seenTx, 0, ?_⟩
    simp only [xsk.process_batch, xsknf.process_batch, hx, hy]
    exact agrees_exited _ _
  · obtain ⟨seenRx, hagree⟩ := hall.receiveBatch hbatch processor
    refine ⟨seenTx, seenRx, ?_⟩
    simp only [xsk.process_batch, xsknf.process_batch, hx, hy]
    exact hagree

theorem AllStand.sendRow (h : AllStand xsks ysks) (hbatch : conf.batch_size < 2 ^ 32) {i : Nat}
    {rows : Fin conf.num_interfaces → List pkt_info} (hrows : ∀ i, (rows i).length < 2 ^ 32) :
    ∃ seen, Agrees (sendRow xsks ifindex i rows) (xsknf.sendRow seen ysks ifindex i rows) := by
  unfold xsk.sendRow xsknf.sendRow
  by_cases hi : i < conf.num_interfaces
  · simp only [hi, dif_pos]
    by_cases hnil : rows ⟨i, hi⟩ = []
    · simp only [hnil, if_true]
      exact ⟨0, h.sending hrows⟩
    · simp only [hnil, if_false]
      have hsock := h ⟨i, hi⟩
      obtain ⟨hans, htx⟩ := hsock.tx.produce (hrows ⟨i, hi⟩)
      rcases hp : produce (xsks ⟨i, hi⟩).tx (rows ⟨i, hi⟩) with ⟨ans, tx⟩
      rw [hp] at hans htx
      cases hq : (ysks ⟨i, hi⟩).tx.produce (rows ⟨i, hi⟩) with
      | some tx' =>
        rw [hq] at hans htx
        cases hans
        refine ⟨0, AllStand.sending (h.update ?_) hrows⟩
        exact { hsock with tx := htx, outstanding_tx := by rw [hsock.outstanding_tx] }
      | none =>
        rw [hq] at hans htx
        cases hans
        have hstand : AllStand (Function.update xsks ⟨i, hi⟩ { xsks ⟨i, hi⟩ with tx := tx }) ysks :=
          h.update_left { hsock with tx := htx }
        obtain ⟨seen, hrel⟩ : ∃ seen, Option.Rel AllStand (xsk.complete_tx _ ifindex)
          (xsknf.complete_tx seen ysks ifindex) := hstand.complete_tx hbatch
        refine ⟨seen, ?_⟩
        rcases rel_cases hrel with ⟨hx, hy⟩ | ⟨xs, ys, hx, hy, hall⟩
        · dsimp only at hx
          simp only [hx, hy]
          exact agrees_exited _ _
        · dsimp only at hx
          simp only [hx, hy]
          exact hall.sending hrows
  · simp only [hi, dif_neg, not_false_eq_true]
    exact ⟨0, h.idle⟩

end

/-! ## Whole runs -/

theorem isCons_new {q : Fifo α cap} (hq : q.entries = []) {k : Nat} (hk : k ≤ 31)
    (hcap : cap = 2 ^ k) (slots : Nat → α) : IsCons (newCons (BitVec.ofNat 32 cap) 0 slots) q := by
  subst hcap
  refine ⟨k, (0 : U32).toNat, 0, rfl, ?_⟩
  rw [hq]
  exact shows_newCons hk 0 slots

theorem isProd_new {q : Fifo α cap} (hq : q.entries = []) {k : Nat} (hk : k ≤ 31)
    (hcap : cap = 2 ^ k) (slots : Nat → α) : IsProd (newProd (BitVec.ofNat 32 cap) 0 slots) q := by
  subst hcap
  refine ⟨k, (0 : U32).toNat, (0 : U32).toNat, rfl, ?_⟩
  rw [hq]
  exact fills_newProd hk 0 slots

theorem isProd_filled {l : List α} {k : Nat} (hk : k ≤ 31) (hcap : cap = 2 ^ k) (slots : Nat → α)
    (hl : l.length ≤ cap) :
    IsProd (produce (newProd (BitVec.ofNat 32 cap) 0 slots) l).2 (⟨l, hl⟩ : Fifo α cap) := by
  have hnew : IsProd (newProd (BitVec.ofNat 32 cap) 0 slots) (Fifo.empty : Fifo α cap) :=
    isProd_new rfl hk hcap slots
  obtain ⟨q, hq⟩ : ∃ q, (Fifo.empty : Fifo α cap).produce l = some q :=
    Fifo.exists_produce ((Nat.zero_add _).trans_le hl)
  have hlt : cap < 2 ^ 32 := by
    rw [hcap]
    exact Nat.pow_lt_pow_right Nat.one_lt_two (Nat.lt_succ_of_le hk)
  have hfilled := (hnew.produce (Nat.lt_of_le_of_lt hl hlt)).2
  have heq : q = ⟨l, hl⟩ := Fifo.eq_of_entries (Fifo.produce_eq_some hq)
  rw [hq, Option.getD_some, heq] at hfilled
  exact hfilled

theorem stands_configure (umem_offset : Nat) :
    Stands (xsk_configure_socket conf umem_offset)
      (xsknf.xsk_configure_socket conf umem_offset) := by
  unfold xsk_configure_socket xsknf.xsk_configure_socket
  refine ⟨?_, ?_, ?_, ?_, rfl, rfl⟩
  · exact isCons_new rfl (by decide) (k := 11) rfl emptyDesc
  · exact isProd_new rfl (by decide) (k := 11) rfl emptyDesc
  · apply isProd_filled (k := 12)
    · decide
    · rfl
  · exact isCons_new rfl (by decide) (k := 11) rfl _

theorem agrees_start : Agrees (Worker.start conf) (xsknf.Worker.start conf) :=
  AllStand.idle fun _ => stands_configure _

/-- The kernel moves the two sockets together. -/
theorem Agrees.update {w : Worker conf} {v : xsknf.Worker conf} (h : Agrees w v)
    {i : Fin conf.num_interfaces} {x : xsk_socket_info} {y : xsknf.xsk_socket_info}
    (hxy : Stands (w.xsks i) (v.xsks i) → Stands x y) :
    Agrees { w with xsks := Function.update w.xsks i x }
      { v with xsks := Function.update v.xsks i y } :=
  ⟨h.phase, fun hne => (h.sockets hne).update (hxy (h.sockets hne i)), h.short⟩

/-- Each step over the rings is a step over the queues. -/
theorem Agrees.step {w : Worker conf} {v : xsknf.Worker conf} (hbatch : conf.batch_size < 2 ^ 32)
    (h : Agrees w v) (e : Event conf) :
    ∃ d, eventOf d = e ∧ Agrees (step w e) (xsknf.step v d) := by
  obtain ⟨xsks, phase⟩ := w
  obtain ⟨ysks, phase'⟩ := v
  obtain rfl : phase = phase' := h.phase
  cases e with
  | process_batch ifindex processor =>
    cases phase with
    | idle =>
      obtain ⟨seenTx, seenRx, hagree⟩ := (h.sockets nofun).process_batch hbatch processor
      exact ⟨.process_batch ifindex seenTx seenRx processor, rfl, hagree⟩
    | sending ifindex' i rows => exact ⟨.process_batch ifindex 0 0 processor, rfl, h⟩
    | exited => exact ⟨.process_batch ifindex 0 0 processor, rfl, h⟩
  | turn =>
    cases phase with
    | idle => exact ⟨.turn 0, rfl, h⟩
    | sending ifindex i rows =>
      obtain ⟨seen, hagree⟩ := (h.sockets nofun).sendRow hbatch (h.short ifindex i rows rfl)
      exact ⟨.turn seen, rfl, hagree⟩
    | exited => exact ⟨.turn 0, rfl, h⟩
  | receive i offset len =>
    exact ⟨.receive i offset len, rfl, h.update fun hxy => hxy.receive offset len⟩
  | transmit i => exact ⟨.transmit i, rfl, h.update fun hxy => hxy.transmit⟩

/-- Every run over the rings is a run over the queues. The queues have what the
slots between the counters hold, the counts of packets are the same, and so is
the place in the loop. -/
theorem the_rings_run_as_queues (hbatch : conf.batch_size < 2 ^ 32) (es : List (Event conf)) :
    let w := run step (Worker.start conf) es
    ∃ ds, ds.map eventOf = es ∧
      let v := run xsknf.step (xsknf.Worker.start conf) ds
      w.phase = v.phase ∧
        (w.phase ≠ .exited → ∀ i, published (w.xsks i).rx = (v.xsks i).rx.entries ∧
          published (w.xsks i).tx = (v.xsks i).tx.entries ∧ published (w.xsks i).fq =
            (v.xsks i).fq.entries ∧
          published (w.xsks i).cq = (v.xsks i).cq.entries ∧ (w.xsks i).stats = (v.xsks i).stats ∧
          (w.xsks i).outstanding_tx = (v.xsks i).outstanding_tx) := by
  intro w
  obtain ⟨ds, hds, hagree⟩ :=
    run_simulated Agrees eventOf (fun _ _ e h => h.step hbatch e) es agrees_start
  refine ⟨ds, hds, hagree.phase, fun hne i => ?_⟩
  have hi := hagree.sockets (hagree.phase ▸ hne) i
  exact ⟨hi.rx.published_eq, hi.tx.published_eq, hi.fq.published_eq, hi.cq.published_eq, hi.stats,
    hi.outstanding_tx⟩

/-- A packet that comes in on the first of two interfaces and goes out on the
second. -/
def onePacket : List (Event ⟨2, 64, 2048⟩) :=
  [.receive 0 256 60, .process_batch 0 fun _ => (some 1, 60), .turn, .turn, .transmit 1]

/-- The queues have the packet's frame where the rings have it: the driver has
given it back through the completion ring. -/
theorem the_rings_run_as_queues_for_a_packet :
    let w := run step (Worker.start ⟨2, 64, 2048⟩) onePacket
    ∃ ds, ds.map eventOf = onePacket ∧
      let v := run xsknf.step (xsknf.Worker.start ⟨2, 64, 2048⟩) ds
      w.phase = v.phase ∧
        (∀ i, published (w.xsks i).fq = (v.xsks i).fq.entries) ∧
        (v.xsks 0).rx.entries = [] ∧ (v.xsks 1).tx.entries = [] ∧ (v.xsks 1).cq.entries = [256] ∧
        (v.xsks 1).outstanding_tx = 1 := by
  have hbatch : (⟨2, 64, 2048⟩ : xsknf_config).batch_size < 2 ^ 32 := by decide
  have hrunning : (run step (Worker.start ⟨2, 64, 2048⟩) onePacket).phase ≠ .exited := by
    have hsome : (match (run step (Worker.start ⟨2, 64, 2048⟩) onePacket).phase with
      | .exited => false
      | _ => true) = true := by decide +kernel
    intro hexited
    simp only [hexited, Bool.false_eq_true] at hsome
  have hrx : published ((run step (Worker.start ⟨2, 64, 2048⟩) onePacket).xsks 0).rx = [] := by
    decide +kernel
  have htx : published ((run step (Worker.start ⟨2, 64, 2048⟩) onePacket).xsks 1).tx = [] := by
    decide +kernel
  have hcq : published ((run step (Worker.start ⟨2, 64, 2048⟩) onePacket).xsks 1).cq = [256] := by
    decide +kernel
  have hout : ((run step (Worker.start ⟨2, 64, 2048⟩) onePacket).xsks 1).outstanding_tx = 1 := by
    decide +kernel
  obtain ⟨ds, hds, hphase, hrings⟩ := the_rings_run_as_queues hbatch onePacket
  have hrings := hrings hrunning
  exact ⟨ds, hds, hphase, fun i => (hrings i).2.2.1, (hrings 0).1.symm.trans hrx,
    (hrings 1).2.1.symm.trans htx, (hrings 1).2.2.2.1.symm.trans hcq,
    (hrings 1).2.2.2.2.2.symm.trans hout⟩

end edge_cookie.xsk
