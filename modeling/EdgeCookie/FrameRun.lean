-- The frames of the packet memory. Every frame is in one ring, or in the hands
-- of the worker, over every run of the worker and the kernel. So each fill ring
-- has room for its frames, and the program never exits. This holds as long as
-- the addresses of the frames fit 32 bits, and not beyond.
import EdgeCookie.RingMoves
import Mathlib.Algebra.Order.BigOperators.Group.Finset
import Mathlib.Algebra.Order.Group.Multiset
import Mathlib.Algebra.Ring.Parity
import Mathlib.Tactic.Abel

namespace edge_cookie.xsknf

open batch runs

variable {conf : xsknf_config} {xsks xsks' : Xsks conf} {ifindex : Fin conf.num_interfaces}
  {seen : Nat}

/-! ## Frames and their owners -/

/-- The number of the frame with the address. -/
def frame (conf : xsknf_config) (addr : Nat) : Nat := addr / conf.xsk_frame_size

/-- The lowest bit of a power of two times an odd number. -/
theorem ffs_two_pow_mul {k m : Nat} (hk : k < 32) (hm : Odd m) : ffs (2 ^ k * m) = k + 1 := by
  have hfind : (List.range 32).find? (2 ^ k * m).testBit = some k := by
    rw [List.find?_range_eq_some]
    refine ⟨?_, List.mem_range.mpr hk, ?_⟩
    · rw [Nat.testBit_two_pow_mul, Nat.sub_self, Nat.testBit_zero, Nat.odd_iff.mp hm]
      simp
    · intro j hj
      rw [Nat.testBit_two_pow_mul]
      simp [hj]
  rw [ffs, hfind]

/-- The shift is a division. -/
theorem owner_eq_div {k m : Nat} (hsize : conf.xsk_frame_size = 2 ^ k * m) (hk : k < 32)
    (hm : Odd m) (addr : Nat) : owner conf addr = addr / 2 ^ (12 + k) := by
  rw [owner, owner_shift, hsize, ffs_two_pow_mul hk hm, Nat.shiftRight_eq_div_pow]
  rfl

/-- The frames of an owner stand one after the other. -/
theorem owner_eq_frame_div {e : Nat} (hsize : conf.xsk_frame_size = 2 ^ e) (he : e < 32)
    (addr : Nat) : owner conf addr = frame conf addr / FRAMES_PER_SOCKET := by
  have hodd : conf.xsk_frame_size = 2 ^ e * 1 := by rw [hsize, Nat.mul_one]
  rw [owner_eq_div hodd he odd_one, frame, hsize, Nat.div_div_eq_div_mul, Nat.pow_add, Nat.mul_comm]
  rfl

def framesOf (conf : xsknf_config) (addrs : List Nat) : Multiset Nat := addrs.map (frame conf)

def pktFrames (conf : xsknf_config) (pkts : List pkt_info) : Multiset Nat :=
  pkts.map fun pkt => frame conf pkt.addr

/-- The frames in the rings of a socket. -/
def xsk_socket_info.frames (conf : xsknf_config) (xsk : xsk_socket_info) : Multiset Nat :=
  framesOf conf xsk.fq.entries + pktFrames conf xsk.rx.entries +
    (pktFrames conf xsk.tx.entries + framesOf conf xsk.cq.entries)

/-- The frames in all rings. -/
def ringFrames (xsks : Xsks conf) : Multiset Nat := ∑ j, (xsks j).frames conf

@[simp] theorem framesOf_append (l m : List Nat) :
    framesOf conf (l ++ m) = framesOf conf l + framesOf conf m := by
  unfold framesOf
  rw [List.map_append]
  rfl

@[simp] theorem pktFrames_append (l m : List pkt_info) :
    pktFrames conf (l ++ m) = pktFrames conf l + pktFrames conf m := by
  unfold pktFrames
  rw [List.map_append]
  rfl

/-- The fill and receive rings of the socket hold frames of owner `i` only. -/
structure OwnedBy (conf : xsknf_config) (i : Nat) (xsk : xsk_socket_info) : Prop where
  fill : ∀ addr ∈ xsk.fq.entries, owner conf addr = i
  rx : ∀ pkt ∈ xsk.rx.entries, owner conf pkt.addr = i

/-- An owner has no more frames than its fill ring has places. -/
theorem length_le_fill_size {e i : Nat} (hsize : conf.xsk_frame_size = 2 ^ e) (he : e < 32)
    {addrs : List Nat} (howner : ∀ addr ∈ addrs, owner conf addr = i)
    (hnodup : (framesOf conf addrs).Nodup) : addrs.length ≤ fill_size := by
  have hsub : (framesOf conf addrs).toFinset ⊆
      Finset.Ico (FRAMES_PER_SOCKET * i) (FRAMES_PER_SOCKET * i + FRAMES_PER_SOCKET) := by
    intro f hf
    rw [Multiset.mem_toFinset] at hf
    obtain ⟨addr, hmem, rfl⟩ := List.mem_map.mp hf
    have hdiv := howner addr hmem
    rw [owner_eq_frame_div hsize he] at hdiv
    have hpos : 0 < FRAMES_PER_SOCKET := by decide
    have hdm := Nat.div_add_mod (frame conf addr) FRAMES_PER_SOCKET
    have hmod := Nat.mod_lt (frame conf addr) hpos
    rw [hdiv] at hdm
    rw [Finset.mem_Ico]
    omega
  have hcard := Finset.card_le_card hsub
  rw [Multiset.toFinset_card_of_nodup hnodup, Nat.card_Ico, Nat.add_sub_cancel_left] at hcard
  have hlen : (framesOf conf addrs).card = addrs.length := by
    unfold framesOf
    rw [Multiset.coe_card, List.length_map]
  rw [hlen] at hcard
  exact hcard

/-! ## Sums over the sockets -/

/-- The frames in all rings after a change of one socket. -/
theorem ringFrames_update (xsks : Xsks conf) (i : Fin conf.num_interfaces) (xsk : xsk_socket_info) :
    ringFrames (Function.update xsks i xsk) + (xsks i).frames conf =
      ringFrames xsks + xsk.frames conf := by
  unfold ringFrames
  have hrest : ∑ j ∈ Finset.univ.erase i, (Function.update xsks i xsk j).frames conf =
      ∑ j ∈ Finset.univ.erase i, (xsks j).frames conf := by
    apply Finset.sum_congr rfl
    intro j hj
    rw [Function.update_of_ne (Finset.ne_of_mem_erase hj)]
  rw [← Finset.add_sum_erase _ _ (Finset.mem_univ i), Function.update_self, hrest,
    ← Finset.add_sum_erase _ (fun j => (xsks j).frames conf) (Finset.mem_univ i)]
  abel

/-- Parts of the rings of two sockets, which do not overlap when the sockets
are one, are in the rings. -/
theorem parts_le_ringFrames {f g : xsk_socket_info → Multiset Nat}
    (hfg : ∀ xsk, f xsk + g xsk ≤ xsk.frames conf) (i j : Fin conf.num_interfaces) :
    f (xsks i) + g (xsks j) ≤ ringFrames xsks := by
  have hone : ∀ k, (if i = k then f (xsks k) else 0) + (if j = k then g (xsks k) else 0) ≤
      (xsks k).frames conf := by
    intro k
    refine le_trans (add_le_add ?_ ?_) (hfg (xsks k))
    · split
      · exact le_rfl
      · exact Multiset.zero_le _
    · split
      · exact le_rfl
      · exact Multiset.zero_le _
  have hsum := Finset.sum_le_sum fun k (_ : k ∈ Finset.univ) => hone k
  rw [Finset.sum_add_distrib, Finset.sum_ite_eq, Finset.sum_ite_eq, if_pos (Finset.mem_univ _),
    if_pos (Finset.mem_univ _)] at hsum
  exact hsum

/-! ## The completed frames -/

theorem to_fill_eq_rowOf (hb : conf.batch_size ≤ 255) (seen : Nat) (xsk : xsk_socket_info) :
    to_fill conf (completed conf seen xsk) =
      rowOf ((completed conf seen xsk).map fun addr => (ownerRow conf addr, addr)) := by
  apply spread_eq_rowOf
  rw [List.length_map]
  exact Nat.le_trans (length_completed_le xsk) hb

theorem owner_of_mem_to_fill (hb : conf.batch_size ≤ 255) {xsk : xsk_socket_info} {addr : Nat}
    {j : Fin conf.num_interfaces} (h : addr ∈ to_fill conf (completed conf seen xsk) (some j)) :
    owner conf addr = j := by
  rw [to_fill_eq_rowOf hb, mem_rowOf] at h
  obtain ⟨a, -, heq⟩ := List.mem_map.mp h
  have haddr : a = addr := congrArg Prod.snd heq
  have hrow : ownerRow conf a = some j := congrArg Prod.fst heq
  rw [haddr] at hrow
  unfold ownerRow at hrow
  by_cases hlt : owner conf addr < conf.num_interfaces
  · rw [dif_pos hlt] at hrow
    exact congrArg Fin.val (Option.some.inj hrow)
  · rw [dif_neg hlt] at hrow
    cases hrow

/-- Each completed frame goes to the row of its owner. -/
theorem sum_to_fill (hb : conf.batch_size ≤ 255) {xsk : xsk_socket_info}
    (howner : ∀ addr ∈ completed conf seen xsk, owner conf addr < conf.num_interfaces) :
    ∑ j, framesOf conf (to_fill conf (completed conf seen xsk) (some j)) =
      framesOf conf (completed conf seen xsk) := by
  have hnone : rowOf ((completed conf seen xsk).map fun addr => (ownerRow conf addr, addr)) none =
      [] := by
    apply rowOf_eq_nil
    intro x hx
    obtain ⟨addr, hmem, rfl⟩ := List.mem_map.mp hx
    unfold ownerRow
    dsimp only
    rw [dif_pos (howner addr hmem)]
    intro h
    cases h
  have hsum := sum_rowOf (frame conf)
    ((completed conf seen xsk).map fun addr => (ownerRow conf addr, addr))
  rw [Fintype.sum_option, hnone, List.map_map] at hsum
  unfold framesOf
  rw [to_fill_eq_rowOf hb, ← zero_add (∑ j, _)]
  exact hsum

theorem framesOf_to_fill_le (hb : conf.batch_size ≤ 255) (xsk : xsk_socket_info)
    (j : Fin conf.num_interfaces) :
    framesOf conf (to_fill conf (completed conf seen xsk) (some j)) ≤
      framesOf conf (completed conf seen xsk) := by
  rw [to_fill_eq_rowOf hb]
  have hsub := rowOf_sublist ((completed conf seen xsk).map fun addr => (ownerRow conf addr, addr))
    (some j)
  rw [List.map_map] at hsub
  have hmap : (completed conf seen xsk).map (Prod.snd ∘ fun addr => (ownerRow conf addr, addr)) =
      completed conf seen xsk := List.map_id _
  rw [hmap] at hsub
  exact Multiset.coe_le.mpr (hsub.map (frame conf)).subperm

/-- The completed frames of a socket and the frames of a fill ring are no more
than the fill ring has places for, when they have one owner. -/
theorem fill_has_room {e : Nat} (hsize : conf.xsk_frame_size = 2 ^ e) (he : e < 32)
    (hb : conf.batch_size ≤ 255) (hnodup : (ringFrames xsks).Nodup) {j : Fin conf.num_interfaces}
    (howned : OwnedBy conf j (xsks j)) :
    (xsks j).fq.entries.length +
      (to_fill conf (completed conf seen (xsks ifindex)) (some j)).length ≤ fill_size := by
  have hparts : framesOf conf (xsks j).fq.entries + framesOf conf (xsks ifindex).cq.entries ≤
      ringFrames xsks := by
    apply parts_le_ringFrames (f := fun xsk => framesOf conf xsk.fq.entries)
      (g := fun xsk => framesOf conf xsk.cq.entries)
    intro xsk
    unfold xsk_socket_info.frames
    exact add_le_add (le_add_of_nonneg_right (Multiset.zero_le _))
      (le_add_of_nonneg_left (Multiset.zero_le _))
  have hcompleted : framesOf conf (completed conf seen (xsks ifindex)) ≤
      framesOf conf (xsks ifindex).cq.entries :=
    Multiset.coe_le.mpr ((List.take_sublist _ _).map (frame conf)).subperm
  have hle : framesOf conf ((xsks j).fq.entries ++
      to_fill conf (completed conf seen (xsks ifindex)) (some j)) ≤ ringFrames xsks := by
    rw [framesOf_append]
    exact le_trans (add_le_add le_rfl (le_trans (framesOf_to_fill_le hb _ j) hcompleted)) hparts
  rw [← List.length_append]
  refine length_le_fill_size (i := j) hsize he ?_ (Multiset.nodup_of_le hle hnodup)
  intro addr hmem
  rcases List.mem_append.mp hmem with hfq | hrow
  · exact howned.fill addr hfq
  · exact owner_of_mem_to_fill hb hrow

/-- `complete_tx` moves frames from the completion ring to the fill rings, and
loses none. -/
theorem ringFrames_complete_tx (hb : conf.batch_size ≤ 255)
    (howner : ∀ addr ∈ completed conf seen (xsks ifindex), owner conf addr < conf.num_interfaces)
    (hc : Completed seen xsks xsks' ifindex) : ringFrames xsks' = ringFrames xsks := by
  have hsplit : framesOf conf (xsks ifindex).cq.entries =
      framesOf conf (completed conf seen (xsks ifindex)) +
        framesOf conf (xsks' ifindex).cq.entries := by
    rw [hc.cq, ← framesOf_append]
    unfold completed
    rw [Fifo.first_append_release]
  have hone : ∀ j, (xsks' j).frames conf +
      (if ifindex = j then framesOf conf (completed conf seen (xsks ifindex)) else 0) =
        (xsks j).frames conf +
          framesOf conf (to_fill conf (completed conf seen (xsks ifindex)) (some j)) := by
    intro j
    unfold xsk_socket_info.frames
    rw [hc.rx, hc.tx, hc.fq, framesOf_append]
    by_cases hj : ifindex = j
    · subst hj
      rw [if_pos rfl, hsplit]
      abel
    · rw [if_neg hj, hc.cq_other j fun h => hj h.symm]
      abel
  have hsum := Fintype.sum_congr _ _ hone
  rw [Finset.sum_add_distrib, Finset.sum_add_distrib, Finset.sum_ite_eq,
    if_pos (Finset.mem_univ _), sum_to_fill hb howner] at hsum
  exact add_right_cancel hsum

theorem ownedBy_complete_tx (hb : conf.batch_size ≤ 255)
    (howned : ∀ j : Fin conf.num_interfaces, OwnedBy conf j (xsks j))
    (hc : Completed seen xsks xsks' ifindex) (j : Fin conf.num_interfaces) :
    OwnedBy conf j (xsks' j) := by
  refine ⟨?_, ?_⟩
  · intro addr hmem
    rw [hc.fq] at hmem
    rcases List.mem_append.mp hmem with hfq | hrow
    · exact (howned j).fill addr hfq
    · exact owner_of_mem_to_fill hb hrow
  · rw [hc.rx]
    exact (howned j).rx

/-! ## A batch -/

theorem pktFrames_sorted (processor : Processor conf) (pkts : List pkt_info) :
    (((sorted processor pkts).map fun x => frame conf x.2.addr : List Nat) : Multiset Nat) =
      pktFrames conf pkts := by
  unfold sorted pktFrames
  congr 1
  apply List.ext_getElem
  · rw [List.length_map, List.length_mapIdx, List.length_map]
  · intro m hm hm'
    rw [List.getElem_map, List.getElem_mapIdx, List.getElem_map]

/-- The rows of a batch hold each of its frames once. -/
theorem sum_to_tx (hb : conf.batch_size ≤ 255) (seen : Nat) (processor : Processor conf)
    (xsk : xsk_socket_info) :
    pktFrames conf (to_tx processor (received conf seen xsk) none) +
      ∑ j, pktFrames conf (to_tx processor (received conf seen xsk) (some j)) =
        pktFrames conf (received conf seen xsk) := by
  rw [to_tx_eq_rowOf hb]
  have hsum := sum_rowOf (fun pkt => frame conf pkt.addr)
    (sorted processor (received conf seen xsk))
  rw [Fintype.sum_option, pktFrames_sorted] at hsum
  exact hsum

theorem addr_of_mem_to_tx (hb : conf.batch_size ≤ 255) {processor : Processor conf}
    {xsk : xsk_socket_info} {row : Option (Fin conf.num_interfaces)} {pkt : pkt_info}
    (h : pkt ∈ to_tx processor (received conf seen xsk) row) :
    ∃ pkt' ∈ xsk.rx.entries, pkt'.addr = pkt.addr := by
  rw [to_tx_eq_rowOf hb, mem_rowOf] at h
  unfold sorted at h
  obtain ⟨m, hm, heq⟩ := List.mem_mapIdx.mp h
  refine ⟨(received conf seen xsk)[m], List.mem_of_mem_take (List.getElem_mem hm), ?_⟩
  rw [← congrArg (fun x => x.2.addr) heq]

/-! ## The hands of the worker -/

/-- The frames of the rows that are still to send. -/
def handFrames : Phase conf → Multiset Nat
  | .sending _ i rows => ∑ j, if i ≤ j.val then pktFrames conf (rows j) else 0
  | _ => 0

theorem handFrames_succ {ifindex : Fin conf.num_interfaces} {i : Nat} (hi : i < conf.num_interfaces)
    (rows : Fin conf.num_interfaces → List pkt_info) :
    handFrames (.sending ifindex i rows) =
      pktFrames conf (rows ⟨i, hi⟩) + handFrames (.sending ifindex (i + 1) rows) := by
  unfold handFrames
  have hone : ∀ j : Fin conf.num_interfaces, (if i ≤ j.val then pktFrames conf (rows j) else 0) =
      (if ⟨i, hi⟩ = j then pktFrames conf (rows j) else 0) +
        if i + 1 ≤ j.val then pktFrames conf (rows j) else 0 := by
    intro j
    rcases Nat.lt_trichotomy i j.val with hlt | heq | hgt
    · rw [if_pos (by omega), if_neg (fun h => by rw [← h] at hlt; exact Nat.lt_irrefl _ hlt),
        if_pos (by omega), zero_add]
    · rw [if_pos (by omega), if_pos (Fin.ext heq), if_neg (by omega), add_zero]
    · rw [if_neg (by omega), if_neg (fun h => by rw [← h] at hgt; exact Nat.lt_irrefl _ hgt),
        if_neg (by omega), zero_add]
  dsimp only
  rw [Fintype.sum_congr _ _ hone, Finset.sum_add_distrib, Finset.sum_ite_eq,
    if_pos (Finset.mem_univ _)]

theorem handFrames_end {ifindex : Fin conf.num_interfaces} {i : Nat} (hi : conf.num_interfaces ≤ i)
    (rows : Fin conf.num_interfaces → List pkt_info) :
    handFrames (.sending ifindex i rows) = 0 := by
  apply Finset.sum_eq_zero
  intro j _
  exact if_neg (by omega)

theorem handFrames_zero (ifindex : Fin conf.num_interfaces)
    (rows : Fin conf.num_interfaces → List pkt_info) :
    handFrames (.sending ifindex 0 rows) = ∑ j, pktFrames conf (rows j) := by
  apply Fintype.sum_congr
  intro j
  exact if_pos (Nat.zero_le _)

/-! ## The invariant -/

/-- Every frame is in one ring or in the hands of the worker, and the frames in
fill and receive rings are with their owner. -/
structure Conserved (w : Worker conf) : Prop where
  running : w.phase ≠ .exited
  frames : ringFrames w.xsks + handFrames w.phase =
    Multiset.range (conf.num_interfaces * FRAMES_PER_SOCKET)
  owned : ∀ j : Fin conf.num_interfaces, OwnedBy conf j (w.xsks j)

/-- The configurations of aligned mode, with batches that fit the byte
counters. -/
structure Aligned (conf : xsknf_config) (e : Nat) : Prop where
  size : conf.xsk_frame_size = 2 ^ e
  int : e < 31
  batch : conf.batch_size ≤ 255

variable {e : Nat} {hand : Multiset Nat}

/-- A frame in a ring has an owner. -/
theorem owner_lt (ha : Aligned conf e)
    (hframes : ringFrames xsks + hand = Multiset.range (conf.num_interfaces * FRAMES_PER_SOCKET))
    {i : Fin conf.num_interfaces} {addr : Nat} (hmem : addr ∈ (xsks i).cq.entries) :
    owner conf addr < conf.num_interfaces := by
  have hring : frame conf addr ∈ ringFrames xsks := by
    refine Multiset.mem_sum.mpr ⟨i, Finset.mem_univ i, ?_⟩
    unfold xsk_socket_info.frames
    exact Multiset.mem_add.mpr (.inr (Multiset.mem_add.mpr (.inr (List.mem_map_of_mem hmem))))
  have hrange : frame conf addr ∈ Multiset.range (conf.num_interfaces * FRAMES_PER_SOCKET) := by
    rw [← hframes]
    exact Multiset.mem_add.mpr (.inl hring)
  have := ha.int
  rw [owner_eq_frame_div ha.size (by omega)]
  exact Nat.div_lt_of_lt_mul (by rw [Nat.mul_comm]; exact Multiset.mem_range.mp hrange)

theorem nodup_ringFrames
    (hframes : ringFrames xsks + hand = Multiset.range (conf.num_interfaces * FRAMES_PER_SOCKET)) :
    (ringFrames xsks).Nodup := by
  refine Multiset.nodup_of_le ?_ (Multiset.nodup_range (conf.num_interfaces * FRAMES_PER_SOCKET))
  rw [← hframes]
  exact Multiset.le_add_right _ _

/-- `complete_tx` succeeds, and keeps the frames and their owners. -/
theorem complete_tx_conserves (ha : Aligned conf e)
    (hframes : ringFrames xsks + hand = Multiset.range (conf.num_interfaces * FRAMES_PER_SOCKET))
    (howned : ∀ j : Fin conf.num_interfaces, OwnedBy conf j (xsks j)) (seen : Nat)
    (ifindex : Fin conf.num_interfaces) :
    ∃ xsks', complete_tx seen xsks ifindex = some xsks' ∧ ringFrames xsks' = ringFrames xsks ∧
      ∀ j : Fin conf.num_interfaces, OwnedBy conf j (xsks' j) := by
  have := ha.int
  have howner : ∀ addr ∈ completed conf seen (xsks ifindex),
      owner conf addr < conf.num_interfaces := by
    intro addr hmem
    exact owner_lt ha hframes (List.mem_of_mem_take hmem)
  obtain ⟨xsks', hc⟩ := exists_complete_tx howner fun j =>
    fill_has_room ha.size (by omega) ha.batch (nodup_ringFrames hframes) (howned j)
  have spec := completed_of_complete_tx hc
  exact ⟨xsks', hc, ringFrames_complete_tx ha.batch howner spec,
    ownedBy_complete_tx ha.batch howned spec⟩

/-! ## Each step keeps the invariant -/

theorem framesOf_map_addr (pkts : List pkt_info) :
    framesOf conf (pkts.map pkt_info.addr) = pktFrames conf pkts := by
  unfold framesOf pktFrames
  rw [List.map_map]
  rfl

/-- The dropped packets have room in the fill ring of their interface. -/
theorem drop_has_room (ha : Aligned conf e) (hnodup : (ringFrames xsks).Nodup)
    (howned : OwnedBy conf ifindex (xsks ifindex)) (seen : Nat) (processor : Processor conf) :
    (xsks ifindex).fq.entries.length +
      (to_tx processor (received conf seen (xsks ifindex)) none).length ≤ fill_size := by
  have := ha.int
  have hparts : framesOf conf (xsks ifindex).fq.entries + pktFrames conf (xsks ifindex).rx.entries ≤
      ringFrames xsks := by
    apply parts_le_ringFrames (f := fun xsk => framesOf conf xsk.fq.entries)
      (g := fun xsk => pktFrames conf xsk.rx.entries)
    intro xsk
    exact Multiset.le_add_right _ _
  have hreceived : pktFrames conf (received conf seen (xsks ifindex)) ≤
      pktFrames conf (xsks ifindex).rx.entries :=
    Multiset.coe_le.mpr ((List.take_sublist _ _).map _).subperm
  have hdrop : pktFrames conf (to_tx processor (received conf seen (xsks ifindex)) none) ≤
      pktFrames conf (received conf seen (xsks ifindex)) := by
    rw [← sum_to_tx ha.batch seen processor]
    exact Multiset.le_add_right _ _
  have hle : framesOf conf ((xsks ifindex).fq.entries ++
      (to_tx processor (received conf seen (xsks ifindex)) none).map pkt_info.addr) ≤
        ringFrames xsks := by
    rw [framesOf_append, framesOf_map_addr]
    exact le_trans (add_le_add le_rfl (le_trans hdrop hreceived)) hparts
  have hlen := length_le_fill_size (i := ifindex) ha.size (by omega) ?_
    (Multiset.nodup_of_le hle hnodup)
  · rw [List.length_append, List.length_map] at hlen
    exact hlen
  · intro addr hmem
    rcases List.mem_append.mp hmem with hfq | hrow
    · exact howned.fill addr hfq
    · obtain ⟨pkt, hpkt, rfl⟩ := List.mem_map.mp hrow
      obtain ⟨pkt', hrx, haddr⟩ := addr_of_mem_to_tx ha.batch hpkt
      rw [← haddr]
      exact howned.rx pkt' hrx

/-- A batch moves from the receive ring to the hands of the worker, and the
dropped packets to the fill ring. -/
theorem ringFrames_batched {drop : List pkt_info} {xsk' : xsk_socket_info}
    (h : Batched conf seen drop (xsks ifindex) xsk') :
    ringFrames (Function.update xsks ifindex xsk') +
      pktFrames conf (received conf seen (xsks ifindex)) =
      ringFrames xsks + pktFrames conf drop := by
  obtain ⟨fq, rfl, hfq⟩ := h
  have hrx : pktFrames conf (xsks ifindex).rx.entries =
      pktFrames conf (received conf seen (xsks ifindex)) + pktFrames conf
        ((xsks ifindex).rx.release ((xsks ifindex).rx.peek conf.batch_size seen)).entries := by
    rw [← pktFrames_append]
    unfold received
    rw [Fifo.first_append_release]
  have hupdate := ringFrames_update xsks ifindex { xsks ifindex with
    rx := (xsks ifindex).rx.release ((xsks ifindex).rx.peek conf.batch_size seen)
    stats := (xsks ifindex).stats.rcvd ((xsks ifindex).rx.peek conf.batch_size seen)
    fq := fq }
  apply add_right_cancel (b := (xsks ifindex).frames conf)
  rw [add_right_comm, hupdate]
  unfold xsk_socket_info.frames
  dsimp only
  rw [hfq, hrx, framesOf_append, framesOf_map_addr]
  abel

theorem conserved_receiveBatch (ha : Aligned conf e)
    (hframes : ringFrames xsks = Multiset.range (conf.num_interfaces * FRAMES_PER_SOCKET))
    (howned : ∀ j : Fin conf.num_interfaces, OwnedBy conf j (xsks j)) (processor : Processor conf) :
    Conserved (receiveBatch seen processor xsks ifindex) := by
  have hnodup : (ringFrames xsks).Nodup := nodup_ringFrames ((add_zero _).trans hframes)
  rcases receiveBatch_cases seen processor xsks ifindex with
    ⟨-, heq⟩ | ⟨xsk', hbatched, heq⟩ | ⟨hlt, -⟩
  · rw [heq]
    refine ⟨?_, (add_zero _).trans hframes, howned⟩
    intro h
    cases h
  · rw [heq]
    have hall := sum_to_tx ha.batch seen processor (xsks ifindex)
    have hmoved := ringFrames_batched hbatched
    obtain ⟨fq, rfl, hfq⟩ := hbatched
    refine ⟨?_, ?_, forall_update (P := fun j => OwnedBy conf j) howned ⟨?_, ?_⟩⟩
    · intro h
      cases h
    · rw [handFrames_zero]
      rw [← hall, add_comm (pktFrames conf _), ← add_assoc] at hmoved
      exact (add_right_cancel hmoved).trans hframes
    · intro addr hmem
      rw [hfq] at hmem
      rcases List.mem_append.mp hmem with hold | hrow
      · exact (howned ifindex).fill addr hold
      · obtain ⟨pkt, hpkt, rfl⟩ := List.mem_map.mp hrow
        obtain ⟨pkt', hmem', haddr⟩ := addr_of_mem_to_tx ha.batch hpkt
        rw [← haddr]
        exact (howned ifindex).rx pkt' hmem'
    · intro pkt hmem
      exact (howned ifindex).rx pkt (List.mem_of_mem_drop hmem)
  · have := drop_has_room ha hnodup (howned ifindex) seen processor
    omega

theorem conserved_sendRow (ha : Aligned conf e) {i : Nat}
    {rows : Fin conf.num_interfaces → List pkt_info}
    (h : Conserved ⟨xsks, .sending ifindex i rows⟩) :
    Conserved (sendRow seen xsks ifindex i rows) := by
  rcases sendRow_cases seen xsks ifindex i rows with
    ⟨hend, heq⟩ | ⟨hi, ⟨xsk', ⟨tx, rfl, htx⟩, heq⟩ | ⟨-, hwait⟩⟩
  · rw [heq]
    refine ⟨?_, ?_, h.owned⟩
    · intro hp
      cases hp
    · rw [← h.frames, handFrames_end hend]
      rfl
  · rw [heq]
    refine ⟨?_, ?_,
      forall_update (P := fun j => OwnedBy conf j) h.owned
        ⟨(h.owned ⟨i, hi⟩).fill, (h.owned ⟨i, hi⟩).rx⟩⟩
    · intro hp
      cases hp
    · -- the row leaves the hands of the worker and enters the transmit ring
      have hupdate := ringFrames_update xsks ⟨i, hi⟩ { xsks ⟨i, hi⟩ with
        tx := tx, outstanding_tx := (xsks ⟨i, hi⟩).outstanding_tx + (rows ⟨i, hi⟩).length }
      have hsent : xsk_socket_info.frames conf { xsks ⟨i, hi⟩ with
          tx := tx, outstanding_tx := (xsks ⟨i, hi⟩).outstanding_tx + (rows ⟨i, hi⟩).length } =
            pktFrames conf (rows ⟨i, hi⟩) + (xsks ⟨i, hi⟩).frames conf := by
        unfold xsk_socket_info.frames
        dsimp only
        rw [htx, pktFrames_append]
        abel
      rw [hsent, ← add_assoc] at hupdate
      dsimp only
      rw [add_right_cancel hupdate, ← h.frames, handFrames_succ hi, add_assoc]
  · obtain ⟨xsks', hc, hframes, howned⟩ := complete_tx_conserves ha h.frames h.owned seen ifindex
    rcases hwait with ⟨xsks'', hc', heq⟩ | ⟨hnone, -⟩
    · rw [hc] at hc'
      cases hc'
      rw [heq]
      refine ⟨?_, ?_, howned⟩
      · intro hp
        cases hp
      · dsimp only
        rw [hframes]
        exact h.frames
    · rw [hc] at hnone
      cases hnone

/-- A step of the kernel that keeps the frames of a socket keeps the invariant. -/
theorem conserved_kernel {w : Worker conf} (h : Conserved w) {i : Fin conf.num_interfaces}
    {xsk : xsk_socket_info} (hframes : xsk.frames conf = (w.xsks i).frames conf)
    (howned : OwnedBy conf i xsk) : Conserved { w with xsks := Function.update w.xsks i xsk } := by
  have hupdate := ringFrames_update w.xsks i xsk
  rw [hframes] at hupdate
  refine ⟨h.running, ?_, forall_update (P := fun j => OwnedBy conf j) h.owned howned⟩
  dsimp only
  rw [add_right_cancel hupdate]
  exact h.frames

/-- The kernel puts a packet into the frame that it takes. -/
theorem frame_in_frame (ha : Aligned conf e) (addr offset : Nat) :
    frame conf (addr / conf.xsk_frame_size * conf.xsk_frame_size + offset % conf.xsk_frame_size) =
      frame conf addr := by
  have hpos : 0 < conf.xsk_frame_size := by
    rw [ha.size]
    exact Nat.two_pow_pos e
  unfold frame
  rw [Nat.mul_comm, Nat.mul_add_div hpos, Nat.div_eq_of_lt (Nat.mod_lt _ hpos), Nat.add_zero]

theorem kernelReceive_conserves (ha : Aligned conf e) {i : Nat} {xsk : xsk_socket_info}
    (h : OwnedBy conf i xsk) (offset len : Nat) :
    (kernelReceive conf offset len xsk).frames conf = xsk.frames conf ∧
      OwnedBy conf i (kernelReceive conf offset len xsk) := by
  have := ha.int
  rcases kernelReceive_cases conf offset len xsk with ⟨-, heq⟩ | ⟨addr, fq, rx, hfq, hrx, heq⟩
  · rw [heq]
    exact ⟨rfl, h⟩
  · rw [heq]
    refine ⟨?_, ?_, ?_⟩
    · unfold xsk_socket_info.frames
      dsimp only
      have hhead : framesOf conf (addr :: fq.entries) =
          {frame conf addr} + framesOf conf fq.entries := rfl
      have hlast : pktFrames conf [⟨addr / conf.xsk_frame_size * conf.xsk_frame_size +
          offset % conf.xsk_frame_size, len⟩] = {frame conf addr} := by
        rw [← frame_in_frame ha addr offset]
        rfl
      rw [hrx, hfq, pktFrames_append, hhead, hlast]
      abel
    · intro a hmem
      exact h.fill a (by rw [hfq]; exact List.mem_cons_of_mem addr hmem)
    · intro pkt hmem
      dsimp only at hmem
      rw [hrx] at hmem
      rcases List.mem_append.mp hmem with hold | hnew
      · exact h.rx pkt hold
      · rw [List.mem_singleton.mp hnew]
        dsimp only
        rw [owner_eq_frame_div ha.size (by omega), frame_in_frame ha,
          ← owner_eq_frame_div ha.size (by omega)]
        exact h.fill addr (by rw [hfq]; exact List.mem_cons_self)

theorem kernelTransmit_conserves {i : Nat} {xsk : xsk_socket_info} (h : OwnedBy conf i xsk) :
    (kernelTransmit xsk).frames conf = xsk.frames conf ∧ OwnedBy conf i (kernelTransmit xsk) := by
  rcases kernelTransmit_cases xsk with ⟨-, heq⟩ | ⟨pkt, tx, cq, htx, hcq, heq⟩
  · rw [heq]
    exact ⟨rfl, h⟩
  · rw [heq]
    refine ⟨?_, h.fill, h.rx⟩
    unfold xsk_socket_info.frames
    dsimp only
    have hhead : pktFrames conf (pkt :: tx.entries) =
        {frame conf pkt.addr} + pktFrames conf tx.entries := rfl
    have hlast : framesOf conf [pkt.addr] = {frame conf pkt.addr} := rfl
    rw [htx, hcq, framesOf_append, hhead, hlast]
    abel

theorem conserved_step (ha : Aligned conf e) {w : Worker conf} (h : Conserved w)
    (event : Event conf) : Conserved (step w event) := by
  obtain ⟨xsks, phase⟩ := w
  cases event with
  | process_batch ifindex seenTx seenRx processor =>
    cases phase with
    | idle =>
      obtain ⟨xsks', hc, hframes, howned⟩ :=
        complete_tx_conserves ha h.frames h.owned seenTx ifindex
      change Conserved (process_batch seenTx seenRx processor xsks ifindex)
      unfold process_batch
      rw [hc]
      exact conserved_receiveBatch ha (hframes.trans ((add_zero _).symm.trans h.frames)) howned
        processor
    | sending ifindex' i rows => exact h
    | exited => exact h
  | turn seen =>
    cases phase with
    | idle => exact h
    | sending ifindex i rows => exact conserved_sendRow ha h
    | exited => exact h
  | receive i offset len =>
    obtain ⟨hframes, howned⟩ := kernelReceive_conserves ha (h.owned i) offset len
    exact conserved_kernel h hframes howned
  | transmit i =>
    obtain ⟨hframes, howned⟩ := kernelTransmit_conserves (h.owned i)
    exact conserved_kernel h hframes howned

/-! ## The start -/

/-- The addresses of all frames fit 32 bits. -/
def AddressesFit (conf : xsknf_config) : Prop :=
  conf.num_interfaces * FRAMES_PER_SOCKET * conf.xsk_frame_size ≤ 2 ^ 32

instance : Decidable (AddressesFit conf) := inferInstanceAs (Decidable (_ ≤ _))

theorem frame_fillAddr (ha : Aligned conf e) (hfit : AddressesFit conf)
    (i : Fin conf.num_interfaces) {k : Nat} (hk : k < FRAMES_PER_SOCKET) :
    frame conf (fillAddr conf (i * FRAMES_PER_SOCKET) k) = i * FRAMES_PER_SOCKET + k := by
  have hpos : 0 < conf.xsk_frame_size := by
    rw [ha.size]
    exact Nat.two_pow_pos e
  have hlt : i * FRAMES_PER_SOCKET + k < conf.num_interfaces * FRAMES_PER_SOCKET := by
    calc i * FRAMES_PER_SOCKET + k < (i + 1) * FRAMES_PER_SOCKET := by rw [Nat.add_mul]; omega
      _ ≤ conf.num_interfaces * FRAMES_PER_SOCKET := Nat.mul_le_mul_right _ i.isLt
  have haddr : (i * FRAMES_PER_SOCKET + k) * conf.xsk_frame_size < 2 ^ 32 :=
    lt_of_lt_of_le (Nat.mul_lt_mul_of_pos_right hlt hpos) hfit
  unfold frame fillAddr
  rw [Nat.mod_eq_of_lt haddr, Nat.mul_div_cancel _ hpos]

theorem mem_init_fq {i : Fin conf.num_interfaces} {addr : Nat} :
    addr ∈ (xsknf_init conf i).fq.entries ↔
      ∃ k < FRAMES_PER_SOCKET, fillAddr conf (i * FRAMES_PER_SOCKET) k = addr := by
  unfold xsknf_init xsk_configure_socket
  rw [List.mem_map]
  simp only [List.mem_range]

theorem sum_range_blocks (m n : Nat) :
    ∑ i ∈ Finset.range n, (Multiset.range m).map (fun k => i * m + k) = Multiset.range (n * m) := by
  induction n with
  | zero => simp
  | succ n ih => rw [Finset.sum_range_succ, ih, Nat.add_mul, Nat.one_mul, Multiset.range_add]

theorem frames_init_eq_fill (i : Fin conf.num_interfaces) :
    (xsknf_init conf i).frames conf = framesOf conf (xsknf_init conf i).fq.entries := by
  have hempty : (xsknf_init conf i).frames conf =
      framesOf conf (xsknf_init conf i).fq.entries + 0 + (0 + 0) := rfl
  rw [hempty, add_zero, add_zero, add_zero]

theorem frames_init (ha : Aligned conf e) (hfit : AddressesFit conf) (i : Fin conf.num_interfaces) :
    (xsknf_init conf i).frames conf =
      (Multiset.range FRAMES_PER_SOCKET).map fun k => i * FRAMES_PER_SOCKET + k := by
  have hfill : framesOf conf (xsknf_init conf i).fq.entries =
      (Multiset.range FRAMES_PER_SOCKET).map fun k => i * FRAMES_PER_SOCKET + k := by
    unfold framesOf xsknf_init xsk_configure_socket
    rw [List.map_map, ← Multiset.map_coe]
    apply Multiset.map_congr rfl
    intro k hk
    exact frame_fillAddr ha hfit i (Multiset.mem_range.mp hk)
  rw [frames_init_eq_fill, hfill]

theorem conserved_start (ha : Aligned conf e) (hfit : AddressesFit conf) :
    Conserved (Worker.start conf) := by
  have := ha.int
  refine ⟨?_, ?_, ?_⟩
  · intro h
    cases h
  · change ringFrames (xsknf_init conf) + 0 = _
    unfold ringFrames
    rw [add_zero, Fintype.sum_congr _ _ fun i => frames_init ha hfit i,
      Fin.sum_univ_eq_sum_range fun i => (Multiset.range FRAMES_PER_SOCKET).map
        fun k => i * FRAMES_PER_SOCKET + k]
    exact sum_range_blocks FRAMES_PER_SOCKET conf.num_interfaces
  · intro i
    refine ⟨?_, ?_⟩
    · intro addr hmem
      obtain ⟨k, hk, rfl⟩ := mem_init_fq.mp hmem
      rw [owner_eq_frame_div ha.size (by omega), frame_fillAddr ha hfit i hk, Nat.mul_comm,
        Nat.mul_add_div (by omega), Nat.div_eq_of_lt hk, Nat.add_zero]
    · intro pkt hmem
      cases hmem

/-- Addresses that wrap leave a frame out: no ring holds the first frame behind
32 bits. -/
theorem a_frame_is_missing (ha : Aligned conf e) (hfit : ¬ AddressesFit conf) :
    ringFrames (xsknf_init conf) ≠
      Multiset.range (conf.num_interfaces * FRAMES_PER_SOCKET) := by
  intro heq
  have hint := ha.int
  have hpow : 2 ^ (32 - e) * 2 ^ e = 2 ^ 32 := by
    rw [← Nat.pow_add]
    congr 1
    omega
  have hlt : 2 ^ (32 - e) < conf.num_interfaces * FRAMES_PER_SOCKET := by
    unfold AddressesFit at hfit
    rw [ha.size, ← hpow, Nat.mul_le_mul_right_iff (Nat.two_pow_pos e)] at hfit
    omega
  have hmem : 2 ^ (32 - e) ∈ ringFrames (xsknf_init conf) := by
    rw [heq]
    exact Multiset.mem_range.mpr hlt
  obtain ⟨i, -, hi⟩ := Multiset.mem_sum.mp hmem
  rw [frames_init_eq_fill] at hi
  obtain ⟨addr, haddr, hframe⟩ := List.mem_map.mp hi
  obtain ⟨k, -, rfl⟩ := mem_init_fq.mp haddr
  have hsmall : fillAddr conf (i * FRAMES_PER_SOCKET) k < 2 ^ 32 := Nat.mod_lt _ (by decide)
  have hdiv : frame conf (fillAddr conf (i * FRAMES_PER_SOCKET) k) < 2 ^ (32 - e) := by
    unfold frame
    rw [ha.size]
    rw [Nat.div_lt_iff_lt_mul (Nat.two_pow_pos e), hpow]
    exact hsmall
  omega

/-! ## The law of the frames -/

/-- Between two calls: every frame is in one ring and once, the frames in fill
and receive rings are with their owner, and each socket counts its frames that
are sent and not yet taken back. -/
structure Orderly (xsks : Xsks conf) : Prop where
  frames : ringFrames xsks = Multiset.range (conf.num_interfaces * FRAMES_PER_SOCKET)
  owned : ∀ j : Fin conf.num_interfaces, OwnedBy conf j (xsks j)
  counts : ∀ j, Counts (xsks j)

/-- In every run no reserve on a fill ring fails, and between two calls the
rings are orderly, exactly when the addresses of all frames fit 32 bits. -/
theorem frames_are_conserved_iff (conf : xsknf_config) (e : Nat)
    (hsize : conf.xsk_frame_size = 2 ^ e) (hint : e < 31) (hbatch : conf.batch_size ≤ 255) :
    (∀ events, (run step (Worker.start conf) events).phase ≠ .exited ∧
      ((run step (Worker.start conf) events).phase = .idle →
        Orderly (run step (Worker.start conf) events).xsks)) ↔
    conf.num_interfaces * FRAMES_PER_SOCKET * conf.xsk_frame_size ≤ 2 ^ 32 := by
  have ha : Aligned conf e := ⟨hsize, hint, hbatch⟩
  constructor
  · intro h
    by_contra hfit
    exact a_frame_is_missing ha hfit ((h []).2 rfl).frames
  · intro hfit events
    have hrun : Conserved (run step (Worker.start conf) events) :=
      run_invariant Conserved events (fun _ event h => conserved_step ha h event)
        (conserved_start ha hfit)
    refine ⟨hrun.running, ?_⟩
    intro hidle
    have hframes := hrun.frames
    rw [hidle] at hframes
    exact ⟨(add_zero _).symm.trans hframes, hrun.owned, (tallied_run hbatch events).counts⟩

/-- Two interfaces with the default sizes. -/
def twoInterfaces : xsknf_config := ⟨2, 64, 4096⟩

theorem a_packet_in_flight_keeps_the_frames :
    (run step (Worker.start twoInterfaces) [.receive ⟨0, by decide⟩ 256 60]).phase ≠ .exited ∧
      Orderly (run step (Worker.start twoInterfaces) [.receive ⟨0, by decide⟩ 256 60]).xsks := by
  have hlaw := (frames_are_conserved_iff twoInterfaces 12 rfl (by decide) (by decide)).mpr
    (by decide) [.receive ⟨0, by decide⟩ 256 60]
  exact ⟨hlaw.1, hlaw.2 rfl⟩

/-- Frames of 64 KiB, the most that pages of this size allow, on 17 interfaces. -/
def largeFrames : xsknf_config := ⟨17, 64, 65536⟩

/-- The address of the first frame of the last interface wraps to 0: the frame
at 0 is in two fill rings, its owner is the first interface, and no ring holds
the frame that the last interface should have. -/
theorem the_last_interface_has_frames_of_the_first :
    0 ∈ ((run step (Worker.start largeFrames) []).xsks ⟨0, by decide⟩).fq.entries ∧
      0 ∈ ((run step (Worker.start largeFrames) []).xsks ⟨16, by decide⟩).fq.entries ∧
      owner largeFrames 0 = 0 ∧ ¬ Orderly (run step (Worker.start largeFrames) []).xsks := by
  refine ⟨mem_init_fq.mpr ⟨0, by decide, rfl⟩, mem_init_fq.mpr ⟨0, by decide, rfl⟩, by decide, ?_⟩
  intro h
  exact a_frame_is_missing (e := 16) ⟨rfl, by decide, by decide⟩ (by decide) h.frames

end edge_cookie.xsknf
