-- The counters of a batch. They have 8 bits, where the comments of the source
-- promise batches of up to 511 packets: a batch is accounted for just when no
-- more than 255 of its packets share a verdict, and completed frames just when
-- no more than 255 of them share an owner.
import EdgeCookie.RingMoves

namespace edge_cookie.xsknf

open batch

variable {conf : xsknf_config}

/-! ## Verdicts -/

/-- How many of the first `n` packets get a verdict that `P` holds of. -/
def verdicts (processor : Processor conf) (n : Nat) (P : Option (Fin conf.num_interfaces) → Bool) :
    Nat :=
  (List.range n).countP fun k => P (processor k).1

theorem map_fst_sorted (processor : Processor conf) (pkts : List pkt_info) :
    (sorted processor pkts).map Prod.fst = (List.range pkts.length).map fun k =>
      (processor k).1 := by
  unfold sorted
  apply List.ext_getElem
  · rw [List.length_map, List.length_mapIdx, List.length_map, List.length_range]
  · intro m hm hm'
    rw [List.getElem_map, List.getElem_mapIdx, List.getElem_map, List.getElem_range]

theorem map_addr_sorted (processor : Processor conf) (pkts : List pkt_info) :
    (sorted processor pkts).map (fun x => x.2.addr) = pkts.map pkt_info.addr := by
  unfold sorted
  apply List.ext_getElem
  · rw [List.length_map, List.length_mapIdx, List.length_map]
  · intro m hm hm'
    rw [List.getElem_map, List.getElem_mapIdx, List.getElem_map]

theorem countP_sorted (processor : Processor conf) (pkts : List pkt_info)
    (P : Option (Fin conf.num_interfaces) → Bool) :
    (sorted processor pkts).countP (fun x => P x.1) = verdicts processor pkts.length P := by
  have hfst := congrArg (List.countP P) (map_fst_sorted processor pkts)
  rw [List.countP_map, List.countP_map] at hfst
  exact hfst

/-! ## What it is to be accounted for -/

/-- The drop counter and the counters of `to_tx` add up to the packets of the
batch, and each address of the batch is in the rows once. -/
def Accounted (processor : Processor conf) (pkts : List pkt_info) : Prop :=
  (to_tx processor pkts none).length + ∑ i, (to_tx processor pkts (some i)).length = pkts.length ∧
    ((to_tx processor pkts none).map pkt_info.addr : Multiset Nat) +
      ∑ i, ((to_tx processor pkts (some i)).map pkt_info.addr : Multiset Nat) =
        pkts.map pkt_info.addr

/-- The same for one interface. -/
def Accounted1if (processor : Processor conf) (pkts : List pkt_info) : Prop :=
  (to_tx_1if processor pkts false).length + (to_tx_1if processor pkts true).length = pkts.length ∧
    ((to_tx_1if processor pkts false).map pkt_info.addr : Multiset Nat) +
      ((to_tx_1if processor pkts true).map pkt_info.addr : Multiset Nat) = pkts.map pkt_info.addr

/-- Each completed address is in the rows of `to_fill` once. -/
def Refilled (conf : xsknf_config) (addrs : List Nat) : Prop :=
  ∑ i, (to_fill conf addrs (some i) : Multiset Nat) = addrs

theorem accounted_iff (processor : Processor conf) (pkts : List pkt_info) :
    Accounted processor pkts ↔ ∀ out, verdicts processor pkts.length (· = out) ≤ 255 := by
  have hiff := sum_spread_iff pkt_info.addr (sorted processor pkts)
  rw [Fintype.sum_option, Fintype.sum_option, length_sorted, map_addr_sorted] at hiff
  refine hiff.trans (forall_congr' fun out => ?_)
  rw [length_rowOf, countP_sorted processor pkts (· = out)]

theorem accounted1if_iff (processor : Processor conf) (pkts : List pkt_info) :
    Accounted1if processor pkts ↔
    ∀ sent, verdicts processor pkts.length (·.isSome = sent) ≤ 255 := by
  have hiff := sum_spread_iff pkt_info.addr ((sorted processor pkts).map fun x => (x.1.isSome, x.2))
  rw [Fintype.sum_bool, Fintype.sum_bool, List.length_map, length_sorted, List.map_map] at hiff
  have hall : Accounted1if processor pkts ↔
      ∀ sent, (rowOf ((sorted processor pkts).map fun x => (x.1.isSome, x.2)) sent).length ≤
        255 := by
    unfold Accounted1if to_tx_1if
    rw [← hiff, Nat.add_comm, add_comm (_ : Multiset Nat), ← map_addr_sorted processor pkts]
    rfl
  refine hall.trans (forall_congr' fun sent => ?_)
  rw [length_rowOf, List.countP_map]
  exact iff_of_eq (congrArg (· ≤ 255) (countP_sorted processor pkts (·.isSome = sent)))

theorem ownerRow_eq_some {addr : Nat} {i : Fin conf.num_interfaces} :
    ownerRow conf addr = some i ↔ owner conf addr = i := by
  unfold ownerRow
  by_cases h : owner conf addr < conf.num_interfaces
  · rw [dif_pos h, Option.some.injEq, Fin.ext_iff]
  · rw [dif_neg h]
    refine iff_of_false (by simp) fun heq => h ?_
    rw [heq]
    exact i.isLt

theorem refilled_iff (addrs : List Nat) :
    Refilled conf addrs ↔
      (∀ addr ∈ addrs, owner conf addr < conf.num_interfaces) ∧
        ∀ i : Fin conf.num_interfaces, addrs.countP (owner conf · = i) ≤ 255 := by
  have hiff := sum_spread_some_iff id (addrs.map fun addr => (ownerRow conf addr, addr))
  have haddr : (addrs.map fun addr => (ownerRow conf addr, addr)).map (fun x => id x.2) =
      addrs := by
    rw [List.map_map]
    exact List.map_id addrs
  have hnone : rowOf (addrs.map fun addr => (ownerRow conf addr, addr)) none = [] ↔
      ∀ addr ∈ addrs, owner conf addr < conf.num_interfaces := by
    rw [← List.length_eq_zero_iff, length_rowOf, List.countP_map, List.countP_eq_zero]
    refine forall₂_congr fun addr _ => ?_
    simp [ownerRow]
  have hsome : ∀ i : Fin conf.num_interfaces,
      (rowOf (addrs.map fun addr => (ownerRow conf addr, addr)) (some i)).length =
        addrs.countP (owner conf · = i) := by
    intro i
    rw [length_rowOf, List.countP_map]
    refine List.countP_congr fun addr _ => ?_
    simp [ownerRow_eq_some]
  rw [haddr, hnone] at hiff
  simp only [List.map_id, hsome] at hiff
  exact hiff

/-- The rows of a batch, on either path, and the rows of completed frames have
each address once just when no 8-bit counter runs over, and every completed
frame has an owner. -/
theorem batches_are_accounted_iff (conf : xsknf_config) (processor : Processor conf)
    (pkts : List pkt_info) (addrs : List Nat) :
    (Accounted processor pkts ↔ ∀ out, verdicts processor pkts.length (· = out) ≤ 255) ∧
    (Accounted1if processor pkts ↔ ∀ sent, verdicts processor pkts.length (·.isSome = sent) ≤ 255) ∧
    (Refilled conf addrs ↔
      (∀ addr ∈ addrs, owner conf addr < conf.num_interfaces) ∧
        ∀ i : Fin conf.num_interfaces, addrs.countP (owner conf · = i) ≤ 255) :=
  ⟨accounted_iff processor pkts, accounted1if_iff processor pkts, refilled_iff addrs⟩

/-- Batches of 256 packets, which the comments of the source allow. -/
def largeBatches : xsknf_config := ⟨2, 256, 4096⟩

/-- The packets of the first 256 frames. -/
def fullBatch : List pkt_info := (List.range 256).map fun k => ⟨4096 * k, 60⟩

/-- Every packet is dropped. -/
def dropAll : Processor largeBatches := fun _ => (none, 60)

theorem verdicts_dropAll {P : Option (Fin largeBatches.num_interfaces) → Bool} (h : P none = true) :
    verdicts dropAll fullBatch.length P = 256 := by
  have hall : ∀ k ∈ List.range 256, P (dropAll k).1 = true := fun _ _ => h
  unfold verdicts fullBatch
  rw [List.length_map, List.length_range, List.countP_eq_length.mpr hall, List.length_range]

/-- A batch of 256 packets that are all dropped leaves no packet in any row, on both paths: the drop
counter is 0 again. -/
theorem a_full_batch_is_lost :
    to_tx dropAll fullBatch none = [] ∧ ¬ Accounted dropAll fullBatch ∧
    ¬ Accounted1if dropAll fullBatch := by
  refine ⟨?_, ?_, ?_⟩
  · have hrow := countP_sorted dropAll fullBatch (· = none)
    rw [← List.length_eq_zero_iff, to_tx, length_spread, length_rowOf, hrow,
      verdicts_dropAll (by rfl)]
  · rw [accounted_iff]
    intro h
    have hle := h none
    rw [verdicts_dropAll (by rfl)] at hle
    exact absurd hle (by decide)
  · rw [accounted1if_iff]
    intro h
    have hle := h false
    rw [verdicts_dropAll (by rfl)] at hle
    exact absurd hle (by decide)

end edge_cookie.xsknf
