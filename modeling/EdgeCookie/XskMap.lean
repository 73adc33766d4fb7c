-- The map from the receive queues to the sockets of the switch agent. The
-- loader enters the socket of each interface and queue, and the XDP program
-- picks a slot for each TCP packet. Each of the two computes the slot with a
-- formula of its own, and the formulas agree on the first interface only.
import EdgeCookie.SwitchAgent
import Mathlib.Logic.Function.Basic

namespace edge_cookie.xsknf

open bytes headers

/-! ## The loader -/

/-- An `AF_XDP` socket, bound to an interface and a receive queue of it. -/
structure xsk_socket where
  if_idx : Nat
  queue : Nat
  deriving DecidableEq, Repr

/-- The socket `workers[wrk_idx].xsks[if_idx]`: `xsknf_init` binds it to the
queue with the number of the worker. -/
def socketOf (wrk_idx if_idx : Nat) : xsk_socket := ⟨if_idx, wrk_idx⟩

/-- The slots of `xsks`. -/
abbrev XskMap := Nat → Option xsk_socket

def xsks_max_entries : Nat := 48

/-- A slot behind the end of the map is refused. -/
def bpf_map_update_elem (xsks : XskMap) (key : Nat) (x : xsk_socket) : Option XskMap :=
  if key < xsks_max_entries then some (Function.update xsks key (some x)) else none

/-- The inner loop, over the workers. -/
def enterInterface (workers : Nat) (xsks : XskMap) (if_idx : Nat) : Option XskMap :=
  (List.range workers).foldlM (fun m wrk_idx =>
    bpf_map_update_elem m (if_idx * workers + wrk_idx) (socketOf wrk_idx if_idx)) xsks

/-- The map after the loader, or nothing when the loader exits with an error. -/
def enter_xsks_into_map (num_interfaces workers : Nat) : Option XskMap :=
  (List.range num_interfaces).foldlM (enterInterface workers) fun _ => none

/-- The map with its first `n` slots entered. -/
def entered (workers n : Nat) : XskMap :=
  fun key => if key < n then some (socketOf (key % workers) (key / workers)) else none

theorem update_entered {w i j : Nat} (hj : j < w) :
    Function.update (entered w (i * w + j)) (i * w + j) (some (socketOf j i)) =
      entered w (i * w + (j + 1)) := by
  funext key
  unfold entered
  rw [Function.update_apply]
  by_cases hk : key = i * w + j
  · have hdiv : (i * w + j) / w = i := by
      rw [Nat.mul_comm, Nat.mul_add_div (by omega), Nat.div_eq_of_lt hj, Nat.add_zero]
    have hmod : (i * w + j) % w = j := by
      rw [Nat.mul_comm, Nat.mul_add_mod, Nat.mod_eq_of_lt hj]
    rw [if_pos hk, hk, if_pos (by omega), hdiv, hmod]
  · rw [if_neg hk]
    by_cases hlt : key < i * w + j
    · rw [if_pos hlt, if_pos (by omega)]
    · rw [if_neg hlt, if_neg (by omega)]

theorem enterInterface_entered {w i : Nat} (hi : i * w ≤ xsks_max_entries) :
    enterInterface w (entered w (i * w)) i =
      if (i + 1) * w ≤ xsks_max_entries then some (entered w ((i + 1) * w)) else none := by
  have hloop : ∀ n ≤ w, (List.range n).foldlM (fun m wrk_idx =>
      bpf_map_update_elem m (i * w + wrk_idx) (socketOf wrk_idx i)) (entered w (i * w)) =
        if i * w + n ≤ xsks_max_entries then some (entered w (i * w + n)) else none := by
    intro n hn
    induction n with
    | zero => simp [hi]
    | succ n ih =>
      rw [List.range_succ, List.foldlM_append, ih (by omega)]
      by_cases hfit : i * w + n < xsks_max_entries
      · rw [if_pos (by omega), if_pos (by omega)]
        simp only [Option.bind_eq_bind, Option.bind_some, List.foldlM_cons, List.foldlM_nil,
          bpf_map_update_elem, if_pos hfit, update_entered hn]
        rfl
      · rw [if_neg (show ¬ i * w + (n + 1) ≤ _ by omega)]
        by_cases hfull : i * w + n ≤ xsks_max_entries
        · simp [hfull, bpf_map_update_elem, hfit]
        · simp [hfull]
  rw [Nat.add_mul, Nat.one_mul]
  exact hloop w (Nat.le_refl w)

/-- The loader enters the sockets slot after slot, and exits with an error when
the map is too small for them. -/
theorem enter_xsks_into_map_eq (n w : Nat) :
    enter_xsks_into_map n w =
      if n * w ≤ xsks_max_entries then some (entered w (n * w)) else none := by
  unfold enter_xsks_into_map
  induction n with
  | zero =>
    simp only [List.range_zero, List.foldlM_nil, Nat.zero_mul, Nat.zero_le, if_true]
    rfl
  | succ n ih =>
    rw [List.range_succ, List.foldlM_append, ih]
    by_cases hfit : n * w ≤ xsks_max_entries
    · simp [hfit, enterInterface_entered hfit]
    · have hfull : ¬ (n + 1) * w ≤ xsks_max_entries := by
        rw [Nat.add_mul]
        omega
      simp [hfit, hfull]

/-- The socket of a queue is in one slot, and no other slot holds it. -/
theorem entered_eq_socketOf_iff {n w o q key : Nat} (ho : o < n) (hq : q < w) :
    entered w (n * w) key = some (socketOf q o) ↔ key = o * w + q := by
  have hlast : o * w + q < n * w := by
    calc o * w + q < (o + 1) * w := by rw [Nat.add_mul]; omega
      _ ≤ n * w := Nat.mul_le_mul_right w ho
  unfold entered socketOf
  constructor
  · intro h
    by_cases hkey : key < n * w
    · rw [if_pos hkey] at h
      have hs := Option.some.inj h
      have hdiv : key / w = o := congrArg xsk_socket.if_idx hs
      have hmod : key % w = q := congrArg xsk_socket.queue hs
      rw [← hdiv, ← hmod, Nat.mul_comm, Nat.div_add_mod]
    · rw [if_neg hkey] at h
      cases h
  · rintro rfl
    rw [if_pos hlast, Nat.mul_comm, Nat.mul_add_mod, Nat.mod_eq_of_lt hq,
      Nat.mul_add_div (by omega), Nat.div_eq_of_lt hq, Nat.add_zero]

/-! ## The XDP program -/

def CLIENT_R_IF : U32 := 8
def SERVER_R_IF : U32 := 3
def ATTACKER_R_IF : U32 := 5

/-- What the user program tells the XDP program. -/
structure global_data where
  client_r_if_order : U32
  server_r_if_order : U32
  attacker_r_if_order : U32
  workers_num : U32

/-- The static variables of the XDP program. -/
structure XdpState where
  init : Bool
  workers : U32
  client_r_if_order : U32
  server_r_if_order : U32
  attacker_r_if_order : U32

def XdpState.boot : XdpState := ⟨false, 0, 0, 0, 0⟩

/-- The packet, with its interface and its queue. -/
structure xdp_md where
  frame : Pkt
  ingress_ifindex : U32
  rx_queue_index : U32

/-- A call of `bpf_redirect_map` on `xsks` carries its slot. -/
inductive XdpAction where
  | XDP_ABORTED
  | XDP_PASS
  | bpf_redirect_map (key : U32)
  deriving DecidableEq, Repr

/-- The first packet takes over what the user program tells. -/
def XdpState.latch (global : global_data) (s : XdpState) : XdpState :=
  if s.init then s
  else ⟨true, global.workers_num, global.client_r_if_order, global.server_r_if_order,
    global.attacker_r_if_order⟩

/-- The redirect of the three interfaces, which differ in their order only. -/
def redirect (s : XdpState) (ctx : xdp_md) (order : U32) : XdpAction :=
  .bpf_redirect_map (ctx.rx_queue_index + (s.workers - 1) * order)

def handle_xdp (global : global_data) (s : XdpState) (ctx : xdp_md) : XdpState × XdpAction :=
  let s := s.latch global
  if ctx.frame.len < 14 then (s, .XDP_ABORTED)
  else if ntohs ctx.frame.h_proto = ETH_P_IP then
    if ctx.frame.len < 34 then (s, .XDP_ABORTED)
    else if ctx.frame.protocol = IPPROTO_TCP then
      if ctx.ingress_ifindex = CLIENT_R_IF then (s, redirect s ctx s.client_r_if_order)
      else if ctx.ingress_ifindex = SERVER_R_IF then (s, redirect s ctx s.server_r_if_order)
      else if ctx.ingress_ifindex = ATTACKER_R_IF then (s, redirect s ctx s.attacker_r_if_order)
      else (s, .XDP_PASS)
    else (s, .XDP_PASS)
  else (s, .XDP_PASS)

/-- The order of an interface, for the interfaces that the program knows. -/
def XdpState.order (s : XdpState) (ifindex : U32) : Option U32 :=
  if ifindex = CLIENT_R_IF then some s.client_r_if_order
  else if ifindex = SERVER_R_IF then some s.server_r_if_order
  else if ifindex = ATTACKER_R_IF then some s.attacker_r_if_order
  else none

/-- A TCP packet comes in on queue `q` of interface `o`, and the program runs
with `w` workers. -/
structure ReceivedOn (global : global_data) (s : XdpState) (ctx : xdp_md) (w o q : Nat) : Prop where
  ip : ntohs ctx.frame.h_proto = ETH_P_IP
  tcp : ctx.frame.protocol = IPPROTO_TCP
  whole : 34 ≤ ctx.frame.len
  workers : (s.latch global).workers = BitVec.ofNat 32 w
  interface : (s.latch global).order ctx.ingress_ifindex = some (BitVec.ofNat 32 o)
  queue : ctx.rx_queue_index = BitVec.ofNat 32 q

variable {global : global_data} {s : XdpState} {ctx : xdp_md} {w o q : Nat}

/-- The slot of a packet of a known interface. -/
theorem handle_xdp_redirects (h : ReceivedOn global s ctx w o q) :
    (handle_xdp global s ctx).2 = redirect (s.latch global) ctx (BitVec.ofNat 32 o) := by
  have hi := h.interface
  have hlen := h.whole
  unfold XdpState.order at hi
  unfold handle_xdp
  dsimp only
  rw [if_neg (by omega), if_pos h.ip, if_neg (by omega), if_pos h.tcp]
  by_cases hc : ctx.ingress_ifindex = CLIENT_R_IF
  · rw [if_pos hc] at hi ⊢
    rw [Option.some.inj hi]
  rw [if_neg hc] at hi ⊢
  by_cases hs : ctx.ingress_ifindex = SERVER_R_IF
  · rw [if_pos hs] at hi ⊢
    rw [Option.some.inj hi]
  rw [if_neg hs] at hi ⊢
  by_cases ha : ctx.ingress_ifindex = ATTACKER_R_IF
  · rw [if_pos ha] at hi ⊢
    rw [Option.some.inj hi]
  · rw [if_neg ha] at hi
    cases hi

/-- The slot as a number, when it does not wrap. -/
theorem slot_toNat (hq : q < w) (hfit : q + (w - 1) * o < 2 ^ 32) (hw : w < 2 ^ 32)
    (ho : o < 2 ^ 32) :
    (BitVec.ofNat 32 q + (BitVec.ofNat 32 w - 1) * BitVec.ofNat 32 o).toNat =
      q + (w - 1) * o := by
  have hpred : (BitVec.ofNat 32 w - 1).toNat = w - 1 := by
    have hone : (1 : U32).toNat = 1 := rfl
    have hwn : (BitVec.ofNat 32 w).toNat = w := by
      rw [BitVec.toNat_ofNat, Nat.mod_eq_of_lt hw]
    have hle : (1 : U32) ≤ BitVec.ofNat 32 w := by
      rw [BitVec.le_def, hone, hwn]
      omega
    rw [BitVec.toNat_sub_of_le hle, hone, hwn]
  have hsmall : (w - 1) * o < 2 ^ 32 := by omega
  rw [BitVec.toNat_add, BitVec.toNat_mul, hpred, BitVec.toNat_ofNat, BitVec.toNat_ofNat,
    Nat.mod_eq_of_lt ho, Nat.mod_eq_of_lt hsmall, Nat.mod_eq_of_lt (by omega : q < 2 ^ 32),
    Nat.mod_eq_of_lt hfit]

variable {global' : global_data} {s' : XdpState} {ctx' : xdp_md} {o' q' n : Nat} {xsks : XskMap}

/-- The slot that the program picks holds the socket of the queue. -/
def ReachesSocket (xsks : XskMap) (action : XdpAction) (o q : Nat) : Prop :=
  ∃ key, action = .bpf_redirect_map key ∧ xsks key.toNat = some (socketOf q o)

/-- A loader that does not exit has entered all sockets, and they fit the map. -/
theorem loaded_fits (hm : enter_xsks_into_map n w = some xsks) :
    xsks = entered w (n * w) ∧ n * w ≤ 48 := by
  rw [enter_xsks_into_map_eq] at hm
  by_cases hfit : n * w ≤ xsks_max_entries
  · rw [if_pos hfit] at hm
    exact ⟨(Option.some.inj hm).symm, hfit⟩
  · rw [if_neg hfit] at hm
    cases hm

/-- The slot of a packet, as a number. -/
theorem redirect_slot (h : ReceivedOn global s ctx w o q) (ho : o < n) (hq : q < w)
    (hfit : n * w ≤ 48) :
    ∃ key : U32, (handle_xdp global s ctx).2 = .bpf_redirect_map key ∧
      key.toNat = q + (w - 1) * o := by
  have hw : w ≤ n * w := Nat.le_mul_of_pos_left w (by omega)
  have hn : n ≤ n * w := Nat.le_mul_of_pos_right n (by omega)
  have hrow : (w - 1) * o ≤ w * n := Nat.mul_le_mul (Nat.sub_le w 1) (by omega)
  rw [Nat.mul_comm w n] at hrow
  refine ⟨_, handle_xdp_redirects h, ?_⟩
  rw [h.workers, h.queue]
  exact slot_toNat hq (by omega) (by omega) (by omega)

/-- The two formulas agree on the first interface only. -/
theorem slots_agree_iff (hq : q < w) : q + (w - 1) * o = o * w + q ↔ o = 0 := by
  obtain ⟨v, rfl⟩ : ∃ v, w = v + 1 := ⟨w - 1, by omega⟩
  rw [Nat.add_sub_cancel, Nat.mul_add, Nat.mul_one, Nat.mul_comm v o]
  omega

theorem reachesSocket_iff (hm : enter_xsks_into_map n w = some xsks) (ho : o < n) (hq : q < w)
    (h : ReceivedOn global s ctx w o q) :
    ReachesSocket xsks (handle_xdp global s ctx).2 o q ↔ o = 0 := by
  obtain ⟨rfl, hfit⟩ := loaded_fits hm
  obtain ⟨key, hkey, hnat⟩ := redirect_slot h ho hq hfit
  rw [← slots_agree_iff (o := o) hq, ← hnat, ← entered_eq_socketOf_iff ho hq]
  constructor
  · rintro ⟨key', hkey', hslot⟩
    rw [hkey] at hkey'
    cases hkey'
    exact hslot
  · intro hslot
    exact ⟨key, hkey, hslot⟩

/-- Packets on two queues reach the sockets of their queues, through two slots,
only when both come in on the first interface. -/
theorem packets_reach_their_sockets_iff (n w o q o' q' : Nat) (xsks : XskMap)
    (global global' : global_data) (s s' : XdpState) (ctx ctx' : xdp_md)
    (hm : enter_xsks_into_map n w = some xsks) (ho : o < n) (hq : q < w) (ho' : o' < n)
    (hq' : q' < w) (h : ReceivedOn global s ctx w o q) (h' : ReceivedOn global' s' ctx' w o' q') :
    (ReachesSocket xsks (handle_xdp global s ctx).2 o q ∧
      ReachesSocket xsks (handle_xdp global' s' ctx').2 o' q' ∧
      ((o, q) ≠ (o', q') → (handle_xdp global s ctx).2 ≠ (handle_xdp global' s' ctx').2)) ↔
      o = 0 ∧ o' = 0 := by
  constructor
  · rintro ⟨hr, hr', -⟩
    exact ⟨(reachesSocket_iff hm ho hq h).mp hr, (reachesSocket_iff hm ho' hq' h').mp hr'⟩
  · rintro ⟨h0, h0'⟩
    have hr := (reachesSocket_iff hm ho hq h).mpr h0
    have hr' := (reachesSocket_iff hm ho' hq' h').mpr h0'
    refine ⟨hr, hr', ?_⟩
    -- one slot holds one socket, so packets that share it share the queue
    intro hne heq
    obtain ⟨key, hkey, hslot⟩ := hr
    obtain ⟨key', hkey', hslot'⟩ := hr'
    rw [heq, hkey'] at hkey
    cases hkey
    have hsame := Option.some.inj (hslot.symm.trans hslot')
    exact hne (Prod.ext (congrArg xsk_socket.if_idx hsame) (congrArg xsk_socket.queue hsame))

/-! ## Two interfaces and two workers -/

/-- The orders of the source, with two workers. -/
def twoWorkers : global_data where
  client_r_if_order := 0
  server_r_if_order := 1
  attacker_r_if_order := 0
  workers_num := 2

def agentSegment (ifindex queue : U32) : xdp_md :=
  ⟨.segment switch_agent.server_ip switch_agent.client_ip 80 7 (htonl 6) (htonl 2) 0x10 9 5,
    ifindex, queue⟩

theorem the_queues_of_the_client_have_their_slots :
    ReachesSocket (entered 2 4) (handle_xdp twoWorkers .boot (agentSegment CLIENT_R_IF 0)).2 0 0 ∧
      ReachesSocket (entered 2 4) (handle_xdp twoWorkers .boot (agentSegment CLIENT_R_IF 1)).2 0 1 ∧
      (handle_xdp twoWorkers .boot (agentSegment CLIENT_R_IF 0)).2 ≠
        (handle_xdp twoWorkers .boot (agentSegment CLIENT_R_IF 1)).2 := by
  obtain ⟨hfirst, hsecond, hslots⟩ := (packets_reach_their_sockets_iff 2 2 0 0 0 1 (entered 2 4)
    twoWorkers twoWorkers .boot .boot (agentSegment CLIENT_R_IF 0) (agentSegment CLIENT_R_IF 1)
    (enter_xsks_into_map_eq 2 2) (by decide) (by decide) (by decide) (by decide)
    ⟨by decide, by decide, by decide, by decide, by decide, by decide⟩
    ⟨by decide, by decide, by decide, by decide, by decide, by decide⟩).mpr ⟨rfl, rfl⟩
  exact ⟨hfirst, hsecond, hslots (by decide)⟩

/-- The first queue of the server shares the slot of the last queue of the
client, and the socket in the slot is the one of the client. -/
theorem the_server_takes_a_slot_of_the_client :
    enter_xsks_into_map 2 2 = some (entered 2 4) ∧
      ReceivedOn twoWorkers .boot (agentSegment SERVER_R_IF 0) 2 1 0 ∧
      ReceivedOn twoWorkers .boot (agentSegment CLIENT_R_IF 1) 2 0 1 ∧
      (handle_xdp twoWorkers .boot (agentSegment SERVER_R_IF 0)).2 = .bpf_redirect_map 1 ∧
      (handle_xdp twoWorkers .boot (agentSegment CLIENT_R_IF 1)).2 = .bpf_redirect_map 1 ∧
      entered 2 4 1 = some (socketOf 1 0) ∧ entered 2 4 2 = some (socketOf 0 1) ∧
      ¬ ReachesSocket (entered 2 4) (handle_xdp twoWorkers .boot (agentSegment SERVER_R_IF 0)).2
        1 0 := by
  have hslot : (handle_xdp twoWorkers .boot (agentSegment SERVER_R_IF 0)).2 =
      .bpf_redirect_map 1 := by decide
  refine ⟨enter_xsks_into_map_eq 2 2, ⟨by decide, by decide, by decide, by decide, by decide,
    by decide⟩, ⟨by decide, by decide, by decide, by decide, by decide, by decide⟩, hslot,
    by decide, by decide, by decide, ?_⟩
  rintro ⟨key, hkey, hsocket⟩
  rw [hslot] at hkey
  cases hkey
  revert hsocket
  decide

end edge_cookie.xsknf
