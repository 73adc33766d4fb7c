-- The forwarding loop of a worker. Each interface has a socket with four
-- rings, and every frame of the packet memory moves through them: the kernel
-- moves frames from fill to receive and from transmit to completion, and the
-- worker moves them from receive to transmit or back to fill.
import EdgeCookie.Fifo
import EdgeCookie.Batch
import EdgeCookie.Runs

namespace edge_cookie.xsknf

open batch

/-! ## The configuration -/

def FRAMES_PER_SOCKET_SHIFT : Nat := 12
def FRAMES_PER_SOCKET : Nat := 2 ^ FRAMES_PER_SOCKET_SHIFT
def XSK_RING_CONS_DEFAULT_NUM_DESCS : Nat := 2048
def XSK_RING_PROD_DEFAULT_NUM_DESCS : Nat := 2048
def fill_size : Nat := XSK_RING_PROD_DEFAULT_NUM_DESCS * 2
def comp_size : Nat := XSK_RING_CONS_DEFAULT_NUM_DESCS

structure xsknf_config where
  num_interfaces : Nat
  batch_size : Nat
  xsk_frame_size : Nat
  deriving DecidableEq, Repr

/-- The place of the lowest bit of an `int`, counted from 1, or 0. -/
def ffs (x : Nat) : Nat :=
  match (List.range 32).find? x.testBit with
  | some i => i + 1
  | none => 0

variable (conf : xsknf_config)

def owner_shift : Nat := FRAMES_PER_SOCKET_SHIFT + ffs conf.xsk_frame_size - 1

/-- The socket that a frame started in, as its address tells. -/
def owner (addr : Nat) : Nat := addr >>> owner_shift conf

/-! ## The sockets -/

/-- A place in the packet memory with a packet: also an entry of the receive
and transmit rings. -/
structure pkt_info where
  addr : Nat
  len : Nat
  deriving DecidableEq, Repr

/-- The two counters of packets; the others count calls of the kernel. -/
structure xsknf_socket_stats where
  rx_npkts : Nat
  tx_npkts : Nat
  deriving DecidableEq, Repr

structure xsk_socket_info where
  rx : Fifo pkt_info XSK_RING_CONS_DEFAULT_NUM_DESCS
  tx : Fifo pkt_info XSK_RING_PROD_DEFAULT_NUM_DESCS
  fq : Fifo Nat fill_size
  cq : Fifo Nat comp_size
  stats : xsknf_socket_stats
  outstanding_tx : Nat

/-- The product is of an `unsigned` and an `int`, so it has 32 bits. -/
def fillAddr (umem_offset i : Nat) : Nat :=
  (umem_offset + i) * conf.xsk_frame_size % 2 ^ 32

/-- A new socket: all frames are in the fill ring. -/
def xsk_configure_socket (umem_offset : Nat) : xsk_socket_info where
  rx := .empty
  tx := .empty
  fq := ⟨(List.range FRAMES_PER_SOCKET).map (fillAddr conf umem_offset), by
    rw [List.length_map, List.length_range]
    decide⟩
  cq := .empty
  stats := ⟨0, 0⟩
  outstanding_tx := 0

abbrev Xsks := Fin conf.num_interfaces → xsk_socket_info

/-- The sockets of a worker. -/
def xsknf_init : Xsks conf := fun if_idx => xsk_configure_socket conf (if_idx * FRAMES_PER_SOCKET)

variable {conf}

/-- The frames go back to the fill ring. When they do not fit, the program
exits with an error. -/
def refill (xsk : xsk_socket_info) (addrs : List Nat) : Option xsk_socket_info :=
  if addrs = [] then some xsk
  else (xsk.fq.produce addrs).map fun fq => { xsk with fq := fq }

/-! ## The completed frames -/

variable (conf) in
/-- The number of completed frames that `complete_tx` takes. -/
def sentOf (seen : Nat) (tx_xsk : xsk_socket_info) : Nat :=
  if tx_xsk.outstanding_tx = 0 then 0
  else
    let ndescs :=
      if tx_xsk.outstanding_tx > conf.batch_size then conf.batch_size else tx_xsk.outstanding_tx
    tx_xsk.cq.peek ndescs seen

variable (conf) in
/-- The row of the owner, when there is one. -/
def ownerRow (addr : Nat) : Option (Fin conf.num_interfaces) :=
  if h : owner conf addr < conf.num_interfaces then some ⟨owner conf addr, h⟩ else none

variable (conf) in
def to_fill (addrs : List Nat) : Option (Fin conf.num_interfaces) → List Nat :=
  spread (addrs.map fun addr => (ownerRow conf addr, addr))

/-- `tx_npkts += sent`. -/
def xsknf_socket_stats.sent (stats : xsknf_socket_stats) (n : Nat) : xsknf_socket_stats :=
  { stats with tx_npkts := stats.tx_npkts + n }

/-- `rx_npkts += rcvd`. -/
def xsknf_socket_stats.rcvd (stats : xsknf_socket_stats) (n : Nat) : xsknf_socket_stats :=
  { stats with rx_npkts := stats.rx_npkts + n }

/-- The sockets after the completed frames are taken out of the ring. -/
def released (seen : Nat) (xsks : Xsks conf) (ifindex : Fin conf.num_interfaces) : Xsks conf :=
  Function.update xsks ifindex
    { xsks ifindex with
      cq := (xsks ifindex).cq.release (sentOf conf seen (xsks ifindex))
      stats := (xsks ifindex).stats.sent (sentOf conf seen (xsks ifindex)) }

/-- Each socket gets its row of frames, the first socket first. -/
def refillAll (rows : Fin conf.num_interfaces → List Nat) (xsks : Xsks conf) :
    Option (Xsks conf) :=
  forEach (fun i xsk => refill xsk (rows i)) (List.finRange conf.num_interfaces) xsks

/-- The sockets after the call, or nothing when the program exits or writes a
frame behind the rows. -/
def complete_tx (seen : Nat) (xsks : Xsks conf) (ifindex : Fin conf.num_interfaces) :
    Option (Xsks conf) :=
  let sent := sentOf conf seen (xsks ifindex)
  if sent = 0 then some xsks
  else
    let addrs := (xsks ifindex).cq.first sent
    if ∃ addr ∈ addrs, conf.num_interfaces ≤ owner conf addr then none
    else
      (refillAll (fun i => to_fill conf addrs (some i)) (released seen xsks ifindex)).map
        fun xsks =>
          Function.update xsks ifindex
            { xsks ifindex with outstanding_tx := (xsks ifindex).outstanding_tx - sent }

/-! ## A batch -/

/-- What the packet processor says of the packet at a place of the batch: the
interface to send it to, or nothing to drop it, and its new length. -/
abbrev Processor (conf : xsknf_config) := Nat → Option (Fin conf.num_interfaces) × Nat

def sorted (processor : Processor conf) (pkts : List pkt_info) :
    List (Option (Fin conf.num_interfaces) × pkt_info) :=
  pkts.mapIdx fun k pkt => ((processor k).1, { pkt with len := (processor k).2 })

/-- The rows of the batch: `to_drop` is the row of no interface. -/
def to_tx (processor : Processor conf) (pkts : List pkt_info) :
    Option (Fin conf.num_interfaces) → List pkt_info := spread (sorted processor pkts)

/-- Where the worker is: between two calls, in the loop of a call that sends
row `i`, or at an exit with an error. -/
inductive Phase (conf : xsknf_config) where
  | idle
  | sending (ifindex : Fin conf.num_interfaces) (i : Nat)
      (rows : Fin conf.num_interfaces → List pkt_info)
  | exited

structure Worker (conf : xsknf_config) where
  xsks : Xsks conf
  phase : Phase conf

variable (conf) in
def Worker.start : Worker conf := ⟨xsknf_init conf, .idle⟩

/-- The part of `process_batch` behind the first `complete_tx` and before the
loop that sends. -/
def receiveBatch (seen : Nat) (processor : Processor conf) (xsks : Xsks conf)
    (ifindex : Fin conf.num_interfaces) : Worker conf :=
  let rx_xsk := xsks ifindex
  let rcvd := rx_xsk.rx.peek conf.batch_size seen
  if rcvd = 0 then ⟨xsks, .idle⟩
  else
    let rows := to_tx processor (rx_xsk.rx.first rcvd)
    let rx_xsk := { rx_xsk with rx := rx_xsk.rx.release rcvd, stats := rx_xsk.stats.rcvd rcvd }
    match refill rx_xsk ((rows none).map pkt_info.addr) with
    | none => ⟨Function.update xsks ifindex rx_xsk, .exited⟩
    | some rx_xsk =>
      ⟨Function.update xsks ifindex rx_xsk, .sending ifindex 0 fun i => rows (some i)⟩

/-- The call up to the loop that sends. -/
def process_batch (seenTx seenRx : Nat) (processor : Processor conf) (xsks : Xsks conf)
    (ifindex : Fin conf.num_interfaces) : Worker conf :=
  match complete_tx seenTx xsks ifindex with
  | none => ⟨xsks, .exited⟩
  | some xsks => receiveBatch seenRx processor xsks ifindex

/-- One turn of the loop that sends. Row `i` goes to the transmit ring when it
fits. When it does not, the worker stays in the `while` loop: it takes the
completed frames of the receiving interface and tries again. -/
def sendRow (seen : Nat) (xsks : Xsks conf) (ifindex : Fin conf.num_interfaces) (i : Nat)
    (rows : Fin conf.num_interfaces → List pkt_info) : Worker conf :=
  if h : i < conf.num_interfaces then
    let row := rows ⟨i, h⟩
    let xsk := xsks ⟨i, h⟩
    if row = [] then ⟨xsks, .sending ifindex (i + 1) rows⟩
    else
      match xsk.tx.produce row with
      | some tx =>
        let xsk := { xsk with tx := tx, outstanding_tx := xsk.outstanding_tx + row.length }
        ⟨Function.update xsks ⟨i, h⟩ xsk, .sending ifindex (i + 1) rows⟩
      | none =>
        match complete_tx seen xsks ifindex with
        | none => ⟨xsks, .exited⟩
        | some xsks => ⟨xsks, .sending ifindex i rows⟩
  else ⟨xsks, .idle⟩

/-! ## The kernel -/

variable (conf) in
/-- A packet comes in: the kernel takes a frame of the fill ring and puts the
packet into it, at some place in the frame. -/
def kernelReceive (offset len : Nat) (xsk : xsk_socket_info) : xsk_socket_info :=
  match xsk.fq.entries with
  | [] => xsk
  | addr :: _ =>
    let size := conf.xsk_frame_size
    match xsk.rx.produce [⟨addr / size * size + offset % size, len⟩] with
    | none => xsk
    | some rx => { xsk with fq := xsk.fq.release 1, rx := rx }

/-- A packet goes out: the frame moves to the completion ring when that has
room. -/
def kernelTransmit (xsk : xsk_socket_info) : xsk_socket_info :=
  match xsk.tx.entries with
  | [] => xsk
  | pkt :: _ =>
    match xsk.cq.produce [pkt.addr] with
    | none => xsk
    | some cq => { xsk with tx := xsk.tx.release 1, cq := cq }

/-! ## Runs -/

inductive Event (conf : xsknf_config) where
  | process_batch (ifindex : Fin conf.num_interfaces) (seenTx seenRx : Nat)
      (processor : Processor conf)
  | turn (seen : Nat)
  | receive (i : Fin conf.num_interfaces) (offset len : Nat)
  | transmit (i : Fin conf.num_interfaces)

/-- A step of the worker or of the kernel. The worker makes a new call only
between two calls, and the kernel moves frames at any time. -/
def step (w : Worker conf) : Event conf → Worker conf
  | .process_batch ifindex seenTx seenRx processor =>
    match w.phase with
    | .idle => process_batch seenTx seenRx processor w.xsks ifindex
    | _ => w
  | .turn seen =>
    match w.phase with
    | .sending ifindex i rows => sendRow seen w.xsks ifindex i rows
    | _ => w
  | .receive i offset len =>
    { w with xsks := Function.update w.xsks i (kernelReceive conf offset len (w.xsks i)) }
  | .transmit i => { w with xsks := Function.update w.xsks i (kernelTransmit (w.xsks i)) }

/-! ## One interface -/

variable (conf) in
/-- With one interface all frames go back to the one fill ring, so there are no rows. -/
def complete_tx_1if (seen : Nat) (xsk : xsk_socket_info) : Option xsk_socket_info :=
  let sent := sentOf conf seen xsk
  if sent = 0 then some xsk
  else
    let xsk := { xsk with stats := xsk.stats.sent sent }
    (xsk.fq.produce (xsk.cq.first sent)).map fun fq =>
      { xsk with fq := fq, cq := xsk.cq.release sent, outstanding_tx := xsk.outstanding_tx - sent }

/-- The two rows of the batch: `to_tx` is the row of `true`, whatever the interface, and `to_drop`
that of `false`. -/
def to_tx_1if (processor : Processor conf) (pkts : List pkt_info) : Bool → List pkt_info :=
  spread ((sorted processor pkts).map fun x => (x.1.isSome, x.2))

inductive Phase1if where
  | idle
  | sending (row : List pkt_info)
  | exited

structure Worker1if where
  xsk : xsk_socket_info
  phase : Phase1if

/-- The part of `process_batch_1if` behind the first `complete_tx_1if` and before the loop that
sends. -/
def receiveBatch1if (seen : Nat) (processor : Processor conf) (xsk : xsk_socket_info) : Worker1if :=
  let rcvd := xsk.rx.peek conf.batch_size seen
  if rcvd = 0 then ⟨xsk, .idle⟩
  else
    let rows := to_tx_1if processor (xsk.rx.first rcvd)
    let xsk := { xsk with rx := xsk.rx.release rcvd, stats := xsk.stats.rcvd rcvd }
    match refill xsk ((rows false).map pkt_info.addr) with
    | none => ⟨xsk, .exited⟩
    | some xsk => ⟨xsk, .sending (rows true)⟩

/-- The call up to the loop that sends. -/
def process_batch_1if (seenTx seenRx : Nat) (processor : Processor conf) (xsk : xsk_socket_info) :
    Worker1if :=
  match complete_tx_1if conf seenTx xsk with
  | none => ⟨xsk, .exited⟩
  | some xsk => receiveBatch1if seenRx processor xsk

variable (conf) in
/-- One turn of the loop that sends. -/
def sendRow1if (seen : Nat) (xsk : xsk_socket_info) (row : List pkt_info) : Worker1if :=
  if row = [] then ⟨xsk, .idle⟩
  else
    match xsk.tx.produce row with
    | some tx => ⟨{ xsk with tx := tx, outstanding_tx := xsk.outstanding_tx + row.length }, .idle⟩
    | none =>
      match complete_tx_1if conf seen xsk with
      | none => ⟨xsk, .exited⟩
      | some xsk => ⟨xsk, .sending row⟩

/-- What happens inside a call: a turn of its loop, or a move of the kernel. -/
inductive Move where
  | turn (seen : Nat)
  | receive (offset len : Nat)
  | transmit

variable (conf) in
def step1if (w : Worker1if) : Move → Worker1if
  | .turn seen =>
    match w.phase with
    | .sending row => sendRow1if conf seen w.xsk row
    | _ => w
  | .receive offset len => { w with xsk := kernelReceive conf offset len w.xsk }
  | .transmit => { w with xsk := kernelTransmit w.xsk }

end edge_cookie.xsknf
