-- The bytes of the packets. The worker hands each packet to the network
-- function where it lies in the packet memory, and copies it when it leaves on an
-- interface with another memory. The kernel writes packets that come in and
-- reads those that go out.
import EdgeCookie.FrameRun
import EdgeCookie.ParseArgs

namespace edge_cookie.xsknf

open bytes batch runs
open args (XDP_COPY XDP_ZEROCOPY XDP_FLAGS_SKB_MODE)

variable {conf : xsknf_config} {σ : Type}

abbrev Packet := List U8

/-! ## The copy modes -/

/-- The flags of a socket behind `xsknf_init`: all sockets copy in the mode of
the generic driver, and zero-copy is the default. -/
def bind_flags (xdp_flags flags : U32) : U32 :=
  let flags :=
    if xdp_flags &&& XDP_FLAGS_SKB_MODE ≠ 0 then (flags &&& ~~~XDP_ZEROCOPY) ||| XDP_COPY else flags
  if flags &&& (XDP_COPY ||| XDP_ZEROCOPY) = 0 then flags ||| XDP_ZEROCOPY else flags

/-- The two packet memories of a worker: `copy_buffer` and `buffer`. -/
inductive Buffer where
  | copy_buffer
  | buffer
  deriving DecidableEq, Repr

/-- The memory of a socket. -/
def bufferOf (flags : U32) : Buffer := if flags &&& XDP_COPY ≠ 0 then .copy_buffer else .buffer

/-! ## The network function -/

/-- What a call of the network function leaves: the interface to send the packet
to, or nothing to drop it, the buffer, the length and its own state. -/
structure Outcome (conf : xsknf_config) (σ : Type) where
  verdict : Option (Fin conf.num_interfaces)
  buffer : List U8
  len : Nat
  state : σ

/-- The `xsknf_packet_processor` of a program. It gets the bytes from the start
of the packet to the end of its room, and the length of the packet. -/
abbrev NetworkFunction (conf : xsknf_config) (σ : Type) :=
  σ → Fin conf.num_interfaces → List U8 → Nat → Outcome conf σ

/-- What a worker runs with: the network function, the room for a packet in its
frame, and the flags of the command line. -/
structure Setup (conf : xsknf_config) (σ : Type) where
  nf : NetworkFunction conf σ
  room : Nat
  xdp_flags : U32
  flags : Fin conf.num_interfaces → U32

/-- The memory of an interface. -/
def Setup.memory (p : Setup conf σ) (i : Fin conf.num_interfaces) : Buffer :=
  bufferOf (bind_flags p.xdp_flags (p.flags i))

/-- A call of the network function, with what it got and what it left. -/
structure Call (conf : xsknf_config) where
  ifindex : Fin conf.num_interfaces
  got : List U8
  len : Nat
  verdict : Option (Fin conf.num_interfaces)
  left : List U8
  newLen : Nat

/-- The packet that the call got. -/
def Call.packet (c : Call conf) : Packet := c.got.take c.len

/-- The packet that the call left. -/
def Call.result (c : Call conf) : Packet := c.left.take c.newLen

def callOf (ifindex : Fin conf.num_interfaces) (got : List U8) (len : Nat) (out : Outcome conf σ) :
    Call conf :=
  ⟨ifindex, got, len, out.verdict, out.buffer, out.len⟩

/-! ## The addresses -/

def XSK_UNALIGNED_BUF_OFFSET_SHIFT : Nat := 48
def XSK_UNALIGNED_BUF_ADDR_MASK : Nat := 1 <<< XSK_UNALIGNED_BUF_OFFSET_SHIFT - 1

def xsk_umem_extract_addr (addr : Nat) : Nat := addr &&& XSK_UNALIGNED_BUF_ADDR_MASK
def xsk_umem_extract_offset (addr : Nat) : Nat := addr >>> XSK_UNALIGNED_BUF_OFFSET_SHIFT
def xsk_umem_add_offset_to_addr (addr : Nat) : Nat :=
  xsk_umem_extract_addr addr + xsk_umem_extract_offset addr

/-! ## The loops over packets -/

/-- The loop that processes a batch, each packet where it lies. -/
def processPackets (nf : NetworkFunction conf σ) (room : Nat) (ifindex : Fin conf.num_interfaces) :
    Mem → σ → List pkt_info → List (Call conf) × Mem × σ
  | m, s, [] => ([], m, s)
  | m, s, pkt :: pkts =>
    let addr := xsk_umem_add_offset_to_addr pkt.addr
    let got := read m addr room
    let out := nf s ifindex got pkt.len
    let (calls, m, s) := processPackets nf room ifindex (copy m addr out.buffer) out.state pkts
    (callOf ifindex got pkt.len out :: calls, m, s)

/-- What the calls say of the packet at a place of the batch. -/
def processorOf (calls : List (Call conf)) : Processor conf := fun k =>
  match calls[k]? with
  | some c => (c.verdict, c.newLen)
  | none => (none, 0)

/-- The loop that copies a row to another memory. -/
def copyRow (src : Mem) : Mem → List pkt_info → Mem
  | dst, [] => dst
  | dst, pkt :: row => copyRow src (copy dst pkt.addr (read src pkt.addr pkt.len)) row

/-! ## The worker with its packets -/

structure Engine (conf : xsknf_config) (σ : Type) where
  w : Worker conf
  umem : Buffer → Mem
  state : σ
  /-- The calls of the network function so far. -/
  calls : List (Call conf)
  /-- The packets that came in on each interface. -/
  arrived : Fin conf.num_interfaces → List Packet
  /-- The packets that went out on each interface. -/
  sent : Fin conf.num_interfaces → List Packet

def Engine.start (conf : xsknf_config) (umem : Buffer → Mem) (state : σ) : Engine conf σ :=
  ⟨Worker.start conf, umem, state, [], fun _ => [], fun _ => []⟩

inductive Packets (conf : xsknf_config) where
  | process_batch (ifindex : Fin conf.num_interfaces) (seenTx seenRx : Nat)
  | turn (seen : Nat)
  | receive (i : Fin conf.num_interfaces) (offset : Nat) (pkt : Packet)
  | transmit (i : Fin conf.num_interfaces)

variable (p : Setup conf σ) (d : Engine conf σ)

/-- The first `complete_tx` of a call, and then the batch. -/
def Engine.process_batch (ifindex : Fin conf.num_interfaces) (seenTx seenRx : Nat) :
    Engine conf σ :=
  match complete_tx seenTx d.w.xsks ifindex with
  | none => { d with w := ⟨d.w.xsks, .exited⟩ }
  | some xsks =>
    let (calls, m, state) := processPackets p.nf p.room ifindex (d.umem (p.memory ifindex)) d.state
      (received conf seenRx (xsks ifindex))
    { d with
      w := receiveBatch seenRx (processorOf calls) xsks ifindex
      umem := Function.update d.umem (p.memory ifindex) m
      state := state
      calls := d.calls ++ calls }

/-- A turn of the loop that sends. A row that has its places is copied when the
two memories are not the same. -/
def Engine.turn (seen : Nat) (ifindex : Fin conf.num_interfaces) (i : Nat)
    (rows : Fin conf.num_interfaces → List pkt_info) : Engine conf σ :=
  { d with
    w := sendRow seen d.w.xsks ifindex i rows
    umem :=
      if h : i < conf.num_interfaces then
        if p.memory ifindex ≠ p.memory ⟨i, h⟩ ∧
          ((d.w.xsks ⟨i, h⟩).tx.produce (rows ⟨i, h⟩)).isSome then
          Function.update d.umem (p.memory ⟨i, h⟩)
            (copyRow (d.umem (p.memory ifindex)) (d.umem (p.memory ⟨i, h⟩)) (rows ⟨i, h⟩))
        else d.umem
      else d.umem }

/-- The kernel takes a frame, writes the packet and adds its entry. A packet that
does not fit the frame is dropped. -/
def Engine.receive (i : Fin conf.num_interfaces) (offset : Nat) (pkt : Packet) : Engine conf σ :=
  let size := conf.xsk_frame_size
  if size < offset % size + pkt.length then d
  else
    match (d.w.xsks i).fq.entries with
    | [] => d
    | addr :: _ =>
      match (d.w.xsks i).rx.produce [⟨addr / size * size + offset % size, pkt.length⟩] with
      | none => d
      | some _ =>
        { d with
          w := step d.w (.receive i offset pkt.length)
          umem := Function.update d.umem (p.memory i)
            (copy (d.umem (p.memory i)) (addr / size * size + offset % size) pkt)
          arrived := Function.update d.arrived i (d.arrived i ++ [pkt]) }

/-- The kernel sends the bytes of the oldest entry. -/
def Engine.transmit (i : Fin conf.num_interfaces) : Engine conf σ :=
  match (d.w.xsks i).tx.entries with
  | [] => d
  | pkt :: _ =>
    match (d.w.xsks i).cq.produce [pkt.addr] with
    | none => d
    | some _ =>
      { d with
        w := step d.w (.transmit i)
        sent :=
          Function.update d.sent i (d.sent i ++ [read (d.umem (p.memory i)) pkt.addr pkt.len]) }

def Engine.step : Packets conf → Engine conf σ
  | .process_batch ifindex seenTx seenRx =>
    match d.w.phase with
    | .idle => d.process_batch p ifindex seenTx seenRx
    | _ => d
  | .turn seen =>
    match d.w.phase with
    | .sending ifindex i rows => d.turn p seen ifindex i rows
    | _ => d
  | .receive i offset pkt => d.receive p i offset pkt
  | .transmit i => d.transmit p i

end edge_cookie.xsknf
