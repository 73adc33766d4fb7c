-- The gateway agent of smartcookie. It answers SYNs with a SYN cookie as the
-- one of htscookie does, but keeps checked flows in its filter, and tags the
-- first ACK of a flow with ECE for the server agent. A frame with a short TCP
-- header can make it read through a null pointer: the result is then `none`.
import EdgeCookie.SwitchAgent

namespace edge_cookie.smartcookie

open bytes headers
open switch_agent (pkt_5tuple common_synack_opt common_apache_opt MSS_536 MSS_1460 client_ip
  server_ip attacker_ip client_mac server_mac attacker_mac client_r_mac server_r_mac attacker_r_mac
  CLIENT_R_IF_ORDER SERVER_R_IF_ORDER ATTACKER_R_IF_ORDER parse_timestamp replaceOpts flagWord
  flowOf tcpAt)

/-! ## Options and tables -/

/-- The options of the command line. No option sets `opt_ab_test`. -/
structure Options where
  opt_drop : Bool := false
  opt_pressure : Bool := false
  opt_forward : Bool := false
  opt_tcpoption : Bool := false
  opt_ab_test : Bool := true

/-- The globals of the agent. The first three have one slot for each worker. -/
structure Agent where
  flows : Nat → pkt_5tuple
  sa_opts : Nat → common_synack_opt
  sa_apache_opts : Nat → common_apache_opt
  bf : bloom_filter

/-- The globals after the `init_` functions. -/
def Agent.boot : Agent where
  flows _ := ⟨0, 0, 0, 0, fun _ => 0⟩
  sa_opts _ := ⟨MSS_536, 0x0204, ⟨8, 10, 1, 0⟩⟩
  sa_apache_opts _ := ⟨MSS_1460, 0x0204, ⟨8, 10, 0, 0⟩, 1, 3, 3, 7⟩
  bf := bloom_filter_new 3145728 [djb2, sdbm, mm2]

/-- `add_bf`: some random flows are put in the filter at the start, each of three
numbers. -/
def add_bf (a : Agent) (rands : List (U32 × U32 × U32)) : Agent :=
  let put := fun bf (x, y, z) => bloom_filter_put bf (bytes32 x ++ bytes32 y ++ bytes32 z)
  { a with bf := rands.foldl put a.bf }

/-- The first `n` bytes of a flow, which go to the filter. -/
def flowBytes (f : pkt_5tuple) (n : Nat) : List U8 := f.bytes.take n

/-- `hsiphash` of this agent: the same rounds and constants as in that of htscookie. -/
def hsiphash (src dst : U32) (src_port dst_port : U16) : U32 :=
  let ports : U32 := dst_port.setWidth 32 <<< 16 ||| src_port.setWidth 32
  sipWords key0 key1 [ntohl src, ntohl dst, ntohl ports]

/-! ## Parts of the packet processor -/

/-- `forward`: a frame for another address than the three is dropped. -/
def forward (p : Pkt) : Int × Pkt :=
  if p.daddr = client_ip then
    (CLIENT_R_IF_ORDER, (p.memcpy 6 client_r_mac).memcpy 0 client_mac)
  else if p.daddr = server_ip then
    (SERVER_R_IF_ORDER, (p.memcpy 6 server_r_mac).memcpy 0 server_mac)
  else if p.daddr = attacker_ip then
    (ATTACKER_R_IF_ORDER, (p.memcpy 6 attacker_r_mac).memcpy 0 attacker_mac)
  else (-1, p)

/-- The pointer `ts`, which stays `NULL` for a TCP header below 32 bytes. The
frame is dropped when the parser fails or the option does not fit the frame. -/
def stamp (p : Pkt) : Option (Option Nat) :=
  if 8 ≤ p.doff tcpAt then
    match parse_timestamp p tcpAt with
    | none => none
    | some opt_ts_offset =>
      let ts := tcpAt + 20 + opt_ts_offset
      if p.len < ts + 10 then none else some (some ts)
  else some none

/-- `flows[worker_id]` after a write. -/
def setFlow (a : Agent) (w : Nat) (flow : pkt_5tuple) : Agent :=
  { a with flows := fun i => if i = w then flow else a.flows i }

/-! ## Inbound SYN -/

/-- The options of the answer. With `opt_ab_test` the lengths stay. -/
def synackOpts (o : Options) (a : Agent) (p : Pkt) (w ts : Nat) : Agent × Pkt :=
  let rx_tsval := p.tsval ts
  if o.opt_tcpoption then
    if !o.opt_ab_test then
      let sa_opt :=
        { a.sa_opts w with ts := { (a.sa_opts w).ts with tsecr := rx_tsval, tsval := 1 } }
      ({ a with sa_opts := fun i => if i = w then sa_opt else a.sa_opts i },
        replaceOpts p tcpAt sa_opt.bytes)
    else (a, (p.put32 (ts + 2) 1).put32 (ts + 6) rx_tsval)
  else if !o.opt_ab_test then (a, replaceOpts p tcpAt [])
  else (a, p)

/-- The header of the answer. The cookie is computed between the exchange of
the addresses and the exchange of the ports. -/
def synackHeader (o : Options) (p : Pkt) (ts : Nat) (rx_tsval rx_tsecr : U32) : Pkt :=
  let tcp := tcpAt
  let p := p.xor_swap 4 26 30
  let rx_seq := p.seq tcp
  let hashcookie := hsiphash p.daddr p.saddr (p.source tcp) (p.dest tcp)
  let p := p.put32 (tcp + 4) hashcookie
  let rx_ack := p.ack_seq tcp
  let p := p.put32 (tcp + 8) (htonl (ntohl rx_seq + 1))
  let p := p.xor_swap 2 tcp (tcp + 2)
  let rx_flag := flagWord p tcp
  let p := p.set_flag tcp 1
  let p := p.set_flag tcp 4
  let new_flag := flagWord p tcp
  if !o.opt_ab_test then
    let (p, ck) := cksumTcp p tcp
    p.put16 (tcp + 16) ck
  else
    let old_win := p.window tcp
    let p := p.put16 (tcp + 14) (htons 502)
    p.put16 (tcp + 16) (csumUpdate (p.tcp_check tcp)
      [~~~rx_tsval, p.tsval ts, ~~~rx_tsecr, p.tsecr ts, ~~~rx_seq, p.seq tcp, ~~~rx_ack,
        p.ack_seq tcp, not16 old_win, (p.window tcp).setWidth 32, not16 rx_flag,
        new_flag.setWidth 32])

/-- The answer to a SYN. -/
def answerSyn (o : Options) (a : Agent) (p : Pkt) (w ts : Nat) : Agent × Pkt :=
  let rx_tsval := p.tsval ts
  let rx_tsecr := p.tsecr ts
  let (a, p) := synackOpts o a p w ts
  (a, synackHeader o p ts rx_tsval rx_tsecr)

/-- The source reads `ts->tsval` before it asks whether there is an option. -/
def inboundSyn (o : Options) (a : Agent) (p : Pkt) (w : Nat) :
    Option Nat → Option (Int × Agent × Pkt)
  | none => none
  | some ts =>
    let (a, p) := answerSyn o a p w ts
    if o.opt_pressure then some (-1, a, p)
    else
      let (out, p) := forward p
      some (out, a, p)

/-! ## Inbound ACK -/

/-- The SYN cookie check of the gateway. -/
def synCheck (p : Pkt) : Bool :=
  htonl (ntohl (p.ack_seq tcpAt) - 1) =
    hsiphash p.saddr p.daddr (p.source tcpAt) (p.dest tcpAt)

abbrev psh (p : Pkt) (t : Nat) : Bool := p.flag t 3

/-- An ACK of the handshake gets the options of a Linux SYN. -/
def apacheOpts (a : Agent) (p : Pkt) (w ts : Nat) : Agent × Pkt :=
  let apache_opt := { a.sa_apache_opts w with
    ts := { (a.sa_apache_opts w).ts with tsval := p.tsval ts, tsecr := p.tsecr ts } }
  let a := { a with sa_apache_opts := fun i => if i = w then apache_opt else a.sa_apache_opts i }
  let p := replaceOpts p tcpAt apache_opt.bytes
  let (p, ck) := cksumTcp p tcpAt
  (a, p.put16 (tcpAt + 16) ck)

/-- Behind the check: with `opt_ab_test` the source reads `ts->tsecr`, and an
ACK with the echo 1 and without PSH is rewritten. -/
def forwardAck (o : Options) (a : Agent) (p : Pkt) (w : Nat) :
    Option Nat → Option (Int × Agent × Pkt)
  | none =>
    if o.opt_ab_test then none
    else
      let (out, p) := forward p
      some (out, a, p)
  | some ts =>
    let (a, p) :=
      if o.opt_ab_test && decide (p.tsecr ts = 1) && !psh p tcpAt then apacheOpts a p w ts
      else (a, p)
    let (out, p) := forward p
    some (out, a, p)

/-- A flow in the filter goes on; the first ACK of a flow must pass the check,
and then it is tagged and its flow goes into the filter. -/
def inboundAck (o : Options) (a : Agent) (p : Pkt) (w : Nat) (ts : Option Nat) :
    Option (Int × Agent × Pkt) :=
  let key := flowBytes (a.flows w) 12
  if bloom_filter_test a.bf key then forwardAck o a p w ts
  else if !synCheck p then some (-1, a, p)
  else
    let p := p.set_flag tcpAt 6
    let a := { a with bf := bloom_filter_put a.bf key }
    forwardAck o a p w ts

/-! ## Outbound -/

/-- A frame with ECE puts an address into the filter; the timestamp of an ACK
becomes 2. -/
def outbound (a : Agent) (p : Pkt) (w : Nat) (ts : Option Nat) : Int × Agent × Pkt :=
  let tcp := tcpAt
  if p.ece tcp then
    let flow : pkt_5tuple :=
      { a.flows w with
        src_ip := p.daddr
        dst_ip := p.saddr
        src_port := p.dest tcp
        dst_port := p.source tcp }
    let a := setFlow a w flow
    (-1, { a with bf := bloom_filter_put a.bf (flowBytes flow 4) }, p)
  else
    let p :=
      match p.ack tcp, ts with
      | true, some ts =>
        let old_ts_val := p.tsval ts
        let p := p.put32 (ts + 2) 2
        p.put16 (tcp + 16) (csumUpdate (p.tcp_check tcp) [~~~old_ts_val, p.tsval ts])
      | _, _ => p
    let (out, p) := forward p
    (out, a, p)

/-! ## The packet processor -/

/-- The interface that the frame goes to, or -1; the globals and the frame after
it. `none` when the agent reads through a null pointer. -/
def xsknf_packet_processor (o : Options) (a : Agent) (p : Pkt) (ingress_ifindex worker_id : Nat) :
    Option (Int × Agent × Pkt) :=
  let tcp := tcpAt
  if o.opt_drop then some (-1, a, p)
  else if ¬ (ntohs p.h_proto = ETH_P_IP ∧ p.protocol = IPPROTO_TCP) then some (-1, a, p)
  else if o.opt_forward then
    let (out, p) := forward p
    some (out, a, p)
  else
    match stamp p with
    | none => some (-1, a, p)
    | some ts =>
      if ingress_ifindex = 0 then
        let a := setFlow a worker_id (flowOf (a.flows worker_id).salt p tcp)
        if p.syn tcp && !p.ack tcp then inboundSyn o a p worker_id ts
        else if p.ack tcp && !p.syn tcp then inboundAck o a p worker_id ts
        else
          let (out, p) := forward p
          some (out, a, p)
      else some (outbound a p worker_id ts)

end edge_cookie.smartcookie
