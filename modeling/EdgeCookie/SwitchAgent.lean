-- The gateway agent of htscookie: its options and tables, and what it does
-- with one frame. It answers SYNs with a SYN cookie, checks the cookies of
-- ACKs, and takes seed changes from the server.
import EdgeCookie.SipHash
import EdgeCookie.Haraka
import EdgeCookie.Bloom
import EdgeCookie.Csum
import EdgeCookie.Timestamp

namespace edge_cookie

open bytes headers

/-- `TS_START bpf_ntohl(0x01010000)`, the timestamp that marks a handshake. -/
def TS_START : U32 := ntohl 0x01010000

def ETH_P_IP : U16 := 0x0800
def IPPROTO_TCP : U8 := 6

namespace switch_agent

/-! ## Addresses -/

def inet_addr (a b c d : U8) : U32 := d ++ c ++ b ++ a

def client_ip : U32 := inet_addr 10 18 0 3
def server_ip : U32 := inet_addr 10 19 0 3
def attacker_ip : U32 := inet_addr 10 18 0 4

/-- The six bytes that `memcpy` takes of `MACstoi`: those of the text, in order. -/
def client_mac : List U8 := [0x3c, 0xfd, 0xfe, 0xb3, 0x12, 0xcc]
def server_mac : List U8 := [0x3c, 0xfd, 0xfe, 0xb0, 0xf5, 0x24]
def attacker_mac : List U8 := [0x3c, 0xfd, 0xfe, 0xb5, 0x00, 0x04]
def client_r_mac : List U8 := [0x90, 0xe2, 0xba, 0xb3, 0xbb, 0x7c]
def server_r_mac : List U8 := [0x90, 0xe2, 0xba, 0xb3, 0xbb, 0x7d]
def attacker_r_mac : List U8 := [0x90, 0xe2, 0xba, 0xb3, 0xbb, 0x7c]

def CLIENT_R_IF_ORDER : Int := 0
def SERVER_R_IF_ORDER : Int := 1
def ATTACKER_R_IF_ORDER : Int := 0

/-! ## Options and tables -/

inductive hash_options where
  | HASH_OFF
  | HARAKA
  | HSIPHASH
  deriving DecidableEq, Repr

inductive tcpcsum_options where
  | CSUM_OFF
  | CSUM_ON
  deriving DecidableEq, Repr

inductive timestamp_options where
  | TS_OFF
  | TS_ON
  deriving DecidableEq, Repr

/-- The options of the command line. The first values are the defaults. -/
structure Options where
  opt_drop : Bool := false
  opt_pressure : Bool := false
  opt_forward : Bool := false
  opt_change_key : Bool := false
  opt_ab_test : Bool := false
  hash_option : hash_options := .HARAKA
  tcpcsum_option : tcpcsum_options := .CSUM_ON
  timestamp_option : timestamp_options := .TS_ON

structure pkt_5tuple where
  src_ip : U32
  dst_ip : U32
  src_port : U16
  dst_port : U16
  salt : Fin 5 → U32

/-- The 32 bytes of the packed struct. -/
def pkt_5tuple.bytes (f : pkt_5tuple) : List U8 :=
  bytes32 f.src_ip ++ bytes32 f.dst_ip ++ bytes16 f.src_port ++ bytes16 f.dst_port ++
    bytes32 (f.salt 0) ++ bytes32 (f.salt 1) ++ bytes32 (f.salt 2) ++ bytes32 (f.salt 3) ++
    bytes32 (f.salt 4)

structure tcp_opt_ts where
  kind : U8
  length : U8
  tsval : U32
  tsecr : U32

def tcp_opt_ts.bytes (t : tcp_opt_ts) : List U8 :=
  [t.kind, t.length] ++ bytes32 t.tsval ++ bytes32 t.tsecr

structure common_synack_opt where
  MSS : U32
  SackOK : U16
  ts : tcp_opt_ts

def common_synack_opt.bytes (o : common_synack_opt) : List U8 :=
  bytes32 o.MSS ++ bytes16 o.SackOK ++ o.ts.bytes

structure common_apache_opt where
  MSS : U32
  SackOK : U16
  ts : tcp_opt_ts
  nop : U8
  wscale : U8 × U8 × U8

def common_apache_opt.bytes (o : common_apache_opt) : List U8 :=
  bytes32 o.MSS ++ bytes16 o.SackOK ++ o.ts.bytes ++ [o.nop, o.wscale.1, o.wscale.2.1, o.wscale.2.2]

def MSS_536 : U32 := 0x18020402
def MSS_1460 : U32 := 0xb4050402

/-- The globals of the agent. The first three have one slot for each worker. -/
structure Agent where
  flows : Nat → pkt_5tuple
  sa_opts : Nat → common_synack_opt
  sa_apache_opts : Nat → common_apache_opt
  change_key_duration : U32
  map_cookies : U16 → U16
  map_seeds : U16 → U32
  bf : bloom_filter
  syn_cache : Nat → U32

/-- The globals after the `init_` functions, with the random salts as given. -/
def Agent.boot (salt : Nat → Fin 5 → U32) : Agent where
  flows w := ⟨0, 0, 0, 0, salt w⟩
  sa_opts _ := ⟨MSS_536, 0x0204, ⟨8, 10, TS_START, 0⟩⟩
  sa_apache_opts _ := ⟨MSS_1460, 0x0204, ⟨8, 10, 0, 0⟩, 1, 3, 3, 7⟩
  change_key_duration := 0
  map_cookies i := i
  map_seeds i := i.setWidth 32
  bf := bloom_filter_new 3145728 [djb2, sdbm, mm2]
  syn_cache _ := 0

/-! ## Parts of the packet processor -/

/-- `forward`: the frame goes to the host of its destination address. -/
def forward (p : Pkt) : Int × Pkt :=
  if p.daddr = client_ip then
    (CLIENT_R_IF_ORDER, (p.memcpy 6 client_r_mac).memcpy 0 client_mac)
  else if p.daddr = server_ip then
    (SERVER_R_IF_ORDER, (p.memcpy 6 server_r_mac).memcpy 0 server_mac)
  else (ATTACKER_R_IF_ORDER, (p.memcpy 6 attacker_r_mac).memcpy 0 attacker_mac)

def get_map_cookie_sip (map_seeds : U16 → U32) (ipaddr : U32) : U16 :=
  mapCookie ipaddr (map_seeds (seedKey ipaddr))

/-- The slot of an address in `syn_cache`. -/
def cacheIndex (map_seeds : U16 → U32) (ipaddr : U32) : Nat :=
  (hsiphash_ip ipaddr ((map_seeds (seedKey ipaddr)).setWidth 64)).toNat % 10000000

/-- The block that the agent fills from an inbound frame. The source stores
`tcp->source` in both port fields. -/
def flowOf (salt : Fin 5 → U32) (p : Pkt) (tcp : Nat) : pkt_5tuple :=
  ⟨p.saddr, p.daddr, p.source tcp, p.source tcp, salt⟩

/-- The cookie of the chosen hash. `flow` is the block of the worker, and the
four fields are read from the frame as it is now. -/
def hashcookie (o : Options) (flow : pkt_5tuple) (src dst : U32) (src_port dst_port : U16) : U32 :=
  match o.hash_option with
  | .HARAKA => haraka256 flow.bytes
  | .HSIPHASH => hsiphash src dst src_port dst_port
  | .HASH_OFF => 0

/-- The two bytes with the data offset and the flags, as one word. -/
def flagWord (p : Pkt) (tcp : Nat) : U16 := p.u16 (tcp + 12)

/-- `delta` when `sizeof(struct tcphdr) + size` bytes replace the TCP header. -/
def optDelta (p : Pkt) (tcp size : Nat) : Int := (20 + size : Nat) - (p.doff tcp * 4 : Nat)

/-- The new options go in, and `tot_len`, `doff`, the length of the frame and
the IP checksum follow. -/
def replaceOpts (p : Pkt) (tcp : Nat) (opts : List U8) : Pkt :=
  let delta := optDelta p tcp opts.length
  let old_ip_totlen := p.tot_len
  let new_ip_totlen := htons (ntohs p.tot_len + BitVec.ofInt 16 delta)
  let p := p.memcpy (tcp + 20) opts
  let p := p.put16 16 new_ip_totlen
  let p := p.set_doff tcp ((p.doff tcp + delta.tdiv 4) % 16).toNat
  let p := p.add_len delta
  p.put16 24 (csumUpdate p.ip_check [not16 old_ip_totlen, new_ip_totlen.setWidth 32])

/-- The TCP header is at byte 34, behind an IP header without options. -/
def tcpAt : Nat := 34

/-! ## Inbound SYN -/

/-- The timestamps of the answer, and without `-c` the options of `sa_opts`,
which keeps the timestamp of the client. -/
def synackOpts (o : Options) (a : Agent) (p : Pkt) (w ts : Nat) : Agent × Pkt :=
  let rx_tsval := p.tsval ts
  let p := p.put32 (ts + 6) rx_tsval
  let p := p.put32 (ts + 2) TS_START
  let sa_opt := { a.sa_opts w with ts := { (a.sa_opts w).ts with tsecr := rx_tsval } }
  if !o.opt_ab_test then
    ({ a with sa_opts := fun i => if i = w then sa_opt else a.sa_opts i },
      replaceOpts p tcpAt sa_opt.bytes)
  else (a, p)

/-- The header of the answer: the addresses and ports change places, the cookie
is the sequence number, and SYN and ACK are set. -/
def synackHeader (o : Options) (flow : pkt_5tuple) (p : Pkt) (rx_tsecr : U32) : Pkt :=
  let tcp := tcpAt
  let p := p.xor_swap 4 26 30
  let rx_seq := p.seq tcp
  let cookie := hashcookie o flow p.saddr p.daddr (p.source tcp) (p.dest tcp)
  let p := p.put32 (tcp + 4) cookie
  let rx_ack := p.ack_seq tcp
  let p := p.put32 (tcp + 8) (htonl (ntohl rx_seq + 1))
  let p := p.xor_swap 2 tcp (tcp + 2)
  let old_win := p.window tcp
  let p := p.put16 (tcp + 14) (htons 502)
  let rx_flag := flagWord p tcp
  let p := p.set_flag tcp 1
  let p := p.set_flag tcp 4
  let new_flag := flagWord p tcp
  if o.tcpcsum_option = .CSUM_ON then
    if o.opt_ab_test then
      p.put16 (tcp + 16) (csumUpdate (p.tcp_check tcp)
        [TS_START, ~~~rx_tsecr, ~~~rx_seq, cookie, ~~~rx_ack, p.ack_seq tcp, not16 old_win,
          (p.window tcp).setWidth 32, not16 rx_flag, new_flag.setWidth 32])
    else
      let (p, ck) := cksumTcp p tcp
      p.put16 (tcp + 16) ck
  else p

/-- The answer to a SYN: the frame becomes the SYN-ACK. -/
def answerSyn (o : Options) (a : Agent) (p : Pkt) (w ts : Nat) : Agent × Pkt :=
  let rx_tsecr := p.tsecr ts
  let (a, p) := synackOpts o a p w ts
  (a, synackHeader o (a.flows w) p rx_tsecr)

/-- Where the timestamp option of an inbound SYN is. With `TS_OFF` the source
says `opt_ts_offset == 2`, so the offset stays 0. -/
def synTsOffset (o : Options) (p : Pkt) : Option Nat :=
  if o.timestamp_option = .TS_ON then parse_timestamp p tcpAt else some 0

def inboundSyn (o : Options) (a : Agent) (p : Pkt) (w : Nat) : Int × Agent × Pkt :=
  match synTsOffset o p with
  | none => (-1, a, p)
  | some opt_ts_offset =>
    let ts := tcpAt + 20 + opt_ts_offset
    if p.len < ts + 10 then (-1, a, p)
    else if bloom_filter_test a.bf (bytes32 p.saddr) then
      let index := cacheIndex a.map_seeds p.saddr
      let p := p.put32 (ts + 6) (a.syn_cache index)
      let a := { a with syn_cache := fun i => if i = index then 0 else a.syn_cache i }
      let (out, p) := forward p
      (out, a, p)
    else
      let (a, p) := answerSyn o a p w ts
      if o.opt_pressure then (-1, a, p)
      else
        let (out, p) := forward p
        (out, a, p)

/-! ## Inbound ACK -/

/-- The RST for the first ACK of an address: the address goes into the filter,
the cookie into the cache, and the frame becomes the RST. -/
def answerRst (a : Agent) (p : Pkt) (cookie : U32) : Agent × Pkt :=
  let tcp := tcpAt
  let index := cacheIndex a.map_seeds p.saddr
  let a := { a with
    bf := bloom_filter_put a.bf (bytes32 p.saddr)
    syn_cache := fun i => if i = index then cookie else a.syn_cache i }
  let old_flag := flagWord p tcp
  let p := p.set_flag tcp 2
  let p := p.clear_flag tcp 4
  let new_flag := flagWord p tcp
  let old_win := p.window tcp
  let p := p.put16 (tcp + 14) 0
  let old_ack := p.ack_seq tcp
  let old_seq := p.seq tcp
  let p := p.put32 (tcp + 4) old_ack
  let p := p.put32 (tcp + 8) (old_ack + 1)
  let p := p.put16 (tcp + 16) (csumUpdate (p.tcp_check tcp)
    [not16 old_flag, new_flag.setWidth 32, not16 old_win, 0, ~~~old_ack, p.ack_seq tcp,
      ~~~old_seq, p.seq tcp])
  let p := p.xor_swap 2 tcp (tcp + 2)
  let p := p.xor_swap 4 26 30
  (a, p)

/-- An ACK without data gets the options of a Linux SYN, when `-c` is set. -/
def apacheOpts (o : Options) (a : Agent) (p : Pkt) (w ts : Nat) : Agent × Pkt :=
  let tcp := tcpAt
  if o.opt_ab_test &&
      decide (((ntohs p.tot_len).toNat : Int) - (p.ihl * 4 : Nat) - (p.doff tcp * 4 : Nat) = 0) then
    let apache_opt := { a.sa_apache_opts w with
      ts := { (a.sa_apache_opts w).ts with tsval := p.tsval ts, tsecr := p.tsecr ts } }
    let a := { a with sa_apache_opts := fun i => if i = w then apache_opt else a.sa_apache_opts i }
    let p := replaceOpts p tcp apache_opt.bytes
    let (p, ck) := cksumTcp p tcp
    (a, p.put16 (tcp + 16) ck)
  else (a, p)

def inboundAck (o : Options) (a : Agent) (p : Pkt) (w : Nat) : Int × Agent × Pkt :=
  let tcp := tcpAt
  match parse_timestamp p tcp with
  | none => (-1, a, p)
  | some opt_ts_offset =>
    let ts := tcp + 20 + opt_ts_offset
    if p.len < ts + 10 then (-1, a, p)
    else
      let cookie := hashcookie o (a.flows w) p.saddr p.daddr (p.source tcp) (p.dest tcp)
      if p.tsecr ts = TS_START then
        if htonl (ntohl (p.ack_seq tcp) - 1) ≠ cookie then (-1, a, p)
        else
          let (a, p) :=
            if !bloom_filter_test a.bf (bytes32 p.saddr) then answerRst a p cookie else (a, p)
          let (a, p) := apacheOpts o a p w ts
          let (out, p) := forward p
          (out, a, p)
      else
        let hybrid_cookie := ntohl (p.tsecr ts)
        if hybrid_cookie.setWidth 16 = get_map_cookie_sip a.map_seeds p.saddr then
          let (out, p) := forward p
          (out, a, p)
        else if a.change_key_duration ≠ 0 ∨ o.opt_change_key then
          if (hybrid_cookie >>> 16) &&& 0x3fff#32 = fold16 cookie &&& 0x3fff#32 then
            let (out, p) := forward p
            (out, a, p)
          else (-1, a, p)
        else (-1, a, p)

/-! ## Outbound -/

/-- A frame with ECE changes a seed; a SYN gets a cookie as its timestamp. -/
def outbound (a : Agent) (p : Pkt) (w : Nat) : Int × Agent × Pkt :=
  let tcp := tcpAt
  if p.ece tcp then
    let cookie_key := p.source tcp
    let new_cookie := p.dest tcp
    let seed_key := p.window tcp
    let new_hash_seed := p.seq tcp
    (-1, { a with
      map_seeds := fun i => if i = seed_key then new_hash_seed else a.map_seeds i
      change_key_duration := p.ack_seq tcp
      map_cookies := fun i => if i = cookie_key then new_cookie else a.map_cookies i }, p)
  else if p.syn tcp && !p.ack tcp then
    match parse_timestamp p tcp with
    | none => (-1, a, p)
    | some opt_ts_offset =>
      let ts := tcp + 20 + opt_ts_offset
      if p.len < ts + 10 then (-1, a, p)
      else
        let fold := fold16 (haraka256 (a.flows w).bytes)
        let fastcookie := get_map_cookie_sip a.map_seeds p.daddr
        let hybrid_cookie := fold <<< 16 ||| fastcookie.setWidth 32
        let old_ts_val := p.tsval ts
        let p := p.put32 (ts + 2) (htonl hybrid_cookie)
        let p := p.put16 (tcp + 16)
          (csumUpdate (p.tcp_check tcp) [~~~old_ts_val, p.tsval ts])
        let (out, p) := forward p
        (out, a, p)
  else
    let (out, p) := forward p
    (out, a, p)

/-! ## The packet processor -/

/-- An inbound frame fills the block of the worker. -/
def recordFlow (a : Agent) (p : Pkt) (w : Nat) : Agent :=
  let flow := flowOf (a.flows w).salt p tcpAt
  { a with flows := fun i => if i = w then flow else a.flows i }

/-- The interface that the frame goes to, or -1; the globals and the frame after it. -/
def xsknf_packet_processor (o : Options) (a : Agent) (p : Pkt) (ingress_ifindex worker_id : Nat) :
    Int × Agent × Pkt :=
  let tcp := tcpAt
  if o.opt_drop then (-1, a, p)
  else if p.h_proto ≠ htons ETH_P_IP ∧ p.protocol ≠ IPPROTO_TCP then (-1, a, p)
  else if o.opt_forward then
    let (out, p) := forward p
    (out, a, p)
  else if ingress_ifindex = 0 then
    let a := recordFlow a p worker_id
    if p.syn tcp && !p.ack tcp then inboundSyn o a p worker_id
    else if p.ack tcp && !p.syn tcp then inboundAck o a p worker_id
    else
      let (out, p) := forward p
      (out, a, p)
  else outbound a p worker_id

/-! ## The length of the frame -/

section

variable {o : Options} {a : Agent} {p : Pkt} {w ts : Nat}

theorem forward_len (p : Pkt) : (forward p).2.len = p.len := by
  unfold forward
  split_ifs <;> rfl

theorem forward_len_le {n : Nat} (h : p.len ≤ n) : (forward p).2.len ≤ n := by
  rw [forward_len]
  exact h

theorem replaceOpts_len_le {opts : List U8} (hopts : opts.length ≤ 20) (hlo : 40 ≤ p.len)
    (hhi : p.len + 40 < 2 ^ 32) : (replaceOpts p tcpAt opts).len ≤ p.len + 40 := by
  have hdoff := p.doff_lt tcpAt
  have hlen : (replaceOpts p tcpAt opts).len =
      (((p.len : Int) + optDelta p tcpAt opts.length) % 2 ^ 32).toNat := rfl
  rw [hlen, optDelta]
  omega

theorem synackHeader_len (o : Options) (p : Pkt) (flow : pkt_5tuple) (rx_tsecr : U32) :
    (synackHeader o flow p rx_tsecr).len = p.len := by
  unfold synackHeader cksumTcp
  dsimp only
  split_ifs <;> rfl

theorem answerSyn_len_le (hlo : 40 ≤ p.len) (hhi : p.len + 40 < 2 ^ 32) :
    (answerSyn o a p w ts).2.len ≤ p.len + 40 := by
  unfold answerSyn
  dsimp only
  rw [synackHeader_len]
  unfold synackOpts
  dsimp only
  split_ifs
  · exact replaceOpts_len_le (show 16 ≤ 20 by decide) hlo hhi
  · exact Nat.le_add_right _ _

theorem apacheOpts_len_le (hlo : 40 ≤ p.len) (hhi : p.len + 40 < 2 ^ 32) :
    (apacheOpts o a p w ts).2.len ≤ p.len + 40 := by
  unfold apacheOpts
  dsimp only
  split_ifs
  · exact replaceOpts_len_le (show 20 ≤ 20 by decide) hlo hhi
  · exact Nat.le_add_right _ _

theorem inboundSyn_len_le (hhi : p.len + 40 < 2 ^ 32) :
    (inboundSyn o a p w).2.2.len ≤ p.len + 40 := by
  unfold inboundSyn
  split
  · exact Nat.le_add_right _ _
  · rename_i off _
    dsimp only
    by_cases hlen : p.len < tcpAt + 20 + off + 10
    · rw [if_pos hlen]
      exact Nat.le_add_right _ _
    · rw [if_neg hlen]
      have hanswer : (answerSyn o a p w (tcpAt + 20 + off)).2.len ≤ p.len + 40 :=
        answerSyn_len_le (by unfold tcpAt at hlen; omega) hhi
      split_ifs
      · exact forward_len_le (Nat.le_add_right _ _)
      · exact hanswer
      · exact forward_len_le hanswer

theorem inboundAck_len_le (hhi : p.len + 40 < 2 ^ 32) :
    (inboundAck o a p w).2.2.len ≤ p.len + 40 := by
  have hforward : (forward p).2.len ≤ p.len + 40 := forward_len_le (Nat.le_add_right _ _)
  unfold inboundAck
  dsimp only
  split
  · exact Nat.le_add_right _ _
  · rename_i off _
    by_cases hlen : p.len < tcpAt + 20 + off + 10
    · rw [if_pos hlen]
      exact Nat.le_add_right _ _
    · have hlo : 40 ≤ p.len := by
        unfold tcpAt at hlen
        omega
      rw [if_neg hlen]
      split_ifs
      · exact Nat.le_add_right _ _
      · -- the RST has the length of the ACK
        exact forward_len_le (apacheOpts_len_le (p := (answerRst a p _).2) hlo hhi)
      · exact forward_len_le (apacheOpts_len_le hlo hhi)
      · exact hforward
      · exact hforward
      · exact Nat.le_add_right _ _
      · exact Nat.le_add_right _ _

theorem outbound_len (a : Agent) (p : Pkt) (w : Nat) : (outbound a p w).2.2.len = p.len := by
  unfold outbound
  dsimp only
  split_ifs
  · rfl
  · split
    · rfl
    · split_ifs
      · rfl
      · exact forward_len _
  · exact forward_len _

/-- The agent makes a frame longer by the options that it writes, at most. -/
theorem xsknf_packet_processor_len_le (o : Options) (a : Agent) {p : Pkt} (i w : Nat)
    (hhi : p.len + 40 < 2 ^ 32) : (xsknf_packet_processor o a p i w).2.2.len ≤ p.len + 40 := by
  have hforward : (forward p).2.len ≤ p.len + 40 := forward_len_le (Nat.le_add_right _ _)
  unfold xsknf_packet_processor
  dsimp only
  split_ifs
  · exact Nat.le_add_right _ _
  · exact Nat.le_add_right _ _
  · exact hforward
  · exact inboundSyn_len_le hhi
  · exact inboundAck_len_le hhi
  · exact hforward
  · rw [outbound_len]
    exact Nat.le_add_right _ _

end

end switch_agent

end edge_cookie
