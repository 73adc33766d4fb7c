-- The server agent of smartcookie. `server_in` turns the first ACK of a flow
-- into a SYN when the gateway tagged it or its SYN cookie is right, and gives
-- later ACKs the numbers of the server; `server_en` answers the SYN-ACK of the
-- server and gives its segments the numbers of the client. The headers, the
-- parsers and the checksums are those of the server agent of htscookie.
import EdgeCookie.Server
import EdgeCookie.ServerEn
import EdgeCookie.ServerIn

namespace edge_cookie.smartcookie

open bytes headers
open server (map_key_t Helpers csum_fold_helper_64 ipv4_l4_csum bytesAt parseHeaders parse_timestamp
  inKey enKey)

def MAX_CONNECTION : Nat := 1000000

structure map_val_t where
  ts_val_s : U32 := 0
  delta : U32 := 0
  deriving DecidableEq, Repr

/-- The map `conntrack_map_sc`, which the two programs share. -/
abbrev Conntrack := BoundedMap map_key_t map_val_t MAX_CONNECTION

namespace server_in

open edge_cookie.server_in (xdp_action)

/-- `get_hash`: the sums of `int` wrap, and the rest is on the bits. -/
def get_hash (src dst : U32) (src_port dst_port : U16) : U32 :=
  let s : Sip := ⟨c0 ^^^ key0, c1 ^^^ key1, c2 ^^^ key0, c3 ^^^ key1⟩
  let s := SIPROUND (SIPROUND { s with v3 := s.v3 ^^^ ntohl src })
  let s := { s with v0 := s.v0 ^^^ ntohl src }
  let s := SIPROUND (SIPROUND { s with v3 := s.v3 ^^^ ntohl dst })
  let s := { s with v0 := s.v0 ^^^ ntohl dst }
  let ports : U32 := dst_port.setWidth 32 <<< 16 ||| src_port.setWidth 32
  let s := SIPROUND (SIPROUND { s with v3 := s.v3 ^^^ ntohl ports })
  let s := { s with v0 := s.v0 ^^^ ntohl ports }
  let s := SIPROUND (SIPROUND (SIPROUND (SIPROUND { s with v2 := s.v2 ^^^ 0xff })))
  (s.v0 ^^^ s.v1) ^^^ (s.v2 ^^^ s.v3)

/-- The check of an ACK without the tag and without an entry. -/
def synCheck (p : Pkt) (tcp : Nat) : Bool :=
  htonl (ntohl (p.ack_seq tcp) - 1) = get_hash p.saddr p.daddr (p.source tcp) (p.dest tcp)

/-- The pointer `ts`, which stays `NULL` for a TCP header below 32 bytes. -/
def stamp (p : Pkt) (tcp tcphdr_len : Nat) : Option (Option Nat) :=
  if 32 ≤ tcphdr_len then
    match parse_timestamp p (tcp + 20) tcp with
    | none => none
    | some off => if p.len < tcp + p.doff tcp * 4 then none else some (some (tcp + 20 + off))
  else some none

/-! ## The branches -/

/-- The last write of a branch: the timestamp echo, when there is one, and the
checksum. -/
def setEcho (K : Helpers) (p : Pkt) (tcp : Nat) (csum : U64) (tsecr : U32) : Option Nat → Pkt
  | none => p.put16 (tcp + 16) (csum_fold_helper_64 csum)
  | some ts =>
    let rx_tsecr := p.tsecr ts
    let p := p.put32 (ts + 6) tsecr
    p.put16 (tcp + 16)
      (csum_fold_helper_64 (K.bpf_csum_diff (bytes32 rx_tsecr) (bytes32 tsecr) (csum.setWidth 32)))

/-- An ACK of a known flow gets the numbers of the server. -/
def translate (K : Helpers) (m : Conntrack) (p : Pkt) (tcp : Nat) (ts : Option Nat)
    (val : map_val_t) :
    xdp_action × Conntrack × Pkt :=
  let rx_ack_seq := p.ack_seq tcp
  let tcp_csum : U64 := (p.tcp_check tcp).setWidth 64
  if p.len < tcp + 16 then (.XDP_DROP, m, p)
  else
    let new_ack_seq := htonl (ntohl (p.ack_seq tcp) - val.delta)
    let p := p.put32 (tcp + 8) new_ack_seq
    let csum :=
      K.bpf_csum_diff (bytes32 rx_ack_seq) (bytes32 new_ack_seq) ((~~~tcp_csum).setWidth 32)
    let p := p.clear_flag tcp 6
    (.XDP_PASS, m, setEcho K p tcp csum val.ts_val_s ts)

/-- The last write of the creating branch: the echo is cleared, and its word
leaves the checksum. -/
def clearEcho (K : Helpers) (p : Pkt) (tcp : Nat) (csum : U64) : Option Nat → Pkt
  | none => p.put16 (tcp + 16) (csum_fold_helper_64 csum)
  | some ts =>
    let old_tcp_tsecr := p.tsecr ts
    let p := p.put32 (ts + 6) 0
    p.put16 (tcp + 16)
      (csum_fold_helper_64 (K.bpf_csum_diff (bytes32 old_tcp_tsecr) [] (csum.setWidth 32)))

/-- An ACK makes an entry and becomes a SYN. The tag leaves the frame without a
change of the checksum. -/
def create (K : Helpers) (m : Conntrack) (p : Pkt) (tcp : Nat) (ts : Option Nat) :
    xdp_action × Conntrack × Pkt :=
  let m := m.putAny (inKey p tcp) { delta := ntohl (p.ack_seq tcp) }
  let old_tcp_seq := p.seq tcp
  let old_tcp_ack := p.ack_seq tcp
  let tcp_csum : U64 := (p.tcp_check tcp).setWidth 64
  if p.len < tcp + 16 then (.XDP_DROP, m, p)
  else
    let tcp_old_flag := p.u32 (tcp + 12)
    let p := p.clear_flag tcp 4
    let p := p.set_flag tcp 1
    let tcp_new_flag := p.u32 (tcp + 12)
    let p := p.clear_flag tcp 6
    let p := p.put32 (tcp + 4) (htonl (ntohl (p.seq tcp) - 1))
    let p := p.put32 (tcp + 8) 0
    let csum :=
      K.bpf_csum_diff (bytes32 tcp_old_flag) (bytes32 tcp_new_flag) ((~~~tcp_csum).setWidth 32)
    let csum := K.bpf_csum_diff (bytes32 old_tcp_seq) (bytes32 (p.seq tcp)) (csum.setWidth 32)
    let csum := K.bpf_csum_diff (bytes32 old_tcp_ack) [] (csum.setWidth 32)
    (.XDP_PASS, m, clearEcho K p tcp csum ts)

/-- An ACK of a known flow without the tag is translated; any other ACK makes an
entry, and without the tag its SYN cookie is checked first. -/
def ackBranch (K : Helpers) (m : Conntrack) (p : Pkt) (tcp : Nat) (ts : Option Nat) :
    xdp_action × Conntrack × Pkt :=
  match m.lookup (inKey p tcp), p.ece tcp with
  | some val, false => translate K m p tcp ts val
  | none, false => if synCheck p tcp then create K m p tcp ts else (.XDP_DROP, m, p)
  | _, true => create K m p tcp ts

/-- A SYN-ACK loses its SYN flag. -/
def synackBranch (K : Helpers) (m : Conntrack) (p : Pkt) (tcp : Nat) :
    xdp_action × Conntrack × Pkt :=
  let tcp_csum : U64 := (p.tcp_check tcp).setWidth 64
  if p.len < tcp + 16 then (.XDP_DROP, m, p)
  else
    let tcp_old_flag := p.u32 (tcp + 12)
    let p := p.clear_flag tcp 1
    let tcp_new_flag := p.u32 (tcp + 12)
    let csum :=
      K.bpf_csum_diff (bytes32 tcp_old_flag) (bytes32 tcp_new_flag) ((~~~tcp_csum).setWidth 32)
    (.XDP_PASS, m, p.put16 (tcp + 16) (csum_fold_helper_64 csum))

/-! ## The program -/

def xdp_router (K : Helpers) (m : Conntrack) (p : Pkt) : xdp_action × Conntrack × Pkt :=
  match parseHeaders p with
  | .drop => (.XDP_DROP, m, p)
  | .pass => (.XDP_PASS, m, p)
  | .tcp tcp tcphdr_len =>
    match stamp p tcp tcphdr_len with
    | none => (.XDP_DROP, m, p)
    | some ts =>
      if p.ack tcp && !p.syn tcp then ackBranch K m p tcp ts
      else if p.ack tcp && p.syn tcp then synackBranch K m p tcp
      else (.XDP_PASS, m, p)

end server_in

namespace server_en

open edge_cookie.server_en (tc_action SERVER_IF XDP_DRV)

/-- The pointer `ts`: the source asks for more than 32 bytes here. -/
def stamp (p : Pkt) (tcp tcphdr_len : Nat) : Option (Option Nat) :=
  if 32 < tcphdr_len then (parse_timestamp p (tcp + 20) tcp).map fun off => some (tcp + 20 + off)
  else some none

/-- The entry after a segment with the timestamp option at `ts`. -/
def stampVal (p : Pkt) (val : map_val_t) : Option Nat → map_val_t
  | none => val
  | some ts => { val with ts_val_s := p.tsval ts }

/-- The SYN-ACK becomes the ACK that ends the handshake of the server. The
checksum covers 36 bytes with the timestamp option, and 24 without. -/
def synackBranch (K : Helpers) (m : Conntrack) (p : Pkt) (tcp : Nat) (ts : Option Nat)
    (val : map_val_t) :
    tc_action × Conntrack × Pkt :=
  let val := stampVal p { val with delta := val.delta - ntohl (p.seq tcp) - 1 } ts
  let m := m.putExist (enKey p tcp) val
  let p :=
    match ts with
    | none => p
    | some ts => (p.put16 (tcp + 14) (htons 0x1F6)).xor_swap 4 (ts + 2) (ts + 6)
  let p := p.xor_swap 4 26 30
  let p := p.xor_swap 2 tcp (tcp + 2)
  let p := p.xor_swap 4 (tcp + 4) (tcp + 8)
  let p := p.put32 (tcp + 8) (htonl (ntohl (p.ack_seq tcp) + 1))
  let p := if XDP_DRV then p.clear_flag tcp 1 else p
  let p := p.put16 (tcp + 16) 0
  let p := (p.memcpy 6 (bytesAt p 0 6)).memcpy 0 (bytesAt p 6 6)
  let size := if ts.isSome then 36 else 24
  if p.len < tcp + size then (.TC_ACT_SHOT, m, p)
  else (.redirect SERVER_IF, m, p.put16 (tcp + 16) (ipv4_l4_csum K p tcp size))

/-- Any other segment: the timestamp of the server is kept, and the sequence
number becomes that of the client. -/
def segmentBranch (m : Conntrack) (p : Pkt) (tcp : Nat) (ts : Option Nat) (val : map_val_t) :
    tc_action × Conntrack × Pkt :=
  let m := if ts.isSome then m.putExist (enKey p tcp) (stampVal p val ts) else m
  (.TC_ACT_OK, m, p.put32 (tcp + 4) (htonl (ntohl (p.seq tcp) + val.delta)))

def xdp_router (K : Helpers) (m : Conntrack) (p : Pkt) : tc_action × Conntrack × Pkt :=
  match parseHeaders p with
  | .drop => (.TC_ACT_SHOT, m, p)
  | .pass => (.TC_ACT_OK, m, p)
  | .tcp tcp tcphdr_len =>
    match stamp p tcp tcphdr_len with
    | none => (.TC_ACT_SHOT, m, p)
    | some ts =>
      match m.lookup (enKey p tcp) with
      | none => (.TC_ACT_SHOT, m, p)
      | some val =>
        if p.ack tcp && p.syn tcp then synackBranch K m p tcp ts val
        else segmentBranch m p tcp ts val

end server_en

end edge_cookie.smartcookie
