-- The egress program of the server agent: it answers the SYN-ACK of the server
-- in place of the client, and gives each later segment the numbers that the
-- client expects and the hybrid cookie as its timestamp.
import EdgeCookie.Server

namespace edge_cookie.server_en

open bytes headers server

inductive tc_action where
  | TC_ACT_OK
  | TC_ACT_SHOT
  | redirect (ifindex : Nat)
  deriving DecidableEq, Repr

def SERVER_IF : Nat := 2

/-- `XDP_DRV` of `address.h`. -/
def XDP_DRV : Bool := true

/-! ## The entries of the connection table -/

/-- The entry after the SYN-ACK of a connection that was reset before. -/
def rstVal (val : map_val_t) (tsval : U32) : map_val_t := { val with ts_val_s := tsval }

/-- The entry after the SYN-ACK of a proxied connection: `delta` becomes the
difference of the two initial sequence numbers. -/
def synackVal (val : map_val_t) (seq tsval : U32) : map_val_t :=
  { val with delta := val.delta - ntohl seq - 1, ts_val_s := tsval }

/-- The entry after another segment. The counter of the cookie follows the two
high bits of the cookie, one step for each segment. -/
def ackVal (val : map_val_t) (tsval : U32) : map_val_t :=
  let pkt_cookie_head := (ntohl val.hybrid_cookie) >>> 30
  let cur_cookie_head := val.cur_cookie_head.setWidth 8
  { val with
    cur_cookie_head :=
      if cur_cookie_head ≠ pkt_cookie_head.setWidth 8 then
        ((cur_cookie_head + 1) % 4).setWidth 32
      else val.cur_cookie_head
    ts_val_s := tsval }

/-! ## The branches -/

/-- The SYN-ACK becomes the ACK that ends the handshake of the server. -/
def convertSynack (K : Helpers) (s : Server) (p : Pkt) (tcp ts : Nat) : tc_action × Server × Pkt :=
  let p := p.put16 (tcp + 14) (htons 0x1F6)
  let p := p.xor_swap 4 26 30
  let p := p.xor_swap 2 tcp (tcp + 2)
  let p := p.xor_swap 4 (tcp + 4) (tcp + 8)
  let p := p.put32 (tcp + 8) (htonl (ntohl (p.ack_seq tcp) + 1))
  let p := p.xor_swap 4 (ts + 2) (ts + 6)
  let p := if XDP_DRV then p.clear_flag tcp 1 else p
  let p := p.put16 (tcp + 16) 0
  let p := (p.memcpy 6 (bytesAt p 0 6)).memcpy 0 (bytesAt p 6 6)
  if p.len < tcp + 36 then (.TC_ACT_SHOT, s, p)
  else (.redirect SERVER_IF, s, p.put16 (tcp + 16) (ipv4_l4_csum K p tcp 36))

def synackBranch (K : Helpers) (s : Server) (p : Pkt) (tcp ts : Nat) (val : map_val_t) :
    tc_action × Server × Pkt :=
  let key := enKey p tcp
  if val.delta = 0 then
    let s := { s with conntrack_map := s.conntrack_map.putExist key (rstVal val (p.tsval ts)) }
    (.TC_ACT_OK, s, p.put32 (ts + 2) val.hybrid_cookie)
  else
    let val := synackVal val (p.seq tcp) (p.tsval ts)
    let s := { s with conntrack_map := s.conntrack_map.putExist key val }
    convertSynack K s p tcp ts

def rstBranch (s : Server) (p : Pkt) (tcp : Nat) (val : map_val_t) : tc_action × Server × Pkt :=
  let key := enKey p tcp
  let p := p.put32 (tcp + 4) (htonl (ntohl (p.seq tcp) + val.delta))
  (.TC_ACT_OK, { s with conntrack_map := s.conntrack_map.putExist key val }, p)

/-- The largest round trip time is kept while the counter of the cookie stays. -/
def updateRtt (s : Server) (val : map_val_t) (tsval : U32) : Server :=
  let pkt_cookie_head := (ntohl val.hybrid_cookie) >>> 30
  let max_rtt :=
    if val.cur_cookie_head.setWidth 8 ≠ pkt_cookie_head.setWidth 8 then 0 else s.max_rtt
  let rtt := ntohl tsval - ntohl val.ts_val_s
  if max_rtt < rtt then { s with max_rtt := rtt, rtt_map := rtt } else { s with max_rtt }

def ackBranch (s : Server) (p : Pkt) (tcp ts : Nat) (val : map_val_t) : tc_action × Server × Pkt :=
  let key := enKey p tcp
  let s := updateRtt s val (p.tsval ts)
  let val := ackVal val (p.tsval ts)
  let p := p.put32 (ts + 2) val.hybrid_cookie
  let p := p.put32 (tcp + 4) (htonl (ntohl (p.seq tcp) + val.delta))
  (.TC_ACT_OK, { s with conntrack_map := s.conntrack_map.putExist key val }, p)

/-! ## The program -/

/-- The part of the program for a TCP header of at least 32 bytes. -/
def xdpTcp (K : Helpers) (s : Server) (p : Pkt) (tcp : Nat) : tc_action × Server × Pkt :=
  let cur := tcp + 20
  match s.conntrack_map.lookup (enKey p tcp) with
  | none => (.TC_ACT_SHOT, s, p)
  | some val =>
    if p.ack tcp && p.syn tcp then
      match parse_timestamp p cur tcp with
      | none => (.TC_ACT_SHOT, s, p)
      | some off => synackBranch K s p tcp (cur + off) val
    else if p.rst tcp then rstBranch s p tcp val
    else
      match parse_timestamp p cur tcp with
      | none => (.TC_ACT_SHOT, s, p)
      | some off => ackBranch s p tcp (cur + off) val

/-- The program. -/
def xdp_router (K : Helpers) (s : Server) (p : Pkt) : tc_action × Server × Pkt :=
  match parseHeaders p with
  | .drop => (.TC_ACT_SHOT, s, p)
  | .pass => (.TC_ACT_OK, s, p)
  | .tcp tcp tcphdr_len =>
    if 32 ≤ tcphdr_len then xdpTcp K s p tcp else (.TC_ACT_OK, s, p)

/-! ## What the program sees in a frame -/

/-- The branch that a frame takes when its flow is known, with the places of
the TCP header and of the timestamp option. -/
inductive EnView where
  | drop
  | pass
  | synack (tcp ts : Nat)
  | rst (tcp : Nat)
  | ack (tcp ts : Nat)
  deriving DecidableEq, Repr

def viewTcp (p : Pkt) (tcp : Nat) : EnView :=
  let cur := tcp + 20
  if p.ack tcp && p.syn tcp then
    match parse_timestamp p cur tcp with
    | none => .drop
    | some off => .synack tcp (cur + off)
  else if p.rst tcp then .rst tcp
  else
    match parse_timestamp p cur tcp with
    | none => .drop
    | some off => .ack tcp (cur + off)

def enView (p : Pkt) : EnView :=
  match parseHeaders p with
  | .drop => .drop
  | .pass => .pass
  | .tcp tcp tcphdr_len => if 32 ≤ tcphdr_len then viewTcp p tcp else .pass

/-- The branch `f` on the entry of the flow, or the drop of an unknown flow. -/
def withEntry (s : Server) (p : Pkt) (tcp : Nat) (f : map_val_t → tc_action × Server × Pkt) :
    tc_action × Server × Pkt :=
  match s.conntrack_map.lookup (enKey p tcp) with
  | none => (.TC_ACT_SHOT, s, p)
  | some val => f val

/-- The program runs the branch of the view. -/
def runView (K : Helpers) (s : Server) (p : Pkt) : EnView → tc_action × Server × Pkt
  | .drop => (.TC_ACT_SHOT, s, p)
  | .pass => (.TC_ACT_OK, s, p)
  | .synack tcp ts => withEntry s p tcp (synackBranch K s p tcp ts)
  | .rst tcp => withEntry s p tcp (rstBranch s p tcp)
  | .ack tcp ts => withEntry s p tcp (ackBranch s p tcp ts)

theorem xdpTcp_eq (K : Helpers) (s : Server) (p : Pkt) (tcp : Nat) :
    xdpTcp K s p tcp = runView K s p (viewTcp p tcp) := by
  unfold xdpTcp viewTcp
  dsimp only
  cases hl : s.conntrack_map.lookup (enKey p tcp) with
  | none =>
    cases parse_timestamp p (tcp + 20) tcp <;> dsimp only <;> split_ifs <;>
      simp only [runView, withEntry, hl]
  | some val =>
    cases parse_timestamp p (tcp + 20) tcp <;> dsimp only <;> split_ifs <;>
      simp only [runView, withEntry, hl]

theorem xdp_router_eq (K : Helpers) (s : Server) (p : Pkt) :
    xdp_router K s p = runView K s p (enView p) := by
  unfold xdp_router enView
  cases parseHeaders p with
  | drop => rfl
  | pass => rfl
  | tcp tcp len =>
    dsimp only
    split
    · exact xdpTcp_eq _ _ _ _
    · rfl

section

variable (K : Helpers) {s : Server} {p : Pkt} {tcp ts : Nat} {val : map_val_t}

theorem xdp_router_synack (hv : enView p = .synack tcp ts)
    (hl : s.conntrack_map.lookup (enKey p tcp) = some val) :
    xdp_router K s p = synackBranch K s p tcp ts val := by
  rw [xdp_router_eq, hv]
  dsimp only [runView, withEntry]
  rw [hl]

theorem xdp_router_rst (hv : enView p = .rst tcp)
    (hl : s.conntrack_map.lookup (enKey p tcp) = some val) :
    xdp_router K s p = rstBranch s p tcp val := by
  rw [xdp_router_eq, hv]
  dsimp only [runView, withEntry]
  rw [hl]

theorem xdp_router_ack (hv : enView p = .ack tcp ts)
    (hl : s.conntrack_map.lookup (enKey p tcp) = some val) :
    xdp_router K s p = ackBranch s p tcp ts val := by
  rw [xdp_router_eq, hv]
  dsimp only [runView, withEntry]
  rw [hl]

end

end edge_cookie.server_en
