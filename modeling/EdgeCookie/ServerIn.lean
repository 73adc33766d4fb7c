-- The ingress program of the server agent: it turns the last ACK of a
-- handshake into a SYN for the server, translates the later ACKs, and gives
-- each flow a hybrid cookie that follows the seeds.
import EdgeCookie.Server

namespace edge_cookie.server_in

open bytes headers server

inductive xdp_action where
  | XDP_DROP
  | XDP_PASS
  | XDP_TX
  deriving DecidableEq, Repr

def DROP_THRESH : U32 := 5000000

/-! ## Cookies -/

/-- `hsiphash` of `server_in_kern.c`, the same rounds as `hsiphash_ip`. -/
def hsiphash (src : U32) (key : U64) : U32 :=
  sipWords ((key >>> 32).setWidth 32) ((key &&& 0xffffffff).setWidth 32) [ntohl src]

def get_hash_cookie (hash_cookie : U32) : U16 := (fold16 hash_cookie).setWidth 16

def get_cookie_key (map_seeds : U16 → U32) (ipaddr : U32) : U16 :=
  (fold16 (hsiphash ipaddr ((map_seeds (seedKey ipaddr)).setWidth 64))).setWidth 16

def get_map_cookie (map_seeds : U16 → U32) (ipaddr : U32) : U16 := get_cookie_key map_seeds ipaddr

/-- The argument `salt` of the source is not used there. -/
def get_hybrid_cookie (map_seeds : U16 → U32) (syn_cookie ipaddr : U32) : U32 :=
  ((get_hash_cookie syn_cookie).setWidth 32 <<< 16) |||
    (get_map_cookie map_seeds ipaddr).setWidth 32

/-! ## The entries of the connection table -/

/-- The entry that the SYN branch makes. -/
def synVal (map_seeds : U16 → U32) (saddr tsecr : U32) : map_val_t :=
  { delta := 0
    hash_cookie := tsecr
    hybrid_cookie :=
    htonl (0x40000000#32 + (0x3fffffff#32 &&& get_hybrid_cookie map_seeds tsecr saddr))
    cur_hash_seed := map_seeds (seedKey saddr) }

/-- The entry that the last ACK of a handshake makes. -/
def createVal (ack_seq : U32) : map_val_t :=
  { delta := ntohl ack_seq
    hash_cookie := htonl (ntohl ack_seq - 1) }

/-- The cookie of a flow follows the seed of its address. The second value is
`modify`: the entry has to be written back. -/
def refreshVal (map_seeds : U16 → U32) (saddr : U32) (val : map_val_t) : map_val_t × Bool :=
  let seed := map_seeds (seedKey saddr)
  if val.cur_hash_seed ≠ seed then
    let hybrid_cookie := ntohl val.hybrid_cookie
    let hybrid_cookie :=
      if val.cur_hash_seed = 0 then
        get_hybrid_cookie map_seeds val.hash_cookie saddr &&& 0x3fffffff#32
      else
        -- The new map cookie has 16 bits, so the test `(__s32)new_map_cookie < 0` never holds.
        (hybrid_cookie &&& 0xffff0000#32) ||| (get_map_cookie map_seeds saddr).setWidth 32
    let hybrid_cookie := hybrid_cookie + 0x40000000#32
    ({ val with hybrid_cookie := htonl hybrid_cookie, cur_hash_seed := seed }, true)
  else (val, false)

/-! ## The branches -/

/-- A SYN of a client that the gateway knows: the cookie in `tsecr` makes an
entry, and is cleared. -/
def synBranch (s : Server) (p : Pkt) (tcp ts : Nat) : xdp_action × Server × Pkt :=
  let val := synVal s.map_seeds p.saddr (p.tsecr ts)
  let key := inKey p tcp
  (.XDP_PASS, { s with conntrack_map := s.conntrack_map.putAny key val }, p.put32 (ts + 6) 0)

/-- The last ACK of a handshake makes an entry and becomes a SYN. -/
def createBranch (K : Helpers) (s : Server) (p : Pkt) (tcp ts : Nat) : xdp_action × Server × Pkt :=
  let key := inKey p tcp
  let val := createVal (p.ack_seq tcp)
  let s := { s with conntrack_map := s.conntrack_map.putAny key val }
  let old_tcp_seq := p.seq tcp
  let old_tcp_ack := p.ack_seq tcp
  let tcp_csum : U64 := (p.tcp_check tcp).setWidth 64
  let old_tcp_tsecr := p.tsecr ts
  let old_win : U32 := (p.window tcp).setWidth 32
  let new_win : U32 := (htons 64240).setWidth 32
  let p := p.put16 (tcp + 14) (htons 64240)
  if p.len < tcp + 16 then (.XDP_DROP, s, p)
  else
    let tcp_old_flag := p.u32 (tcp + 12)
    let p := p.clear_flag tcp 4
    let p := p.set_flag tcp 1
    let tcp_new_flag := p.u32 (tcp + 12)
    let p := p.put32 (tcp + 4) (htonl (ntohl (p.seq tcp) - 1))
    let p := p.put32 (tcp + 8) 0
    let p := p.put32 (ts + 6) 0
    let csum :=
      K.bpf_csum_diff (bytes32 tcp_old_flag) (bytes32 tcp_new_flag) ((~~~tcp_csum).setWidth 32)
    let csum := K.bpf_csum_diff (bytes32 old_tcp_seq) (bytes32 (p.seq tcp)) (csum.setWidth 32)
    let csum := K.bpf_csum_diff (bytes32 old_win) (bytes32 new_win) (csum.setWidth 32)
    let csum := K.bpf_csum_diff (bytes32 old_tcp_ack) [] (csum.setWidth 32)
    let csum := K.bpf_csum_diff (bytes32 old_tcp_tsecr) [] (csum.setWidth 32)
    (.XDP_PASS, s, p.put16 (tcp + 16) (csum_fold_helper_64 csum))

/-- The flow of an ACK is not known: the frame is counted and dropped, and at
the threshold it goes back to the gateway as a seed change. -/
def missBranch (rnd : U32 × U32) (s : Server) (p : Pkt) (tcp ts : Nat) :
    xdp_action × Server × Pkt :=
  if p.tsecr ts = TS_START then (.XDP_DROP, s, p)
  else
    let s := { s with dropcnt := s.dropcnt + 1 }
    if s.dropcnt < DROP_THRESH then (.XDP_DROP, s, p)
    else
      let p := (p.memcpy 6 (bytesAt p 0 6)).memcpy 0 (bytesAt p 6 6)
      let seed_key := seedKey p.saddr
      let cookie_key := get_cookie_key s.map_seeds p.saddr
      let new_cookie : U16 := rnd.1.setWidth 16
      let new_seed := rnd.2
      let s := { s with
        map_cookies := fun i => if i = cookie_key then new_cookie else s.map_cookies i
        map_seeds := fun i => if i = seed_key then new_seed else s.map_seeds i
        dropcnt := 0 }
      let p := p.xor_swap 4 26 30
      let p := p.put16 tcp cookie_key
      let p := p.put16 (tcp + 2) new_cookie
      let p := p.put16 (tcp + 14) seed_key
      let p := p.put32 (tcp + 4) new_seed
      let p := p.put32 (tcp + 8) s.rtt_map
      (.XDP_TX, s, p.set_flag tcp 6)

/-- An ACK of a known flow: the cookie is refreshed, and the numbers of the
client become those of the server. -/
def hitBranch (K : Helpers) (s : Server) (p : Pkt) (tcp ts : Nat) (val : map_val_t) :
    xdp_action × Server × Pkt :=
  let key := inKey p tcp
  let rx_ack_seq := p.ack_seq tcp
  let rx_tsecr := p.tsecr ts
  let tcp_csum : U64 := (p.tcp_check tcp).setWidth 64
  let (val, modify) := refreshVal s.map_seeds p.saddr val
  let new_ack_seq := htonl (ntohl (p.ack_seq tcp) - val.delta)
  let p := p.put32 (tcp + 8) new_ack_seq
  let new_tsecr := val.ts_val_s
  let p := p.put32 (ts + 6) new_tsecr
  let s := if modify then { s with conntrack_map := s.conntrack_map.putExist key val } else s
  let csum := K.bpf_csum_diff (bytes32 rx_ack_seq) (bytes32 new_ack_seq) ((~~~tcp_csum).setWidth 32)
  let csum := K.bpf_csum_diff (bytes32 rx_tsecr) (bytes32 new_tsecr) (csum.setWidth 32)
  (.XDP_PASS, s, p.put16 (tcp + 16) (csum_fold_helper_64 csum))

def dataBranch (K : Helpers) (rnd : U32 × U32) (s : Server) (p : Pkt) (tcp ts : Nat) :
    xdp_action × Server × Pkt :=
  match s.conntrack_map.lookup (inKey p tcp) with
  | some val => hitBranch K s p tcp ts val
  | none => missBranch rnd s p tcp ts

/-- A SYN-ACK that came back from `server_en` loses its SYN flag. -/
def synackBranch (K : Helpers) (s : Server) (p : Pkt) (tcp : Nat) : xdp_action × Server × Pkt :=
  let tcp_csum : U64 := (p.tcp_check tcp).setWidth 64
  if p.len < tcp + 16 then (.XDP_DROP, s, p)
  else
    let tcp_old_flag := p.u32 (tcp + 12)
    let p := p.clear_flag tcp 1
    let tcp_new_flag := p.u32 (tcp + 12)
    let csum :=
      K.bpf_csum_diff (bytes32 tcp_old_flag) (bytes32 tcp_new_flag) ((~~~tcp_csum).setWidth 32)
    (.XDP_PASS, s, p.put16 (tcp + 16) (csum_fold_helper_64 csum))

/-! ## The program -/

/-- The first frame fills the two tables. -/
def initTables (s : Server) : Server :=
  if s.init then s
  else { s with init := true, map_cookies := fun i => i, map_seeds := fun i => i.setWidth 32 }

/-- The part of the program for a TCP header of at least 32 bytes. -/
def xdpTcp (K : Helpers) (rnd : U32 × U32) (s : Server) (p : Pkt) (tcp : Nat) :
    xdp_action × Server × Pkt :=
  let cur := tcp + 20
  let tcp_header_end := tcp + p.doff tcp * 4
  if p.syn tcp && !p.ack tcp then
    match parse_timestamp p cur tcp with
    | none => (.XDP_DROP, s, p)
    | some off =>
      let ts := cur + off
      if p.len < tcp_header_end then (.XDP_DROP, s, p)
      else if p.tsecr ts = 0 then (.XDP_DROP, s, p)
      else synBranch s p tcp ts
  else if p.ack tcp && !p.syn tcp then
    match parse_timestamp p cur tcp with
    | none => (.XDP_DROP, s, p)
    | some off =>
      let ts := cur + off
      if p.len < tcp_header_end then (.XDP_DROP, s, p)
      else if p.tsecr ts = TS_START ∧ tcp_header_end = p.len ∧ !p.fin tcp then
        createBranch K s p tcp ts
      else dataBranch K rnd s p tcp ts
  else if p.ack tcp && p.syn tcp then synackBranch K s p tcp
  else (.XDP_PASS, s, p)

/-- The program. `rnd` are the two random numbers that a seed change takes. -/
def xdp_router (K : Helpers) (rnd : U32 × U32) (s : Server) (p : Pkt) : xdp_action × Server × Pkt :=
  let s := initTables s
  match parseHeaders p with
  | .drop => (.XDP_DROP, s, p)
  | .pass => (.XDP_PASS, s, p)
  | .tcp tcp tcphdr_len =>
    if 32 ≤ tcphdr_len then xdpTcp K rnd s p tcp else (.XDP_PASS, s, p)

/-! ## What the program sees in a frame

Which branch runs depends on the frame alone. The tables of the server only
decide what the branch does. -/

/-- The branch that a frame takes, with the places of the TCP header and of
the timestamp option. -/
inductive InView where
  | drop
  | pass
  | syn (tcp ts : Nat)
  | create (tcp ts : Nat)
  | data (tcp ts : Nat)
  | synack (tcp : Nat)
  deriving DecidableEq, Repr

def viewTcp (p : Pkt) (tcp : Nat) : InView :=
  let cur := tcp + 20
  let tcp_header_end := tcp + p.doff tcp * 4
  if p.syn tcp && !p.ack tcp then
    match parse_timestamp p cur tcp with
    | none => .drop
    | some off =>
      if p.len < tcp_header_end then .drop
      else if p.tsecr (cur + off) = 0 then .drop
      else .syn tcp (cur + off)
  else if p.ack tcp && !p.syn tcp then
    match parse_timestamp p cur tcp with
    | none => .drop
    | some off =>
      if p.len < tcp_header_end then .drop
      else if p.tsecr (cur + off) = TS_START ∧ tcp_header_end = p.len ∧ !p.fin tcp then
        .create tcp (cur + off)
      else .data tcp (cur + off)
  else if p.ack tcp && p.syn tcp then .synack tcp
  else .pass

def inView (p : Pkt) : InView :=
  match parseHeaders p with
  | .drop => .drop
  | .pass => .pass
  | .tcp tcp tcphdr_len => if 32 ≤ tcphdr_len then viewTcp p tcp else .pass

/-- Where the view has the TCP header. -/
def InView.tcpAt : InView → Option Nat
  | .drop => none
  | .pass => none
  | .syn tcp _ => some tcp
  | .create tcp _ => some tcp
  | .data tcp _ => some tcp
  | .synack tcp => some tcp

theorem viewTcp_tcpAt (p : Pkt) (tcp : Nat) :
    (viewTcp p tcp).tcpAt = none ∨ (viewTcp p tcp).tcpAt = some tcp := by
  unfold viewTcp
  dsimp only
  cases parse_timestamp p (tcp + 20) tcp with
  | none =>
    dsimp only
    split_ifs <;> simp [InView.tcpAt]
  | some off =>
    dsimp only
    split_ifs <;> simp [InView.tcpAt]

/-- A view with a TCP header comes from a frame with a long one. -/
theorem inView_tcp {p : Pkt} {tcp : Nat} (h : (inView p).tcpAt = some tcp) :
    ∃ len, 32 ≤ len ∧ parseHeaders p = .tcp tcp len := by
  unfold inView at h
  split at h
  · cases h
  · cases h
  · rename_i t len hparse
    split at h
    · rename_i hlen
      rcases viewTcp_tcpAt p t with hnone | hsome
      · rw [hnone] at h
        cases h
      · rw [hsome] at h
        cases h
        exact ⟨len, hlen, hparse⟩
    · cases h

/-- The program runs the branch of the view. -/
def runView (K : Helpers) (rnd : U32 × U32) (s : Server) (p : Pkt) :
    InView → xdp_action × Server × Pkt
  | .drop => (.XDP_DROP, s, p)
  | .pass => (.XDP_PASS, s, p)
  | .syn tcp ts => synBranch s p tcp ts
  | .create tcp ts => createBranch K s p tcp ts
  | .data tcp ts => dataBranch K rnd s p tcp ts
  | .synack tcp => synackBranch K s p tcp

theorem xdpTcp_eq (K : Helpers) (rnd : U32 × U32) (s : Server) (p : Pkt) (tcp : Nat) :
    xdpTcp K rnd s p tcp = runView K rnd s p (viewTcp p tcp) := by
  unfold xdpTcp viewTcp
  dsimp only
  split
  · cases parse_timestamp p (tcp + 20) tcp with
    | none => rfl
    | some off => dsimp only; split_ifs <;> rfl
  · split
    · cases parse_timestamp p (tcp + 20) tcp with
      | none => rfl
      | some off => dsimp only; split_ifs <;> rfl
    · split_ifs <;> rfl

theorem xdp_router_eq (K : Helpers) (rnd : U32 × U32) (s : Server) (p : Pkt) :
    xdp_router K rnd s p = runView K rnd (initTables s) p (inView p) := by
  unfold xdp_router inView
  cases parseHeaders p with
  | drop => rfl
  | pass => rfl
  | tcp tcp len =>
    dsimp only
    split
    · exact xdpTcp_eq _ _ _ _ _
    · rfl

end edge_cookie.server_in
