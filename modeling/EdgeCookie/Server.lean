-- What the two programs of the server agent share: the tables, the parsers of
-- the headers, and the checksum helpers. The checksum difference of the kernel
-- is not part of the source, so it is an argument.
import EdgeCookie.SwitchAgent
import EdgeCookie.BoundedMap

namespace edge_cookie.server

open bytes headers

/-! ## The tables -/

def MAX_ENTRY : Nat := 700000

structure map_key_t where
  src_ip : U32
  dst_ip : U32
  src_port : U16
  dst_port : U16
  deriving DecidableEq, Repr

/-- A field that an initialiser of the source leaves out is 0. -/
structure map_val_t where
  hybrid_cookie : U32 := 0
  hash_cookie : U32 := 0
  cur_hash_seed : U32 := 0
  ts_val_s : U32 := 0
  delta : U32 := 0
  cur_cookie_head : U32 := 0
  deriving DecidableEq, Repr

abbrev Conntrack := BoundedMap map_key_t map_val_t MAX_ENTRY

/-- The globals of `server_in` and `server_en`, and the maps that they share. -/
structure Server where
  init : Bool
  map_cookies : U16 → U16
  map_seeds : U16 → U32
  dropcnt : U32
  conntrack_map : Conntrack
  rtt_map : U32
  max_rtt : U32

/-- The server agent when it is loaded: all zero. -/
def Server.boot : Server where
  init := false
  map_cookies _ := 0
  map_seeds _ := 0
  dropcnt := 0
  conntrack_map := BoundedMap.empty
  rtt_map := 0
  max_rtt := 0

/-- The kernel helper `bpf_csum_diff`: the old bytes, the new bytes and the
32-bit seed. -/
structure Helpers where
  bpf_csum_diff : List U8 → List U8 → U32 → U64

/-! ## Checksums -/

/-- The 32-bit words of a list of bytes. -/
def words : List U8 → List U32
  | b0 :: b1 :: b2 :: b3 :: bs => (b3 ++ b2 ++ b1 ++ b0) :: words bs
  | _ => []

/-- The helper as the kernel has it: the complements of the old words and then
the new words are added to the seed, with the carry. -/
def kernelHelpers : Helpers :=
  ⟨fun old new seed =>
    (((words old).map (~~~·) ++ words new).foldl csum_add seed).setWidth 64⟩

/-- One turn of the loop of `csum_fold_helper_64`. -/
def foldOnce64 (csum : U64) : U64 :=
  if csum >>> 16 ≠ 0 then (csum &&& 0xffff) + (csum >>> 16) else csum

def csum_fold_helper_64 (csum : U64) : U16 :=
  (~~~foldOnce64 (foldOnce64 (foldOnce64 (foldOnce64 csum)))).setWidth 16

def csum_fold_helper (csum : U32) : U16 :=
  let sum := (csum >>> 16) + (csum &&& 0xffff)
  let sum := sum + (sum >>> 16)
  (~~~sum).setWidth 16

/-- The `n` bytes of the frame from `a`. -/
def bytesAt (p : Pkt) (a n : Nat) : List U8 := (List.range n).map fun i => p.u8 (a + i)

/-- `ipv4_l4_csum` with `*csum` 0 at the start. -/
def ipv4_l4_csum (K : Helpers) (p : Pkt) (data_start data_size : Nat) : U16 :=
  let csum := K.bpf_csum_diff [] (bytes32 p.saddr) 0
  let csum := K.bpf_csum_diff [] (bytes32 p.daddr) (csum.setWidth 32)
  let csum := K.bpf_csum_diff [] (bytes32 (bswap32 (p.protocol.setWidth 32))) (csum.setWidth 32)
  let csum := K.bpf_csum_diff [] (bytes32 (bswap32 (BitVec.ofNat 32 data_size))) (csum.setWidth 32)
  let csum := K.bpf_csum_diff [] (bytesAt p data_start data_size) (csum.setWidth 32)
  csum_fold_helper_64 csum

/-! ## Parsers -/

/-- `parse_ethhdr`: the protocol field, when the header is inside the frame. -/
def parse_ethhdr (p : Pkt) : Option U16 :=
  if p.len < 14 then none else some p.h_proto

/-- `parse_iphdr`: the protocol, and where the next header starts. -/
def parse_iphdr (p : Pkt) : Option (U8 × Nat) :=
  if p.len < 14 + 20 then none
  else
    let hdrsize := p.ihl * 4
    if hdrsize < 20 then none
    else if p.len < 14 + hdrsize then none
    else some (p.protocol, 14 + hdrsize)

/-- `parse_tcphdr`: the length of the header at `h`. -/
def parse_tcphdr (p : Pkt) (h : Nat) : Option Nat :=
  if p.len < h + 20 then none
  else
    let len := p.doff h * 4
    if len < 20 then none
    else if p.len < h + len then none
    else some len

/-- What both programs find before they look at the TCP flags. -/
inductive Parsed where
  | drop
  | pass
  | tcp (tcp tcphdr_len : Nat)
  deriving DecidableEq, Repr

/-- The three parsers in a row: a frame that is too short is dropped, and a
frame that is not TCP over IPv4 passes. -/
def parseHeaders (p : Pkt) : Parsed :=
  match parse_ethhdr p with
  | none => .drop
  | some ether_proto =>
    if htons ether_proto = ETH_P_IP then
      match parse_iphdr p with
      | none => .drop
      | some (ip_proto, h) =>
        if ip_proto = IPPROTO_TCP then
          match parse_tcphdr p h with
          | none => .drop
          | some len => .tcp h len
        else .pass
    else .pass

/-- The TCP header lies behind the IP header. -/
theorem parseHeaders_tcp {p : Pkt} {tcp len : Nat} (h : parseHeaders p = .tcp tcp len) :
    p.h_proto = htons ETH_P_IP ∧ p.protocol = IPPROTO_TCP ∧ tcp = 14 + p.ihl * 4 ∧ 5 ≤ p.ihl := by
  unfold parseHeaders parse_ethhdr at h
  split at h
  · cases h
  · rename_i proto hproto
    split at hproto
    · cases hproto
    · obtain rfl := Option.some.inj hproto
      split at h
      · rename_i hip
        unfold parse_iphdr at h
        dsimp only at h
        split at h
        · cases h
        · rename_i tcp_proto at_tcp hparse
          split_ifs at hparse with _ hsize
          obtain ⟨rfl, rfl⟩ := Prod.mk.inj (Option.some.inj hparse)
          split at h
          · rename_i htcp
            split at h
            · cases h
            · cases h
              refine ⟨?_, htcp, rfl, by omega⟩
              rw [← hip]
              exact (bswap16_bswap16 _).symm
          · cases h
      · cases h

/-- The TCP header has 20 bytes or more, and lies inside the frame. -/
theorem parseHeaders_inside {p : Pkt} {tcp len : Nat} (h : parseHeaders p = .tcp tcp len) :
    len = p.doff tcp * 4 ∧ 20 ≤ len ∧ tcp + len ≤ p.len := by
  unfold parseHeaders at h
  split at h
  · cases h
  · split at h
    · split at h
      · cases h
      · split at h
        · split at h
          · cases h
          · rename_i hparse
            cases h
            unfold parse_tcphdr at hparse
            dsimp only at hparse
            split_ifs at hparse
            cases hparse
            omega
        · cases h
    · cases h

theorem parseHeaders_fits {p : Pkt} {tcp len : Nat} (h : parseHeaders p = .tcp tcp len) :
    tcp + 20 ≤ p.len := by
  have := parseHeaders_inside h
  omega

/-- The key of a flow, from a frame of the client. -/
def inKey (p : Pkt) (tcp : Nat) : map_key_t := ⟨p.saddr, p.daddr, p.source tcp, p.dest tcp⟩

/-- The key of a flow, from a frame of the server. -/
def enKey (p : Pkt) (tcp : Nat) : map_key_t := ⟨p.daddr, p.saddr, p.dest tcp, p.source tcp⟩

end edge_cookie.server
