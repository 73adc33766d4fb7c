-- The checksums of the gateway agent: a full sum over a header or a segment,
-- and sums that are updated word by word.
import EdgeCookie.Headers

namespace edge_cookie

open bytes headers

/-! ## Full sums -/

/-- The loop of `CalSum`: two bytes at a time, the high byte first. -/
def calSumLoop (buf : Mem) (p : Nat) (sum : U32) : Nat → U32
  | 0 => sum
  | 1 => sum + ((buf p).setWidth 32 <<< 8)
  | len + 2 =>
    calSumLoop buf (p + 2) (sum + (((buf p).setWidth 32 <<< 8) + (buf (p + 1)).setWidth 32)) len

def CalSum (buf : Mem) (p len : Nat) : U32 := calSumLoop buf p 0 len

/-- The bytes of `struct PseudoHead`: zero, type, len, src_ip, dst_ip. -/
def pseudoHead (p : Pkt) (type : U8) : List U8 :=
  [0, type] ++ bytes16 (htons (ntohs p.tot_len - BitVec.ofNat 16 (p.ihl * 4))) ++
    bytes32 p.saddr ++ bytes32 p.daddr

def CalPseudoHeadSum (p : Pkt) (type : U8) : U32 :=
  CalSum (fun i => (pseudoHead p type).getD i 0) 0 12

/-- `ckSum = (ckSum >> 16) + (ckSum & 0xffff); ckSum += ckSum >> 16;` and then
`bpf_htons((uint16_t)~ckSum)`. -/
def ckFold (ckSum : U32) : U16 :=
  let ckSum := (ckSum >>> 16) + (ckSum &&& 0xffff)
  let ckSum := ckSum + (ckSum >>> 16)
  htons ((~~~ckSum).setWidth 16)

/-- `cksumIp` clears the check field first, and gives the new sum. -/
def cksumIp (p : Pkt) : Pkt × U16 :=
  let p := p.put16 24 0
  (p, ckFold (CalSum p.mem 14 (p.ihl * 4)))

/-- `cksumTcp` clears the check field first, and gives the new sum. A total
length below the IP header gives no bytes to the loop. -/
def cksumTcp (p : Pkt) (tcp : Nat) : Pkt × U16 :=
  let p := p.put16 (tcp + 16) 0
  let ckSum := CalPseudoHeadSum p 0x06
  let ckSum := ckSum + CalSum p.mem tcp ((ntohs p.tot_len).toNat - p.ihl * 4)
  (p, ckFold ckSum)

/-! ## Updates -/

def csum_fold (csum : U32) : U16 :=
  let csum := (csum &&& 0xffff) + (csum >>> 16)
  let csum := (csum &&& 0xffff) + (csum >>> 16)
  csum.setWidth 16

def csum_unfold (n : U16) : U32 := n.setWidth 32

def csum_add (csum addend : U32) : U32 :=
  let csum := csum + addend
  csum + (if csum < addend then 1 else 0)

/-- `~x` of a 16-bit operand: C promotes it to `int` first. -/
def not16 (x : U16) : U32 := ~~~(x.setWidth 32)

/-- The sum in a check field, with the words in the list added to it in order. -/
def csumUpdate (check : U16) (words : List U32) : U16 :=
  ~~~csum_fold (words.foldl csum_add (~~~csum_unfold check))

end edge_cookie
