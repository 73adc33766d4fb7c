-- The headers of a TCP segment in an Ethernet frame, as fields of the byte
-- buffer. The IP header starts at byte 14. The place of the TCP header is an
-- argument, since not every program finds it at the same place.
import EdgeCookie.Bytes

namespace headers

open bytes

/-! ## Network byte order -/

def bswap16 (x : U16) : U16 := x.extractLsb' 0 8 ++ x.extractLsb' 8 8

def bswap32 (x : U32) : U32 :=
  x.extractLsb' 0 8 ++ x.extractLsb' 8 8 ++ x.extractLsb' 16 8 ++ x.extractLsb' 24 8

abbrev htons (x : U16) : U16 := bswap16 x
abbrev ntohs (x : U16) : U16 := bswap16 x
abbrev htonl (x : U32) : U32 := bswap32 x
abbrev ntohl (x : U32) : U32 := bswap32 x

@[simp] theorem bswap16_bswap16 (x : U16) : bswap16 (bswap16 x) = x := by
  apply BitVec.eq_of_getLsbD_eq
  intro i hi
  simp only [bswap16, BitVec.getLsbD_append, BitVec.getLsbD_extractLsb']
  grind

@[simp] theorem bswap32_bswap32 (x : U32) : bswap32 (bswap32 x) = x := by
  apply BitVec.eq_of_getLsbD_eq
  intro i hi
  simp only [bswap32, BitVec.getLsbD_append, BitVec.getLsbD_extractLsb']
  grind

theorem ntohl_htonl (x : U32) : ntohl (htonl x) = x := bswap32_bswap32 x

/-- The `n`-th byte of a number, low byte first. -/
def byte (x : U32) (n : Nat) : U8 := x.extractLsb' (8 * n) 8

def bytes16 (x : U16) : List U8 := [x.extractLsb' 0 8, x.extractLsb' 8 8]

def bytes32 (x : U32) : List U8 := [byte x 0, byte x 1, byte x 2, byte x 3]

end headers

namespace bytes.Pkt

open headers

/-! ## Ethernet and IP -/

def h_proto (p : Pkt) : U16 := p.u16 12
def ihl (p : Pkt) : Nat := (p.u8 14).toNat % 16
def tot_len (p : Pkt) : U16 := p.u16 16
def protocol (p : Pkt) : U8 := p.u8 23
def ip_check (p : Pkt) : U16 := p.u16 24
def saddr (p : Pkt) : U32 := p.u32 26
def daddr (p : Pkt) : U32 := p.u32 30

/-! ## TCP, with the header at `t` -/

def source (p : Pkt) (t : Nat) : U16 := p.u16 t
def dest (p : Pkt) (t : Nat) : U16 := p.u16 (t + 2)
def seq (p : Pkt) (t : Nat) : U32 := p.u32 (t + 4)
def ack_seq (p : Pkt) (t : Nat) : U32 := p.u32 (t + 8)
def doff (p : Pkt) (t : Nat) : Nat := (p.u8 (t + 12)).toNat / 16
def window (p : Pkt) (t : Nat) : U16 := p.u16 (t + 14)
def tcp_check (p : Pkt) (t : Nat) : U16 := p.u16 (t + 16)

/-- Bit `i` of the byte with the TCP flags. -/
def flag (p : Pkt) (t i : Nat) : Bool := (p.u8 (t + 13)).getLsbD i

abbrev fin (p : Pkt) (t : Nat) : Bool := p.flag t 0
abbrev syn (p : Pkt) (t : Nat) : Bool := p.flag t 1
abbrev rst (p : Pkt) (t : Nat) : Bool := p.flag t 2
abbrev ack (p : Pkt) (t : Nat) : Bool := p.flag t 4
abbrev ece (p : Pkt) (t : Nat) : Bool := p.flag t 6

/-! ## The timestamp option, with its kind byte at `s` -/

def tsval (p : Pkt) (s : Nat) : U32 := p.u32 (s + 2)
def tsecr (p : Pkt) (s : Nat) : U32 := p.u32 (s + 6)

/-! ## Writes -/

def set_flag (p : Pkt) (t i : Nat) : Pkt := p.put8 (t + 13) (p.u8 (t + 13) ||| (1#8 <<< i))

def clear_flag (p : Pkt) (t i : Nat) : Pkt := p.put8 (t + 13) (p.u8 (t + 13) &&& ~~~(1#8 <<< i))

/-- The data offset is the high half of its byte. -/
def set_doff (p : Pkt) (t d : Nat) : Pkt :=
  p.put8 (t + 12) (BitVec.ofNat 8 (16 * (d % 16) + (p.u8 (t + 12)).toNat % 16))

theorem doff_lt (p : Pkt) (t : Nat) : p.doff t < 16 := by
  have hbyte := (p.u8 (t + 12)).isLt
  unfold doff
  omega

/-- New hardware addresses change the first twelve bytes only. -/
theorem sameFrom_hardware (p : Pkt) {dest source : List U8} (hdest : dest.length = 6)
    (hsource : source.length = 6) : Pkt.SameFrom 12 p ((p.memcpy 6 source).memcpy 0 dest) :=
  (Pkt.SameFrom.memcpy p 6 12 source (by omega)).trans (Pkt.SameFrom.memcpy _ 0 12 dest (by omega))

/-! ## Fields of frames with the same bytes -/

section

variable {lo hi n t : Nat} {p q : Pkt}

theorem SameOn.flag (h : SameOn lo hi p q) (hlo : lo ≤ t + 13) (hhi : t + 13 < hi) (i : Nat) :
    q.flag t i = p.flag t i := congrArg (BitVec.getLsbD · i) (h.u8 hlo hhi)

theorem SameOn.doff (h : SameOn lo hi p q) (hlo : lo ≤ t + 12) (hhi : t + 12 < hi) :
    q.doff t = p.doff t :=
  congrArg (·.toNat / 16) (h.u8 hlo hhi)

theorem SameOn.ihl (h : SameOn lo hi p q) (hlo : lo ≤ 14) (hhi : 14 < hi) : q.ihl = p.ihl :=
  congrArg (·.toNat % 16) (h.u8 hlo hhi)

theorem SameFrom.flag (h : SameFrom n p q) (hn : n ≤ t + 13) (i : Nat) : q.flag t i = p.flag t i :=
  congrArg (BitVec.getLsbD · i) (h.u8 hn)

theorem SameFrom.doff (h : SameFrom n p q) (hn : n ≤ t + 12) : q.doff t = p.doff t :=
  congrArg (·.toNat / 16) (h.u8 hn)

theorem SameFrom.ihl (h : SameFrom n p q) (hn : n ≤ 14) : q.ihl = p.ihl :=
  congrArg (·.toNat % 16) (h.u8 hn)

end

/-! ## A whole frame -/

/-- A TCP segment without data: an IP header of 20 bytes, and a TCP header of
32 bytes with two no-operation bytes and a timestamp option. -/
def segment (saddr daddr : U32) (source dest : U16) (seq ack_seq : U32) (flags : U8)
    (tsval tsecr : U32) : Pkt :=
  ofBytes (List.replicate 12 0 ++ [0x08, 0x00] ++
    [0x45, 0, 0, 52, 0, 0, 0, 0, 64, 6, 0, 0] ++ bytes32 saddr ++ bytes32 daddr ++
    bytes16 source ++ bytes16 dest ++ bytes32 seq ++ bytes32 ack_seq ++
    [0x80, flags, 0, 0, 0, 0, 0, 0] ++ [1, 1, 8, 10] ++ bytes32 tsval ++ bytes32 tsecr)

/-- A TCP segment without options and without data. -/
def bareSegment (saddr daddr : U32) (source dest : U16) (seq ack_seq : U32) (flags : U8) : Pkt :=
  ofBytes (List.replicate 12 0 ++ [0x08, 0x00] ++
    [0x45, 0, 0, 40, 0, 0, 0, 0, 64, 6, 0, 0] ++ bytes32 saddr ++ bytes32 daddr ++
    bytes16 source ++ bytes16 dest ++ bytes32 seq ++ bytes32 ack_seq ++
    [0x50, flags, 0, 0, 0, 0, 0, 0])

theorem ofNat_bytes32 (x : U32) :
    BitVec.ofNat 32 ((byte x 0).toNat + 256 * ((byte x 1).toNat + 256 * ((byte x 2).toNat +
      256 * ((byte x 3).toNat + 256 * 0)))) = x := by
  apply BitVec.eq_of_toNat_eq
  have := x.isLt
  simp only [byte, BitVec.toNat_ofNat, BitVec.extractLsb'_toNat, Nat.shiftRight_eq_div_pow]
  omega

theorem segment_ack_seq (saddr daddr : U32) (source dest : U16) (seq ack_seq : U32) (flags : U8)
    (tsval tsecr : U32) :
    (segment saddr daddr source dest seq ack_seq flags tsval tsecr).ack_seq 34 = ack_seq := by
  have h : ∀ i < 4, (segment saddr daddr source dest seq ack_seq flags tsval tsecr).mem (42 + i) =
      byte ack_seq i := by
    intro i hi
    simp only [segment, ofBytes, bytes32, bytes16, List.replicate, List.cons_append,
      List.nil_append]
    rcases i with _ | _ | _ | _ | i
    · rfl
    · rfl
    · rfl
    · rfl
    · omega
  unfold Pkt.ack_seq u32
  simp only [load]
  rw [h 0 (by decide), h 1 (by decide), h 2 (by decide), h 3 (by decide)]
  exact ofNat_bytes32 ack_seq

/-! ## A field after a write -/

theorem getLsbD_one_shiftLeft (i j : Nat) (hj : j < 8) :
    (1#8 <<< i).getLsbD j = decide (i = j) := by
  simp only [BitVec.getLsbD_shiftLeft, BitVec.getLsbD_one]
  by_cases h : i = j
  · subst h
    simp [hj]
  · simp [h]
    omega

theorem flag_set_flag (p : Pkt) (t i j : Nat) (hj : j < 8) :
    (p.set_flag t i).flag t j = (p.flag t j || decide (i = j)) := by
  simp only [flag, set_flag, u8_put_same, BitVec.getLsbD_or, getLsbD_one_shiftLeft i j hj]

theorem flag_clear_flag (p : Pkt) (t i j : Nat) (hj : j < 8) :
    (p.clear_flag t i).flag t j = (p.flag t j && !decide (i = j)) := by
  simp only [flag, clear_flag, u8_put_same, BitVec.getLsbD_and, BitVec.getLsbD_not,
    getLsbD_one_shiftLeft i j hj, hj, decide_true, Bool.true_and]

/-- A write behind the flags, or before them, leaves them alone. -/
theorem flag_put_ne (p : Pkt) {t i b n v : Nat} (h : t + 14 ≤ b ∨ b + n ≤ t + 13) :
    (p.put b n v).flag t i = p.flag t i := by
  unfold flag
  rw [u8_put_ne _ _ _ _ _ h]

theorem doff_set_doff (p : Pkt) (t d : Nat) : (p.set_doff t d).doff t = d % 16 := by
  simp only [doff, set_doff, u8_put_same, BitVec.toNat_ofNat]
  omega

end bytes.Pkt
