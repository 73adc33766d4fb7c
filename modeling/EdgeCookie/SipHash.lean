-- The keyed hashes of the two agents: HalfSipHash over a short list of words,
-- with the constants of the source. `int` sums wrap, as the compiled code does.
import EdgeCookie.Headers

namespace edge_cookie

open bytes headers

/-! ## The rounds -/

def rol (word : U32) (shift : Nat) : U32 := (word <<< shift) ||| (word >>> (32 - shift))

/-- The four words of the hash state. -/
structure Sip where
  v0 : U32
  v1 : U32
  v2 : U32
  v3 : U32

def SIPROUND : Sip → Sip
  | ⟨v0, v1, v2, v3⟩ =>
    let v0 := v0 + v1
    let v2 := v2 + v3
    let v1 := rol v1 5
    let v3 := rol v3 8
    let v1 := v1 ^^^ v0
    let v3 := v3 ^^^ v2
    let v0 := rol v0 16
    let v2 := v2 + v1
    let v0 := v0 + v3
    let v1 := rol v1 13
    let v3 := rol v3 7
    let v1 := v1 ^^^ v2
    let v3 := v3 ^^^ v0
    let v2 := rol v2 16
    ⟨v0, v1, v2, v3⟩

def c0 : U32 := 0x70736575
def c1 : U32 := 0x6e646f6d
def c2 : U32 := 0x6e657261
def c3 : U32 := 0x79746573

def sipInit (key0 key1 : U32) : Sip := ⟨c0 ^^^ key0, c1 ^^^ key1, c2 ^^^ key0, c3 ^^^ key1⟩

/-- One message word goes into `v3`, two rounds run, and it goes into `v0`. -/
def sipMessage (s : Sip) (m : U32) : Sip :=
  let s := SIPROUND (SIPROUND { s with v3 := s.v3 ^^^ m })
  { s with v0 := s.v0 ^^^ m }

def sipFinal (s : Sip) : U32 :=
  let s := SIPROUND (SIPROUND (SIPROUND (SIPROUND { s with v2 := s.v2 ^^^ 0xff })))
  (s.v0 ^^^ s.v1) ^^^ (s.v2 ^^^ s.v3)

/-- The hash of a list of words under a key of two words. -/
def sipWords (key0 key1 : U32) (ms : List U32) : U32 :=
  sipFinal (ms.foldl sipMessage (sipInit key0 key1))

/-! ## The hashes of the gateway agent -/

def key0 : U32 := 0x33323130
def key1 : U32 := 0x42413938

/-- The SYN cookie hash of the option `HSIPHASH`. -/
def hsiphash (src dst : U32) (src_port dst_port : U16) : U32 :=
  let ports : U32 := dst_port.setWidth 32 <<< 16 ||| src_port.setWidth 32
  sipWords key0 key1 [ntohl src, ntohl dst, ntohl ports]

def hsiphash_ip (src : U32) (key : U64) : U32 :=
  sipWords ((key >>> 32).setWidth 32) ((key &&& 0xffffffff).setWidth 32) [ntohl src]

/-! ## Map cookies -/

/-- `(x >> 16) ^ (x & 0xffff)`, which both agents use to make 16 bits of 32. -/
def fold16 (x : U32) : U32 := (x >>> 16) ^^^ (x &&& 0xffff#32)

/-- The seed slot of an address: its low 16 bits. -/
def seedKey (ipaddr : U32) : U16 := ipaddr.setWidth 16

/-- The 16 bits that belong to an address under one seed. -/
def mapCookie (ipaddr seed : U32) : U16 :=
  (fold16 (hsiphash_ip ipaddr (seed.setWidth 64))).setWidth 16

end edge_cookie
