-- Haraka256 as the gateway agent computes it: five rounds of AES steps and
-- mixing on a block of 32 bytes, then the block is folded to one word.
import EdgeCookie.Headers

namespace edge_cookie

open bytes headers

/-! ## One AES step -/

def aesSbox : List U8 := [
  0x63, 0x7c, 0x77, 0x7b, 0xf2, 0x6b, 0x6f, 0xc5, 0x30, 0x01, 0x67, 0x2b, 0xfe, 0xd7, 0xab, 0x76,
  0xca, 0x82, 0xc9, 0x7d, 0xfa, 0x59, 0x47, 0xf0, 0xad, 0xd4, 0xa2, 0xaf, 0x9c, 0xa4, 0x72, 0xc0,
  0xb7, 0xfd, 0x93, 0x26, 0x36, 0x3f, 0xf7, 0xcc, 0x34, 0xa5, 0xe5, 0xf1, 0x71, 0xd8, 0x31, 0x15,
  0x04, 0xc7, 0x23, 0xc3, 0x18, 0x96, 0x05, 0x9a, 0x07, 0x12, 0x80, 0xe2, 0xeb, 0x27, 0xb2, 0x75,
  0x09, 0x83, 0x2c, 0x1a, 0x1b, 0x6e, 0x5a, 0xa0, 0x52, 0x3b, 0xd6, 0xb3, 0x29, 0xe3, 0x2f, 0x84,
  0x53, 0xd1, 0x00, 0xed, 0x20, 0xfc, 0xb1, 0x5b, 0x6a, 0xcb, 0xbe, 0x39, 0x4a, 0x4c, 0x58, 0xcf,
  0xd0, 0xef, 0xaa, 0xfb, 0x43, 0x4d, 0x33, 0x85, 0x45, 0xf9, 0x02, 0x7f, 0x50, 0x3c, 0x9f, 0xa8,
  0x51, 0xa3, 0x40, 0x8f, 0x92, 0x9d, 0x38, 0xf5, 0xbc, 0xb6, 0xda, 0x21, 0x10, 0xff, 0xf3, 0xd2,
  0xcd, 0x0c, 0x13, 0xec, 0x5f, 0x97, 0x44, 0x17, 0xc4, 0xa7, 0x7e, 0x3d, 0x64, 0x5d, 0x19, 0x73,
  0x60, 0x81, 0x4f, 0xdc, 0x22, 0x2a, 0x90, 0x88, 0x46, 0xee, 0xb8, 0x14, 0xde, 0x5e, 0x0b, 0xdb,
  0xe0, 0x32, 0x3a, 0x0a, 0x49, 0x06, 0x24, 0x5c, 0xc2, 0xd3, 0xac, 0x62, 0x91, 0x95, 0xe4, 0x79,
  0xe7, 0xc8, 0x37, 0x6d, 0x8d, 0xd5, 0x4e, 0xa9, 0x6c, 0x56, 0xf4, 0xea, 0x65, 0x7a, 0xae, 0x08,
  0xba, 0x78, 0x25, 0x2e, 0x1c, 0xa6, 0xb4, 0xc6, 0xe8, 0xdd, 0x74, 0x1f, 0x4b, 0xbd, 0x8b, 0x8a,
  0x70, 0x3e, 0xb5, 0x66, 0x48, 0x03, 0xf6, 0x0e, 0x61, 0x35, 0x57, 0xb9, 0x86, 0xc1, 0x1d, 0x9e,
  0xe1, 0xf8, 0x98, 0x11, 0x69, 0xd9, 0x8e, 0x94, 0x9b, 0x1e, 0x87, 0xe9, 0xce, 0x55, 0x28, 0xdf,
  0x8c, 0xa1, 0x89, 0x0d, 0xbf, 0xe6, 0x42, 0x68, 0x41, 0x99, 0x2d, 0x0f, 0xb0, 0x54, 0xbb, 0x16]

/-- The double of a byte in the field of AES. -/
def xtime (b : U8) : U8 := (b <<< 1) ^^^ (if b.getLsbD 7 then 0x1b else 0)

/-- `_mm_aesenc_si128`: a lane is 16 bytes, column after column. The bytes go
through the S-box, the rows shift, the columns mix, and the round key is added. -/
def mm_aesenc (s key : List U8) : List U8 :=
  let sub := s.map fun b => aesSbox.getD b.toNat 0
  let shifted := (List.range 16).map fun i => sub.getD (i % 4 + 4 * ((i / 4 + i % 4) % 4)) 0
  let mixed := (List.range 16).map fun i =>
    let a := fun k => shifted.getD (4 * (i / 4) + (i + k) % 4) 0
    xtime (a 0) ^^^ (xtime (a 1) ^^^ a 1) ^^^ a 2 ^^^ a 3
  List.zipWith (· ^^^ ·) mixed key

/-! ## The rounds -/

/-- `_mm_set_epi32` names the high word first. -/
def mm_set_epi32 (e3 e2 e1 e0 : U32) : List U8 :=
  bytes32 e0 ++ bytes32 e1 ++ bytes32 e2 ++ bytes32 e3

/-- The constants of `load_constants` that `haraka256` reads. -/
def rc : List (List U8) := [
  mm_set_epi32 0x0684704c 0xe620c00a 0xb2c5fef0 0x75817b9d,
  mm_set_epi32 0x8b66b4e1 0x88f3a06b 0x640f6ba4 0x2f08f717,
  mm_set_epi32 0x3402de2d 0x53f28498 0xcf029d60 0x9f029114,
  mm_set_epi32 0x0ed6eae6 0x2e7b4f08 0xbbf3bcaf 0xfd5b4f79,
  mm_set_epi32 0xcbcfb0cb 0x4872448b 0x79eecd1c 0xbe397044,
  mm_set_epi32 0x7eeacdee 0x6e9032b7 0x8d5335ed 0x2b8a057b,
  mm_set_epi32 0x67c28f43 0x5e2e7cd0 0xe2412761 0xda4fef1b,
  mm_set_epi32 0x2924d9b0 0xafcacc07 0x675ffde2 0x1fc70b3b,
  mm_set_epi32 0xab4d63f1 0xe6867fe9 0xecdb8fca 0xb9d465ee,
  mm_set_epi32 0x1c30bf84 0xd4b7cd64 0x5b2a404f 0xad037e33,
  mm_set_epi32 0xb2cc0bb9 0x941723bf 0x69028b2e 0x8df69800,
  mm_set_epi32 0xfa0478a6 0xde6f5572 0x4aaa9ec8 0x5c9d2d8a,
  mm_set_epi32 0xdfb49f2b 0x6b772a12 0x0efa4f2e 0x29129fd4,
  mm_set_epi32 0x1ea10344 0xf449a236 0x32d611ae 0xbb6a12ee,
  mm_set_epi32 0xaf044988 0x4b050084 0x5f9600c9 0x9ca8eca6,
  mm_set_epi32 0x21025ed8 0x9d199c4f 0x78a2c7e3 0x27e593ec,
  mm_set_epi32 0xbf3aaaf8 0xa759c9b7 0xb9282ecd 0x82d40173,
  mm_set_epi32 0x6260700d 0x6186b017 0x37f2efd9 0x10307d6b,
  mm_set_epi32 0x5aca45c2 0x21300443 0x81c29153 0xf6fc9ac6,
  mm_set_epi32 0x9223973c 0x226b68bb 0x2caf92e8 0x36d1943a]

/-- `AES2` at the constants from `rci`: two steps on each lane. -/
def AES2 (s : List U8 × List U8) (rci : Nat) : List U8 × List U8 :=
  let k := fun i => rc.getD (rci + i) []
  (mm_aesenc (mm_aesenc s.1 (k 0)) (k 2), mm_aesenc (mm_aesenc s.2 (k 1)) (k 3))

/-- `MIX2`: the words of the two lanes interleave. -/
def MIX2 (s : List U8 × List U8) : List U8 × List U8 :=
  let w := fun (l : List U8) i => (l.drop (4 * i)).take 4
  (w s.1 0 ++ w s.2 0 ++ w s.1 1 ++ w s.2 1, w s.1 2 ++ w s.2 2 ++ w s.1 3 ++ w s.2 3)

/-- The word of four bytes of a list, low byte first. -/
def wordAt (l : List U8) (i : Nat) : U32 :=
  l.getD (i + 3) 0 ++ l.getD (i + 2) 0 ++ l.getD (i + 1) 0 ++ l.getD i 0

/-- The hash of 32 bytes: five rounds, the input added again, and all eight
words of the result added to one. -/
def haraka256 (inp : List U8) : U32 :=
  let round := fun s rci => MIX2 (AES2 s rci)
  let s := [0, 4, 8, 12, 16].foldl round (inp.take 16, inp.drop 16)
  let out :=
    List.zipWith (· ^^^ ·) (List.zipWith (· ^^^ ·) s.1 (inp.take 16))
      (List.zipWith (· ^^^ ·) s.2 (inp.drop 16))
  (wordAt out 4 ^^^ wordAt out 12) ^^^ (wordAt out 0 ^^^ wordAt out 8)

end edge_cookie
