-- The laws of the checksums. All folds give the same number of 16 bits. The
-- full sums of `csum.c` never leave 32 bits and make a header or a segment
-- right. An update word by word keeps a string right, whatever fields of it are
-- replaced.
import EdgeCookie.Checksum

namespace edge_cookie

open bytes headers ones_sum

/-! ## Folds -/

/-- Every fold gives the number up to 65535 that is the same modulo 65535, and 0
for 0 only. The folds of the server programs give its complement. -/
theorem folds_are_canonical :
    (∀ csum : U64, FoldsTo csum.toNat (~~~server.csum_fold_helper_64 csum).toNat) ∧
    ∀ csum : U32, FoldsTo csum.toNat (csum_fold csum).toNat ∧
      FoldsTo csum.toNat (~~~server.csum_fold_helper csum).toNat ∧
      server.csum_fold_helper csum = ~~~csum_fold csum ∧
      server.csum_fold_helper_64 (csum.setWidth 64) = server.csum_fold_helper csum := by
  refine ⟨?_, ?_⟩
  · intro csum
    exact foldsTo_iff.mpr (server.toNat_not_csum_fold_helper_64 csum)
  · intro csum
    have huser := toNat_csum_fold csum
    have hbpf := server.toNat_not_csum_fold_helper csum
    have hwide := server.toNat_not_csum_fold_helper_64 (csum.setWidth 64)
    rw [BitVec.toNat_setWidth_of_le (by decide)] at hwide
    refine ⟨foldsTo_iff.mpr huser, foldsTo_iff.mpr hbpf, ?_, ?_⟩
    · rw [← BitVec.eq_of_toNat_eq (hbpf.trans huser.symm), BitVec.not_not]
    · rw [← BitVec.not_inj, BitVec.eq_of_toNat_eq (hwide.trans hbpf.symm)]

/-! ## Full sums -/

/-- The two sums of `ckFold` stay in 32 bits. -/
def FoldFits (ckSum : U32) : Prop :=
  (ckSum >>> 16).toNat + (ckSum &&& 0xffff).toNat < 2 ^ 32 ∧
    (ckSum >>> 16 + (ckSum &&& 0xffff)).toNat + ((ckSum >>> 16 + (ckSum &&& 0xffff)) >>> 16).toNat <
      2 ^ 32

theorem foldFits (ckSum : U32) : FoldFits ckSum := by
  have hlt := ckSum.isLt
  have hfold : (ckSum >>> 16 + (ckSum &&& 0xffff)).toNat =
      ckSum.toNat % 65536 + ckSum.toNat / 65536 := by
    rw [BitVec.add_comm, toNat_halves _ _ (by rfl)]
  unfold FoldFits
  rw [toNat_shift16, toNat_shift16, toNat_and_low16 _ _ (by rfl), hfold]
  omega

/-- No sum of `cksumTcp` on the cleared segment `p` leaves 32 bits: each is the
sum of the numbers. -/
structure TcpSumFits (p : Pkt) (tcp : Nat) : Prop where
  head : (CalPseudoHeadSum p 0x06).toNat = wordSum (fun i => (pseudoHead p 0x06).getD i 0) 0 12
  segment : (CalSum p.mem tcp (tcpLen p)).toNat = wordSum p.mem tcp (tcpLen p)
  both : (CalPseudoHeadSum p 0x06 + CalSum p.mem tcp (tcpLen p)).toNat =
    (CalPseudoHeadSum p 0x06).toNat + (CalSum p.mem tcp (tcpLen p)).toNat
  fold : FoldFits (CalPseudoHeadSum p 0x06 + CalSum p.mem tcp (tcpLen p))

/-- No sum of `cksumIp` on the cleared header leaves 32 bits. -/
structure IpSumFits (p : Pkt) : Prop where
  header : (CalSum p.mem 14 (p.ihl * 4)).toNat = wordSum p.mem 14 (p.ihl * 4)
  fold : FoldFits (CalSum p.mem 14 (p.ihl * 4))

theorem tcpLen_le (p : Pkt) : tcpLen p ≤ 65535 := by
  have := (ntohs p.tot_len).isLt
  unfold tcpLen
  omega

theorem tcpSumFits (p : Pkt) (tcp : Nat) : TcpSumFits p tcp := by
  have hlen := tcpLen_le p
  have hhead : (CalPseudoHeadSum p 0x06).toNat =
      wordSum (fun i => (pseudoHead p 0x06).getD i 0) 0 12 :=
    toNat_CalSum _ 0 12 (by decide)
  have hsegment : (CalSum p.mem tcp (tcpLen p)).toNat = wordSum p.mem tcp (tcpLen p) :=
    toNat_CalSum _ tcp _ (by omega)
  refine ⟨hhead, hsegment, ?_, foldFits _⟩
  have h1 := wordSum_le (fun i => (pseudoHead p 0x06).getD i 0) 0 12
  have h2 := wordSum_le p.mem tcp (tcpLen p)
  rw [BitVec.toNat_add, hhead, hsegment]
  exact Nat.mod_eq_of_lt (by omega)

theorem ihl_le (p : Pkt) : p.ihl ≤ 15 := by
  unfold Pkt.ihl
  omega

theorem ipSumFits (p : Pkt) : IpSumFits p := by
  have := ihl_le p
  exact ⟨toNat_CalSum _ 14 _ (by omega), foldFits _⟩

/-- The sum that `cksumIp` gives makes the sum of the header 0. -/
theorem ipOk_cksumIp {p : Pkt} (h : 3 ≤ p.ihl) : IpOk ((cksumIp p).1.put16 24 (cksumIp p).2) := by
  have hihl : ∀ (q : Pkt) (v : U16), (q.put16 24 v).ihl = q.ihl := by
    intro q v
    rw [Pkt.ihl, Pkt.ihl, Pkt.u8_put_ne _ _ _ _ _ (by omega)]
  have hclear : (cksumIp p).1.ihl = p.ihl := hihl p 0
  have hval : val (cksumIp p).2 = -sum (cksumIp p).1.mem 14 ((cksumIp p).1.ihl * 4) := by
    have hfits := (ipSumFits (cksumIp p).1).header
    have hsum : val (CalSum (cksumIp p).1.mem 14 ((cksumIp p).1.ihl * 4)) =
        256 * sum (cksumIp p).1.mem 14 ((cksumIp p).1.ihl * 4) := by
      rw [val, hfits, wordSum_cast]
    have hfold : val (cksumIp p).2 =
        -(256 * val (CalSum (cksumIp p).1.mem 14 ((cksumIp p).1.ihl * 4))) :=
      val_ckFold _
    rw [hfold, hsum]
    linear_combination -(sum (cksumIp p).1.mem 14 ((cksumIp p).1.ihl * 4)) * base_mul_base
  have hzero : sum (cksumIp p).1.mem 24 2 = 0 := by
    rw [← val_load16]
    exact (congrArg val (Pkt.u16_put_same p 24 0)).trans (val_zero 16)
  rw [ipOk_iff_sum (by rw [hihl, hclear]; omega), hihl,
    sum_put _ (by decide) (by rw [hclear]; omega) (by decide) (cksumIp p).2.isLt, hzero]
  have hcast : (((cksumIp p).2.toNat : Nat) : Sum) = val (cksumIp p).2 := rfl
  rw [hcast, hval]
  ring

/-- The full sums are exact, and behind the store the checksums of the segment and of the header are
right. -/
theorem full_sums_are_right (p : Pkt) (tcp : Nat) (htcp : 34 ≤ tcp) (hihl : 5 ≤ p.ihl)
    (hlen : 4 * p.ihl + 20 ≤ (ntohs p.tot_len).toNat) :
    (TcpSumFits (cksumTcp p tcp).1 tcp ∧
      TcpOk ((cksumTcp p tcp).1.put16 (tcp + 16) (cksumTcp p tcp).2) tcp) ∧
    (IpSumFits (cksumIp p).1 ∧ IpOk ((cksumIp p).1.put16 24 (cksumIp p).2)) :=
  ⟨⟨tcpSumFits _ tcp, tcpOk_cksumTcp htcp (by omega)⟩, ipSumFits _, ipOk_cksumIp (by omega)⟩

/-- A segment with one byte of data, which is an odd length. -/
def oddSegment : Pkt :=
  .ofBytes (List.replicate 14 0 ++
    [0x45, 0, 0, 41, 0, 0, 0, 0, 64, 6, 0, 0, 10, 0, 0, 1, 10, 0, 0, 2] ++
    [0, 7, 0, 80, 0, 0, 0, 1, 0, 0, 0, 2, 0x50, 0x18, 0, 0, 0, 0, 0, 0, 0x61])

theorem full_sums_are_right_odd :
    TcpOk ((cksumTcp oddSegment 34).1.put16 (34 + 16) (cksumTcp oddSegment 34).2) 34 ∧
      IpOk ((cksumIp oddSegment).1.put16 24 (cksumIp oddSegment).2) :=
  have h := full_sums_are_right oddSegment 34 (by decide) (by decide) (by decide)
  ⟨h.1.2, h.2.2⟩

/-! ## Updates -/

/-- A field that is replaced, at its offset, with its new number. -/
inductive CsumField where
  | short (off : Nat) (new : U16)
  | long (off : Nat) (new : U32)

namespace CsumField

def off : CsumField → Nat
  | short off _ => off
  | long off _ => off

def width : CsumField → Nat
  | short _ _ => 2
  | long _ _ => 4

/-- The string with the new number in the field. -/
def put (p : Pkt) : CsumField → Pkt
  | short off new => p.put16 off new
  | long off new => p.put32 off new

/-- What the agents add for a field: the complement of the old number, where one
of 16 bits is promoted first, and then the new number. -/
def words (p : Pkt) : CsumField → List U32
  | short off new => [not16 (p.u16 off), new.setWidth 32]
  | long off new => [~~~(p.u32 off), new]

/-- The number that is put. -/
def num : CsumField → Nat
  | short _ new => new.toNat
  | long _ new => new.toNat

/-- No byte is in both fields. -/
def Apart (f g : CsumField) : Prop := f.off + f.width ≤ g.off ∨ g.off + g.width ≤ f.off

/-- The field lies in the `n` bytes from `a`, at an even place, and does not
touch the checksum at `c`. -/
structure Inside (a n c : Nat) (f : CsumField) : Prop where
  first : a ≤ f.off
  last : f.off + f.width ≤ a + n
  even : (f.off - a) % 2 = 0
  check : f.off + f.width ≤ c ∨ c + 2 ≤ f.off

theorem put_eq (p : Pkt) (f : CsumField) : f.put p = p.put f.off f.width f.num := by
  rcases f with ⟨off, new⟩ | ⟨off, new⟩ <;> rfl

theorem num_lt (f : CsumField) : f.num < 256 ^ f.width := by
  rcases f with ⟨off, new⟩ | ⟨off, new⟩
  · exact new.isLt
  · exact new.isLt

/-- The two words of a field make what its change makes. -/
theorem sum_words (p : Pkt) (f : CsumField) :
    ((f.words p).map val).sum = (f.num : Sum) - sum p.mem f.off f.width := by
  rcases f with ⟨off, new⟩ | ⟨off, new⟩
  · simp only [words, List.map_cons, List.map_nil, List.sum_cons, List.sum_nil]
    rw [val_not16_word, val_setWidth _ (by decide), val_load16]
    simp only [num, CsumField.off, width, val]
    ring
  · simp only [words, List.map_cons, List.map_nil, List.sum_cons, List.sum_nil]
    rw [val_not32, val_load32]
    simp only [num, CsumField.off, width, val]
    ring

/-- A field keeps its old number when another one is replaced. -/
theorem words_put (p : Pkt) {f g : CsumField} (h : f.Apart g) : g.words (f.put p) = g.words p := by
  rw [put_eq]
  rcases g with ⟨off, new⟩ | ⟨off, new⟩
  · have hold : (p.put f.off f.width f.num).u16 off = p.u16 off := Pkt.u16_put_ne _ _ _ _ _ h.symm
    simp only [words, hold]
  · have hold : (p.put f.off f.width f.num).u32 off = p.u32 off := Pkt.u32_put_ne _ _ _ _ _ h.symm
    simp only [words, hold]

end CsumField

/-- The string with the new numbers in all the fields. -/
def replaceFields (p : Pkt) (fields : List CsumField) : Pkt := fields.foldl CsumField.put p

section

variable {a n c : Nat}

theorem sum_replaceFields (p : Pkt) (fields : List CsumField) (hin : ∀ f ∈ fields, f.Inside a n c)
    (hapart : fields.Pairwise CsumField.Apart) :
    sum (replaceFields p fields).mem a n =
      sum p.mem a n + ((fields.flatMap (CsumField.words p)).map val).sum := by
  unfold replaceFields
  -- The induction is on the fields, from the first one on; the others keep their old numbers.
  induction fields generalizing p with
  | nil => simp
  | cons f fields ih =>
    obtain ⟨hf, hfields⟩ := List.forall_mem_cons.mp hin
    obtain ⟨hfirst, hrest⟩ := List.pairwise_cons.mp hapart
    have hold : fields.flatMap (CsumField.words (f.put p)) = fields.flatMap (CsumField.words p) :=
      List.flatMap_congr fun g hg => CsumField.words_put p (hfirst g hg)
    rw [List.foldl_cons, ih _ hfields hrest, hold, List.flatMap_cons, List.map_append,
      List.sum_append, f.sum_words, f.put_eq, sum_put _ hf.first hf.last hf.even f.num_lt]
    ring

theorem u16_replaceFields (p : Pkt) (fields : List CsumField) (hin : ∀ f ∈ fields, f.Inside a n c) :
    (replaceFields p fields).u16 c = p.u16 c := by
  unfold replaceFields
  induction fields generalizing p with
  | nil => rfl
  | cons f fields ih =>
    obtain ⟨hf, hfields⟩ := List.forall_mem_cons.mp hin
    rw [List.foldl_cons, ih _ hfields, f.put_eq]
    exact Pkt.u16_put_ne _ _ _ _ _ hf.check.symm

end

/-- The law of the updates: a string whose words add up to 0 modulo 65535 has
such a sum again when some of its fields are replaced and its checksum takes
their changes. It does not matter whether the length is even. -/
theorem update_keeps_sum (p : Pkt) (a n c : Nat) (fields : List CsumField) (hc : a ≤ c)
    (hcn : c + 2 ≤ a + n) (heven : (c - a) % 2 = 0)
    (hin : ∀ f ∈ fields, f.Inside a n c) (hapart : fields.Pairwise CsumField.Apart)
    (hp : wordSum p.mem a n % 65535 = 0) :
    wordSum ((replaceFields p fields).put16 c
      (csumUpdate (p.u16 c) (fields.flatMap (CsumField.words p)))).mem a n % 65535 = 0 := by
  rw [wordSum_mod_iff] at hp ⊢
  have hcheck := u16_replaceFields p fields hin
  rw [sum_put _ hc hcn heven (BitVec.isLt _), sum_replaceFields p fields hin hapart, ← val_load16,
    hcheck, hp]
  have hval := val_csumUpdate (p.u16 c) (fields.flatMap (CsumField.words p))
  rw [val] at hval
  rw [hval]
  ring

/-- Ten bytes: a word, the checksum of them all, a number of 32 bits and a word. -/
def tenBytes : Pkt := .ofBytes [0x12, 0x34, 0xed, 0xcb, 0, 0, 0, 0, 0, 0]

theorem update_keeps_sum_ten :
    wordSum ((replaceFields tenBytes [.long 4 0xffffffff, .short 8 7]).put16 2
      (csumUpdate (tenBytes.u16 2)
        ([.long 4 0xffffffff, .short 8 7].flatMap (CsumField.words tenBytes)))).mem 0 10 % 65535 =
          0 := by
  refine update_keeps_sum tenBytes 0 10 2 [.long 4 0xffffffff, .short 8 7]
    (by decide) (by decide) (by decide) ?_ ?_ (by decide)
  · intro f hf
    simp only [List.mem_cons, List.not_mem_nil, or_false] at hf
    rcases hf with rfl | rfl
    · exact ⟨by decide, by decide, by decide, .inr (by decide)⟩
    · exact ⟨by decide, by decide, by decide, .inr (by decide)⟩
  · simp only [List.pairwise_cons, List.mem_singleton, forall_eq, List.not_mem_nil, false_implies,
      implies_true, List.Pairwise.nil, and_true]
    exact .inl (by decide)

end edge_cookie
