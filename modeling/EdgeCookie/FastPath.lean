-- The parser of the gateway on a list of options in good form. Its walk finds the
-- first timestamp option. Its masks ask for single bits of a few bytes, and the
-- bits of another option can satisfy them.
import EdgeCookie.OptionFormat
import EdgeCookie.OptionList

namespace edge_cookie

open bytes headers option_format

/-! ## The walk over a list in good form -/

section

variable {p : Pkt} {e a n : Nat} {opts : List Opt}

theorem skipped_nop (h : Area p.mem a e (.nop :: opts)) :
    Skipped p (fun x => decide (e < x)) a ∧ nextOpt p a = a + 1 := by
  have hsize : a + 1 ≤ e := h.size_inside
  have hbyte : p.u8 a = 1 := h.head Nat.one_pos
  refine ⟨⟨decide_eq_false (by omega), ?_, ?_, fun hne => absurd hbyte hne⟩, if_pos hbyte⟩
  · rw [hbyte]
    decide
  · rw [hbyte]
    decide

section

variable {kind : U8} {body : List U8} {hkind : 1 < kind.toNat} {hlen : body.length + 2 < 256}

/-- The first two bytes of an option with a length. -/
theorem data_bytes (h : Area p.mem a e (.data kind body hkind hlen :: opts)) :
    p.u8 a = kind ∧ (p.u8 (a + 1)).toNat = body.length + 2 := by
  have hlength : p.u8 (a + 1) = BitVec.ofNat 8 (body.length + 2) :=
    h.head (i := 1) (Nat.lt_add_left _ Nat.one_lt_two)
  refine ⟨h.head (i := 0) (Nat.succ_pos _), ?_⟩
  rw [hlength, BitVec.toNat_ofNat]
  exact Nat.mod_eq_of_lt hlen

theorem skipped_data (h : Area p.mem a e (.data kind body hkind hlen :: opts)) (hstamp : kind ≠ 8) :
    Skipped p (fun x => decide (e < x)) a ∧ nextOpt p a = a + (body.length + 2) := by
  have hsize : a + (body.length + 2) ≤ e := h.size_inside
  obtain ⟨hbyte, hlength⟩ := data_bytes h
  have hne : ∀ x : U8, x.toNat ≤ 1 → p.u8 a ≠ x := by
    rintro x hx rfl
    rw [hbyte] at hx
    omega
  refine ⟨⟨decide_eq_false (by omega), hne 0 (by decide), ?_, fun _ => decide_eq_false (by omega)⟩,
    ?_⟩
  · rw [hbyte]
    exact hstamp
  · rw [nextOpt, if_neg (hne 1 (by decide)), hlength]

theorem isStamp_data (h : Area p.mem a e (.data kind body hkind hlen :: opts)) (hstamp : kind = 8) :
    IsStamp p (fun x => decide (e < x)) a := by
  have hsize : a + (body.length + 2) ≤ e := h.size_inside
  exact ⟨decide_eq_false (by omega), (data_bytes h).1.trans hstamp, decide_eq_false (by omega)⟩

end

theorem map_add_map (a k : Nat) (x : Option Nat) :
    (x.map (k + ·)).map (a + ·) = x.map (a + k + ·) := by
  rw [Option.map_map]
  congr 1
  funext i
  exact (Nat.add_assoc a k i).symm

/-- A walk that makes a turn for each option finds the first timestamp option. -/
theorem optWalk_area (h : Area p.mem a e opts) (hn : opts.length ≤ n) :
    optWalk p (fun x => decide (e < x)) n a = (firstOf 8 opts).map (a + ·) := by
  induction opts generalizing a n with
  | nil =>
    cases n with
    | zero => rfl
    | succ n =>
      have hstop : a = e ∨ p.u8 a = 0 := h.stop
      rw [optWalk]
      rcases hstop with rfl | hzero
      · rw [if_pos (decide_eq_true (Nat.lt_succ_self a))]
        rfl
      · rw [if_pos hzero, ite_self]
        rfl
  | cons opt opts ih =>
    obtain ⟨n, rfl⟩ : ∃ n', n = n' + 1 := ⟨n - 1, by rw [List.length_cons] at hn; omega⟩
    have hrest := ih h.tail (Nat.le_of_succ_le_succ hn)
    cases opt with
    | nop =>
      obtain ⟨hskip, hnext⟩ := skipped_nop h
      rw [optWalk_skip hskip, hnext, firstOf, map_add_map]
      exact hrest
    | data kind body hkind hlen =>
      by_cases hstamp : kind = 8
      · rw [optWalk_stamp (isStamp_data h hstamp), firstOf, if_pos hstamp]
        rfl
      · obtain ⟨hskip, hnext⟩ := skipped_data h hstamp
        rw [optWalk_skip hskip, hnext, firstOf, if_neg hstamp, map_add_map]
        exact hrest

end

/-! ## The masks -/

/-- The timestamp options of the list have their length of 10. -/
def StampsWhole (opts : List Opt) : Prop :=
  ∀ body hkind hlen, Opt.data 8 body hkind hlen ∈ opts → body.length = 8

/-- What the masks take for a timestamp option is the first one. The mask for
offset 10 takes no timestamp option: it asks for an odd kind there. -/
structure MasksRight (p : Pkt) (tcp : Nat) (first : Option Nat) : Prop where
  syn : p.syn tcp = true → 28 ≤ p.doff tcp * 4 → hasMask syn_1_mask (p.u64 (tcp + 20)) = true →
    first = some 6
  syn_long : p.syn tcp = true → 32 ≤ p.doff tcp * 4 →
    hasMask syn_2_mask_1 (p.u64 (tcp + 20)) = true →
    hasMask syn_2_mask_2 (p.u32 (tcp + 20 + 8)) = true →
    hasMask syn_1_mask (p.u64 (tcp + 20)) = true
  ack : p.syn tcp = false → 28 ≤ p.doff tcp * 4 → hasMask ack_1_mask (p.u64 (tcp + 20)) = true →
    first = some 2

section

variable {p : Pkt} {tcp : Nat} {opts : List Opt}

theorem getLsbD_u32 (p : Pkt) (a : Nat) {i j : Nat} (hi : i < 4) (hj : j < 8) :
    (p.u32 a).getLsbD (8 * i + j) = (p.u8 (a + i)).getLsbD j := by
  rw [Pkt.u32, BitVec.getLsbD_ofNat, testBit_load p.mem a 4 hi hj, decide_eq_true (by omega)]
  rfl

/-- Where the long mask for a SYN fits, no timestamp option is at offset 10. -/
theorem firstOf_ne_ten (h : Area p.mem (tcp + 20) (tcp + p.doff tcp * 4) opts)
    (hmask : hasMask syn_2_mask_2 (p.u32 (tcp + 20 + 8)) = true) : firstOf 8 opts ≠ some 10 := by
  intro hten
  have hbyte : p.u8 (tcp + 20 + 10) = 8 := (h.first hten).1
  have hbit := hasMask_bit hmask (i := 8 * 2 + 0) (by decide)
  rw [getLsbD_u32 p _ (by decide) (by decide), hbyte] at hbit
  exact absurd hbit (by decide)

/-- A timestamp option needs a header of 32 bytes: its ten bytes, on a boundary of four. -/
theorem firstOf_short (h : Area p.mem (tcp + 20) (tcp + p.doff tcp * 4) opts)
    (hwhole : StampsWhole opts) (hshort : p.doff tcp * 4 < 30) : firstOf 8 opts = none := by
  cases hfirst : firstOf 8 opts with
  | none => rfl
  | some off =>
    obtain ⟨-, body, hkind, hlen, hmem, hfits⟩ := h.first hfirst
    have hbody := hwhole body hkind hlen hmem
    omega

theorem walk_area (h : Area p.mem (tcp + 20) (tcp + p.doff tcp * 4) opts) :
    (optWalk p (fun x => decide (tcp + p.doff tcp * 4 < x)) 40 (tcp + 20)).map (· - (tcp + 20)) =
      firstOf 8 opts := by
  have hforty : opts.length ≤ 40 := by
    have hlength := length_le_encode opts
    have hinside := h.inside
    have hdoff := p.doff_lt tcp
    omega
  rw [optWalk_area h hforty, Option.map_map]
  have hid : (· - (tcp + 20)) ∘ (tcp + 20 + ·) = id := by
    funext x
    exact Nat.add_sub_cancel_left _ _
  rw [hid, Option.map_id_fun, id]

/-- The parser of the gateway, with the walk replaced by what it finds. -/
theorem parse_area (h : Area p.mem (tcp + 20) (tcp + p.doff tcp * 4) opts)
    (hwhole : StampsWhole opts) (hflags : p.syn tcp ≠ p.ack tcp) (hlen : 28 ≤ p.doff tcp * 4) :
    switch_agent.parse_timestamp p tcp =
      if p.syn tcp = true then
        if hasMask syn_1_mask (p.u64 (tcp + 20)) = true then some 6
        else if 32 ≤ p.doff tcp * 4 ∧ hasMask syn_2_mask_1 (p.u64 (tcp + 20)) = true ∧
          hasMask syn_2_mask_2 (p.u32 (tcp + 20 + 8)) = true then some 10
        else firstOf 8 opts
      else if hasMask ack_1_mask (p.u64 (tcp + 20)) = true then some 2
      else firstOf 8 opts := by
  have hwalk := walk_area h
  unfold switch_agent.parse_timestamp
  dsimp only
  rw [if_neg (by omega)]
  cases hsyn : p.syn tcp with
  | true =>
    have hack : p.ack tcp = false := by
      rw [hsyn] at hflags
      exact Bool.eq_false_iff.mpr fun hack => hflags hack.symm
    rw [hack]
    simp only [Bool.not_false, Bool.and_self, if_true, synMasks]
    by_cases h1 : hasMask syn_1_mask (p.u64 (tcp + 20)) = true
    · rw [if_pos h1, if_pos h1]
    rw [if_neg h1, if_neg h1]
    by_cases hroom : 32 ≤ p.doff tcp * 4
    · rw [decide_eq_true (by omega : tcp + 20 + 12 ≤ tcp + p.doff tcp * 4)]
      -- the third pair of masks begins like the second, so it is never reached
      by_cases h2 : hasMask syn_2_mask_1 (p.u64 (tcp + 20)) = true
      · by_cases h3 : hasMask syn_2_mask_2 (p.u32 (tcp + 20 + 8)) = true
        · simp [hroom, h2, h3]
        · simpa [hroom, h2, h3] using hwalk
      · have h2' : hasMask syn_3_mask_1 (p.u64 (tcp + 20)) = false := Bool.eq_false_iff.mpr h2
        simpa [hroom, h2, h2'] using hwalk
    · rw [decide_eq_false (by omega : ¬ tcp + 20 + 12 ≤ tcp + p.doff tcp * 4),
        firstOf_short h hwhole (by omega)]
      simp [hroom]
  | false =>
    have hack : p.ack tcp = true := by
      rw [hsyn] at hflags
      exact Bool.not_eq_false _ |>.mp fun hack => hflags hack.symm
    rw [hack]
    simp only [Bool.false_and, Bool.not_false, Bool.and_self, Bool.false_eq_true, if_false, if_true,
      ackMasks]
    by_cases h1 : hasMask ack_1_mask (p.u64 (tcp + 20)) = true
    · rw [if_pos h1, if_pos h1]
    · rw [if_neg h1, if_neg h1]
      exact hwalk

end

/-- On a SYN or an ACK with a list of options in good form, the parser of the
gateway finds the first timestamp option just when its masks are right. -/
theorem parse_timestamp_finds_the_first_iff (p : Pkt) (tcp : Nat) (opts : List Opt)
    (hflags : p.syn tcp ≠ p.ack tcp) (harea : Area p.mem (tcp + 20) (tcp + p.doff tcp * 4) opts)
    (hwhole : StampsWhole opts) :
    switch_agent.parse_timestamp p tcp = firstOf 8 opts ↔ MasksRight p tcp (firstOf 8 opts) := by
  by_cases hlen : 28 ≤ p.doff tcp * 4
  · rw [parse_area harea hwhole hflags hlen]
    constructor
    · intro h
      refine ⟨fun hsyn _ h1 => ?_, fun hsyn hroom h2 h3 => ?_, fun hsyn _ h1 => ?_⟩
      · rw [if_pos hsyn, if_pos h1] at h
        exact h.symm
      · by_contra h1
        rw [if_pos hsyn, if_neg h1, if_pos ⟨hroom, h2, h3⟩] at h
        exact firstOf_ne_ten harea h3 h.symm
      · rw [hsyn, if_neg Bool.false_ne_true, if_pos h1] at h
        exact h.symm
    · intro h
      split_ifs with hsyn h1 h2 h1
      · exact (h.syn hsyn hlen h1).symm
      · exact absurd (h.syn_long hsyn h2.1 h2.2.1 h2.2.2) h1
      · rfl
      · exact (h.ack (Bool.eq_false_iff.mpr hsyn) hlen h1).symm
      · rfl
  · have hnone : switch_agent.parse_timestamp p tcp = none := by
      unfold switch_agent.parse_timestamp
      exact if_pos (by omega)
    rw [hnone, firstOf_short harea hwhole (by omega)]
    exact iff_of_true rfl ⟨fun _ h => absurd h hlen, fun _ h => absurd h (by omega),
      fun _ h => absurd h hlen⟩

/-- A SYN with a TCP header of 40 bytes and the options. -/
def synWith (opts : List Opt) : Pkt :=
  .ofBytes (List.replicate 12 0 ++ [0x08, 0x00] ++
    [0x45, 0, 0, 60, 0, 0, 0, 0, 64, 6, 0, 0, 10, 18, 0, 3, 10, 19, 0, 3] ++
    [0, 7, 0, 80, 0, 0, 0, 1, 0, 0, 0, 0, 0xa0, 0x02, 0, 0, 0, 0, 0, 0] ++ encode opts)

/-- The options of a Linux SYN: segment size, selective ACKs, timestamp, NOP, window scale. -/
def linuxList : List Opt :=
  [.data 2 [5, 180] (by decide) (by decide), .data 4 [] (by decide) (by decide),
    .data 8 [0, 0, 0, 5, 0, 0, 0, 0] (by decide) (by decide), .nop,
    .data 3 [7] (by decide) (by decide)]

/-- An option of kind 30 with four bytes stands before the timestamp. -/
def multipathList : List Opt :=
  [.data 2 [5, 180] (by decide) (by decide), .data 4 [] (by decide) (by decide),
    .data 30 [0, 129] (by decide) (by decide),
    .data 8 [0, 0, 0, 5, 0, 0, 0, 0] (by decide) (by decide)]

theorem linuxList_area :
    Area (synWith linuxList).mem (34 + 20) (34 + (synWith linuxList).doff 34 * 4) linuxList :=
  ⟨by decide, by decide, .inl (by decide)⟩

theorem multipathList_area :
    Area (synWith multipathList).mem (34 + 20) (34 + (synWith multipathList).doff 34 * 4)
      multipathList :=
  ⟨by decide, by decide, .inl (by decide)⟩

theorem linuxList_whole : StampsWhole linuxList := by
  intro body hkind hlen h
  simp only [linuxList, List.mem_cons, List.not_mem_nil, or_false, Opt.data.injEq, reduceCtorEq,
    false_or] at h
  rcases h with ⟨h, -⟩ | ⟨h, -⟩ | ⟨-, rfl⟩ | ⟨h, -⟩
  · exact absurd h (by decide)
  · exact absurd h (by decide)
  · rfl
  · exact absurd h (by decide)

theorem multipathList_whole : StampsWhole multipathList := by
  intro body hkind hlen h
  simp only [multipathList, List.mem_cons, List.not_mem_nil, or_false, Opt.data.injEq] at h
  rcases h with ⟨h, -⟩ | ⟨h, -⟩ | ⟨h, -⟩ | ⟨-, rfl⟩
  · exact absurd h (by decide)
  · exact absurd h (by decide)
  · exact absurd h (by decide)
  · rfl

/-- In a Linux SYN the mask finds the timestamp option. -/
theorem parse_timestamp_of_a_linux_syn :
    switch_agent.parse_timestamp (synWith linuxList) 34 = firstOf 8 linuxList :=
  (parse_timestamp_finds_the_first_iff (synWith linuxList) 34 linuxList (by decide) linuxList_area
    linuxList_whole).mpr
    ⟨fun _ _ _ => by decide, fun _ _ h => absurd h (by decide), fun h => absurd h (by decide)⟩

/-- The option of kind 30 at offset 6 satisfies the mask, and the timestamp option is
at offset 10. -/
theorem parse_timestamp_of_a_multipath_syn :
    (synWith multipathList).syn 34 ≠ (synWith multipathList).ack 34 ∧
      Area (synWith multipathList).mem (34 + 20) (34 + (synWith multipathList).doff 34 * 4)
        multipathList ∧
      StampsWhole multipathList ∧ firstOf 8 multipathList = some 10 ∧
      switch_agent.parse_timestamp (synWith multipathList) 34 = some 6 :=
  ⟨by decide, multipathList_area, multipathList_whole, by decide, by decide⟩

end edge_cookie
