-- The owner of a frame. The address of a frame is built by a product with the
-- frame size and taken apart by a shift, which is derived from the lowest bit of
-- the size. The two agree for a power of two. The parser asks for one, but not
-- in unaligned mode, and it has no bound for it.
import EdgeCookie.ParseArgs
import EdgeCookie.FrameRun
import Mathlib.Data.Nat.Factorization.Basic

namespace edge_cookie.xsknf

open bytes args

/-! ## Powers of two -/

/-- A number that shares no bit with the one below it is a power of two. -/
theorem odd_part_eq_one {k m : Nat} (hm : Odd m) (h : 2 ^ k * m &&& (2 ^ k * m - 1) = 0) :
    m = 1 := by
  obtain ⟨q, rfl⟩ := hm
  by_contra hq
  -- a bit of `q` is a bit of both numbers
  obtain ⟨t, ht⟩ := Nat.exists_testBit_of_ne_zero (show q ≠ 0 by omega)
  have hodd : (2 * q + 1).testBit (t + 1) = true := by
    rw [Nat.testBit_succ, show (2 * q + 1) / 2 = q by omega, ht]
  have heven : (2 * q).testBit (t + 1) = true := by
    rw [Nat.testBit_succ, show 2 * q / 2 = q by omega, ht]
  have hpos := Nat.two_pow_pos k
  have hbelow : 2 ^ k * (2 * q + 1) - 1 = 2 ^ k * (2 * q) + (2 ^ k - 1) := by
    rw [Nat.mul_succ]
    omega
  have hbit := congrArg (Nat.testBit · (k + (t + 1))) h
  rw [hbelow, Nat.testBit_and, Nat.testBit_two_pow_mul, Nat.testBit_two_pow_mul_add _ (by omega),
    if_neg (by omega), Nat.add_sub_cancel_left, hodd, heven] at hbit
  simp at hbit

/-- A power of two is taken off exactly. -/
theorem owner_of_two_pow {conf : xsknf_config} {k i j offset : Nat}
    (hsize : conf.xsk_frame_size = 2 ^ k) (hk : k < 32) (hj : j < FRAMES_PER_SOCKET)
    (hoffset : offset < 2 ^ k) :
    owner conf ((i * FRAMES_PER_SOCKET + j) * 2 ^ k + offset) = i := by
  have hframe : frame conf ((i * FRAMES_PER_SOCKET + j) * 2 ^ k + offset) =
      i * FRAMES_PER_SOCKET + j := by
    rw [frame, hsize, Nat.mul_comm, Nat.mul_add_div (Nat.two_pow_pos k), Nat.div_eq_of_lt hoffset,
      Nat.add_zero]
  rw [owner_eq_frame_div hsize hk, hframe, Nat.mul_comm, Nat.mul_add_div (by decide),
    Nat.div_eq_of_lt hj, Nat.add_zero]

/-! ## The configurations that the parser accepts -/

/-- What the rings take from the configuration. The frame size is an `int`; the
product with it and its lowest bit are those of its 32 bits. -/
def rings (config : args.xsknf_config) : xsknf_config :=
  ⟨config.num_interfaces, config.batch_size.toNat, config.xsk_frame_size.toNat⟩

/-- The shift gives back the interface from each place in each of its frames. -/
def OwnersRight (config : args.xsknf_config) (address : Nat → Nat → Nat) : Prop :=
  ∀ i < XSKNF_MAX_INTERFACES, ∀ k < FRAMES_PER_SOCKET, ∀ offset : Nat,
    (offset : Int) < config.xsk_frame_size.toInt → owner (rings config) (address i k + offset) = i

/-- The address of a frame as the layout of the packet memory has it. -/
def layoutAddr (config : args.xsknf_config) (i k : Nat) : Nat :=
  (i * FRAMES_PER_SOCKET + k) * config.xsk_frame_size.toNat

/-- The address of a frame as the fill ring gets it. -/
def ringAddr (config : args.xsknf_config) (i k : Nat) : Nat :=
  fillAddr (rings config) (i * FRAMES_PER_SOCKET) k

variable {config : args.xsknf_config}

theorem toInt_of_pos (h : 0 < config.xsk_frame_size.toInt) :
    config.xsk_frame_size.toInt = config.xsk_frame_size.toNat ∧ 0 < config.xsk_frame_size.toNat ∧
      config.xsk_frame_size.toNat < 2 ^ 31 := by
  have hlt := config.xsk_frame_size.isLt
  rw [BitVec.toInt_eq_toNat_cond] at h ⊢
  split at h
  · rename_i hsmall
    rw [if_pos hsmall]
    omega
  · omega

/-- The frame size as a power of two times an odd number. -/
theorem exists_odd_part (h : 0 < config.xsk_frame_size.toInt) :
    ∃ k m, k < 31 ∧ Odd m ∧ config.xsk_frame_size.toNat = 2 ^ k * m := by
  obtain ⟨-, hpos, hlt⟩ := toInt_of_pos h
  obtain ⟨k, m, hm, heq⟩ := Nat.exists_eq_two_pow_mul_odd (Nat.ne_of_gt hpos)
  have hle : 2 ^ k ≤ 2 ^ k * m := Nat.le_mul_of_pos_right _ hm.pos
  refine ⟨k, m, (Nat.pow_lt_pow_iff_right (by decide)).mp (Nat.lt_of_le_of_lt ?_ hlt), hm, heq⟩
  rw [heq]
  exact hle

/-- A frame size that is not positive leaves no place in a frame. -/
theorem ownersRight_of_not_pos (h : config.xsk_frame_size.toInt ≤ 0) (address : Nat → Nat → Nat) :
    OwnersRight config address := by
  intro i _ k _ offset hoffset
  omega

/-- On paper the layout needs a power of two: with any other size the last frame
of the first interface is taken for one of another interface. -/
theorem layout_right_iff (hpos : 0 < config.xsk_frame_size.toInt) :
    OwnersRight config (layoutAddr config) ↔ ∃ e, config.xsk_frame_size.toNat = 2 ^ e := by
  obtain ⟨k, m, hk, hm, hsize⟩ := exists_odd_part hpos
  constructor
  · intro h
    have hlast := h 0 (by decide) 4095 (by decide) 0 hpos
    have hpow : 2 ^ (12 + k) = 4096 * 2 ^ k := Nat.pow_add 2 12 k
    have hlt : 4095 * (2 ^ k * m) < 4096 * 2 ^ k := by
      rw [owner_eq_div hsize (by omega) hm, layoutAddr, hsize, Nat.add_zero, Nat.zero_mul,
        Nat.zero_add] at hlast
      rw [← hpow]
      exact (Nat.div_eq_zero_iff_lt (Nat.two_pow_pos _)).mp hlast
    have hmone : m = 1 := by
      have hmul : 2 ^ k * (4095 * m) < 2 ^ k * 4096 := by
        rw [Nat.mul_left_comm, Nat.mul_comm (2 ^ k) 4096]
        exact hlt
      have hsmall := Nat.lt_of_mul_lt_mul_left hmul
      have := hm.pos
      omega
    exact ⟨k, by rw [hsize, hmone, Nat.mul_one]⟩
  · rintro ⟨e, he⟩ i - j hj offset hoffset
    obtain ⟨hint, -, hlt⟩ := toInt_of_pos hpos
    have he31 : e < 31 := (Nat.pow_lt_pow_iff_right (by decide)).mp (he ▸ hlt)
    rw [hint, he] at hoffset
    rw [layoutAddr, he]
    exact owner_of_two_pow he (by omega) hj (by exact_mod_cast hoffset)

/-! ## The addresses of the fill ring -/

/-- Without a wrap the fill ring gets the address of the layout. -/
theorem ringAddr_eq_layoutAddr {i k : Nat} (h : layoutAddr config i k < 2 ^ 32) :
    ringAddr config i k = layoutAddr config i k :=
  Nat.mod_eq_of_lt h

/-- With frames of up to `2^15` bytes those of 32 interfaces have addresses of 32 bits. -/
theorem layoutAddr_lt {e i k : Nat} (hsize : config.xsk_frame_size.toNat = 2 ^ e) (he : e ≤ 15)
    (hi : i < XSKNF_MAX_INTERFACES) (hk : k < FRAMES_PER_SOCKET) :
    layoutAddr config i k < 2 ^ 32 := by
  have hframe : i * FRAMES_PER_SOCKET + k < 2 ^ 17 := by
    rw [show XSKNF_MAX_INTERFACES = 32 from rfl] at hi
    rw [show FRAMES_PER_SOCKET = 4096 from rfl] at hk ⊢
    omega
  calc layoutAddr config i k = (i * FRAMES_PER_SOCKET + k) * 2 ^ e := by rw [layoutAddr, hsize]
    _ < 2 ^ 17 * 2 ^ e := Nat.mul_lt_mul_of_pos_right hframe (Nat.two_pow_pos e)
    _ ≤ 2 ^ 17 * 2 ^ 15 := Nat.mul_le_mul_left _ (Nat.pow_le_pow_right (by decide) he)

theorem exists_moved_frame {m : Nat} (hm : Odd m) (hne : m ≠ 1) :
    ∃ j < FRAMES_PER_SOCKET, 4096 ≤ j * m ∧ (j * m < 8192 ∨ j = 1) := by
  obtain ⟨q, rfl⟩ := hm
  have hover := Nat.lt_mul_div_succ 4095 (show 0 < 2 * q + 1 by omega)
  have hunder := Nat.mul_div_le 4095 (2 * q + 1)
  have hcount : 4095 / (2 * q + 1) ≤ 4095 / 3 := Nat.div_le_div_left (by omega) (by decide)
  refine ⟨4095 / (2 * q + 1) + 1, by change _ < 4096; omega, ?_, ?_⟩
  · rw [Nat.mul_comm]
    omega
  · rcases Nat.lt_or_ge 4095 (2 * q + 1) with hlarge | hsmall
    · right
      rw [Nat.div_eq_of_lt hlarge]
    · left
      rw [Nat.mul_comm, Nat.mul_add, Nat.mul_one]
      omega

section

variable {k m : Nat} (hpos : 0 < config.xsk_frame_size.toInt)
  (hsize : config.xsk_frame_size.toNat = 2 ^ k * m) (hk : k < 32) (hm : Odd m)
  (h : OwnersRight config (ringAddr config))

include hpos hsize hk hm h

/-- The first byte of a frame, with the shift as a division. -/
theorem ringAddr_div {i j : Nat} (hi : i < XSKNF_MAX_INTERFACES) (hj : j < FRAMES_PER_SOCKET) :
    ringAddr config i j / 2 ^ (12 + k) = i := by
  have hfirst := h i hi j hj 0 hpos
  rwa [owner_eq_div hsize hk hm, Nat.add_zero] at hfirst

/-- An address has to reach the bits of its owner. -/
theorem lowBit_lt_of_right : k < 20 := by
  by_contra hge
  have hone := ringAddr_div hpos hsize hk hm h (i := 1) (j := 0) (by decide) (by decide)
  have hsmall : ringAddr config 1 0 < 2 ^ (12 + k) :=
    calc ringAddr config 1 0 < 2 ^ 32 := Nat.mod_lt _ (by decide)
      _ ≤ 2 ^ (12 + k) := Nat.pow_le_pow_right (by decide) (by omega)
  rw [Nat.div_eq_of_lt hsmall] at hone
  exact absurd hone (by decide)

/-- An odd part moves the frames of the first interface into the next one, and
the first that is moved has an address of 32 bits. -/
theorem odd_part_of_right : m = 1 := by
  have hlow := lowBit_lt_of_right hpos hsize hk hm h
  obtain ⟨-, -, hlt⟩ := toInt_of_pos hpos
  by_contra hne
  obtain ⟨j, hj, hover, hfits⟩ := exists_moved_frame hm hne
  have haddr : layoutAddr config 0 j = 2 ^ k * (j * m) := by
    rw [layoutAddr, hsize, Nat.zero_mul, Nat.zero_add, Nat.mul_left_comm]
  have h32 : layoutAddr config 0 j < 2 ^ 32 := by
    rcases hfits with hsmall | rfl
    · calc layoutAddr config 0 j
          = 2 ^ k * (j * m) := haddr
        _ < 2 ^ k * 2 ^ 13 := Nat.mul_lt_mul_of_pos_left hsmall (Nat.two_pow_pos k)
        _ ≤ 2 ^ 19 * 2 ^ 13 := Nat.mul_le_mul_right _ (Nat.pow_le_pow_right (by decide) (by omega))
    · rw [haddr, Nat.one_mul, ← hsize]
      omega
  have hzero := ringAddr_div hpos hsize hk hm h (i := 0) (by decide) hj
  rw [ringAddr_eq_layoutAddr h32, haddr, Nat.div_eq_zero_iff_lt (Nat.two_pow_pos _), Nat.add_comm,
    Nat.pow_add] at hzero
  have := Nat.lt_of_mul_lt_mul_left hzero
  omega

/-- The first frame of interface 16 is behind 32 bits for a larger frame. -/
theorem lowBit_le_of_right : k ≤ 15 := by
  by_contra hgt
  have hone := odd_part_of_right hpos hsize hk hm h
  have hfirst := ringAddr_div hpos hsize hk hm h (i := 16) (j := 0) (by decide) (by decide)
  have hwrap : ringAddr config 16 0 = 0 := by
    obtain ⟨d, rfl⟩ : ∃ d, k = 16 + d := ⟨k - 16, by omega⟩
    apply Nat.mod_eq_zero_of_dvd
    refine ⟨2 ^ d, ?_⟩
    rw [show (rings config).xsk_frame_size = 2 ^ (16 + d) * m from hsize, hone, Nat.mul_one,
      Nat.pow_add, ← Nat.mul_assoc]
    rfl
  rw [hwrap, Nat.zero_div] at hfirst
  exact absurd hfirst (by decide)

end

/-- The address that the fill ring gets is a product of 32 bits. It needs a
power of two up to `2^15`. -/
theorem fill_right_iff (hpos : 0 < config.xsk_frame_size.toInt) :
    OwnersRight config (ringAddr config) ↔
      ∃ e ≤ 15, config.xsk_frame_size.toNat = 2 ^ e := by
  constructor
  · intro h
    obtain ⟨k, m, hk, hm, hsize⟩ := exists_odd_part hpos
    have hk32 : k < 32 := by omega
    refine ⟨k, lowBit_le_of_right hpos hsize hk32 hm h, ?_⟩
    rw [hsize, odd_part_of_right hpos hsize hk32 hm h, Nat.mul_one]
  · rintro ⟨e, he, hsize⟩ i hi k hk offset hoffset
    rw [ringAddr_eq_layoutAddr (layoutAddr_lt hsize he hi hk)]
    exact (layout_right_iff hpos).mpr ⟨e, hsize⟩ i hi k hk offset hoffset

/-! ## The frame sizes that are accepted -/

theorem sizeRefused_of_returned {atoi : List Char → U32} {opts : List Opt}
    (h : xsknf_parse_args atoi opts = .returned config) : sizeRefused config = false := by
  unfold xsknf_parse_args finish at h
  grind

theorem two_pow_of_aligned (hpos : 0 < config.xsk_frame_size.toInt)
    (haligned : config.unaligned_chunks = false) (h : sizeRefused config = false) :
    ∃ e, config.xsk_frame_size.toNat = 2 ^ e := by
  obtain ⟨k, m, -, hm, hsize⟩ := exists_odd_part hpos
  obtain ⟨-, hnat, -⟩ := toInt_of_pos hpos
  have hand : config.xsk_frame_size &&& (config.xsk_frame_size - 1) = 0 := by
    simpa [sizeRefused, haligned] using h
  have hle : (1 : U32) ≤ config.xsk_frame_size := BitVec.le_def.mpr hnat
  have hbits := congrArg BitVec.toNat hand
  rw [BitVec.toNat_and, BitVec.toNat_sub_of_le hle, hsize] at hbits
  have hone := odd_part_eq_one hm hbits
  exact ⟨k, by rw [hsize, hone, Nat.mul_one]⟩

/-- For every configuration that the parser returns, the shift gives back the
interface from the addresses of the layout exactly if the mode is the aligned
one or the size is a power of two, and from the addresses of the fill ring
exactly if the size is a power of two up to `2^15`. A size that is not positive
has no frame. -/
theorem owners_are_decoded_iff (atoi : List Char → U32) (opts : List Opt)
    (config : args.xsknf_config) (h : xsknf_parse_args atoi opts = .returned config) :
    (OwnersRight config (layoutAddr config) ↔
      config.unaligned_chunks = false ∨ config.xsk_frame_size.toInt ≤ 0 ∨
        ∃ e, config.xsk_frame_size.toNat = 2 ^ e) ∧
    (OwnersRight config (ringAddr config) ↔
      config.xsk_frame_size.toInt ≤ 0 ∨ ∃ e ≤ 15, config.xsk_frame_size.toNat = 2 ^ e) := by
  rcases lt_or_ge 0 config.xsk_frame_size.toInt with hpos | hneg
  · have hnot : ¬ config.xsk_frame_size.toInt ≤ 0 := Int.not_le.mpr hpos
    rw [layout_right_iff hpos, fill_right_iff hpos]
    refine ⟨⟨fun hpow => .inr (.inr hpow), ?_⟩, ⟨.inr, fun hcond => hcond.resolve_left hnot⟩⟩
    rintro (haligned | hle | hpow)
    · exact two_pow_of_aligned hpos haligned (sizeRefused_of_returned h)
    · exact absurd hle hnot
    · exact hpow
  · exact ⟨iff_of_true (ownersRight_of_not_pos hneg _) (.inr (.inl hneg)),
      iff_of_true (ownersRight_of_not_pos hneg _) (.inl hneg)⟩

/-- The default frame size is right for both. -/
theorem owners_of_default_size :
    ∃ config, xsknf_parse_args (fun _ => 0) [.iface ['e']] = .returned config ∧
      OwnersRight config (layoutAddr config) ∧ OwnersRight config (ringAddr config) := by
  refine ⟨_, rfl, ?_⟩
  have hiff := owners_are_decoded_iff (fun _ => 0) [.iface ['e']] _ rfl
  exact ⟨hiff.1.mpr (.inl rfl), hiff.2.mpr (.inr ⟨12, by decide, rfl⟩)⟩

/-- In unaligned mode the parser accepts frames of 3000 bytes: the last one of
interface 0 is decoded as one of interface 374. In aligned mode it accepts
frames of 65536 bytes: the first one of interface 16 gets the address 0 in the
fill ring. -/
theorem the_shift_misses_the_owner :
    (∃ config,
      xsknf_parse_args (fun _ => 3000)
        [.iface ['e'], .unaligned, .frame_size ['3', '0', '0', '0']] = .returned config ∧
      ¬ OwnersRight config (layoutAddr config) ∧
      owner (rings config) (layoutAddr config 0 4095) = 374) ∧
    ∃ config,
      xsknf_parse_args (fun _ => 65536) [.iface ['e'], .frame_size ['6', '5', '5', '3', '6']] =
        .returned config ∧
      ¬ OwnersRight config (ringAddr config) ∧ ringAddr config 16 0 = 0 := by
  constructor
  · refine ⟨_, rfl, fun h => ?_, rfl⟩
    exact absurd (h 0 (by decide) 4095 (by decide) 0 (by decide)) (by decide)
  · refine ⟨_, rfl, fun h => ?_, rfl⟩
    exact absurd (h 16 (by decide) 0 (by decide) 0 (by decide)) (by decide)

end edge_cookie.xsknf
