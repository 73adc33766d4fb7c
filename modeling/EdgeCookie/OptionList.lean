-- The list of the TCP options, as the two parsers of the timestamp option walk
-- it. A walk finds the first timestamp option when it makes enough turns, and
-- the two parsers make a different number of turns.
import EdgeCookie.Timestamp

namespace edge_cookie

open bytes headers

/-! ## The options one by one -/

/-- The address of the option behind the one at `a`. A NOP is one byte long. -/
def nextOpt (p : Pkt) (a : Nat) : Nat := if p.u8 a = 1 then a + 1 else a + (p.u8 (a + 1)).toNat

/-- The address of option `k` from `a` on, counted from 0, NOPs included. -/
def optAt (p : Pkt) (a : Nat) : Nat → Nat
  | 0 => a
  | k + 1 => optAt p (nextOpt p a) k

/-- A walk goes over the option at `a`: it is neither the end of the list nor a
timestamp, and what the walk reads of it is not behind the end. -/
structure Skipped (p : Pkt) (past : Nat → Bool) (a : Nat) : Prop where
  kind_inside : past (a + 1) = false
  not_end : p.u8 a ≠ 0
  not_stamp : p.u8 a ≠ 8
  length_inside : p.u8 a ≠ 1 → past (a + 2) = false

structure IsStamp (p : Pkt) (past : Nat → Bool) (a : Nat) : Prop where
  kind_inside : past (a + 1) = false
  stamp : p.u8 a = 8
  length_inside : past (a + 2) = false

/-- The first timestamp option from `a` on is option `k`. -/
structure FirstStamp (p : Pkt) (past : Nat → Bool) (a k : Nat) : Prop where
  before : ∀ j < k, Skipped p past (optAt p a j)
  here : IsStamp p past (optAt p a k)

section

variable {p : Pkt} {past : Nat → Bool} {a k : Nat}

theorem firstStamp_zero : FirstStamp p past a 0 ↔ IsStamp p past a :=
  ⟨fun h => h.here, fun h => ⟨fun _ hj => absurd hj (Nat.not_lt_zero _), h⟩⟩

theorem firstStamp_succ :
    FirstStamp p past a (k + 1) ↔ Skipped p past a ∧ FirstStamp p past (nextOpt p a) k := by
  constructor
  · intro h
    exact ⟨h.before 0 (Nat.succ_pos k), fun j hj => h.before (j + 1) (Nat.succ_lt_succ hj), h.here⟩
  · rintro ⟨hskip, h⟩
    refine ⟨fun j hj => ?_, h.here⟩
    cases j with
    | zero => exact hskip
    | succ j => exact h.before j (Nat.lt_of_succ_lt_succ hj)

theorem Skipped.not_isStamp (h : Skipped p past a) : ¬ IsStamp p past a := fun hs =>
  h.not_stamp hs.stamp

theorem FirstStamp.unique {k' : Nat} (h : FirstStamp p past a k) (h' : FirstStamp p past a k') :
    k = k' := by
  rcases Nat.lt_trichotomy k k' with hlt | heq | hlt
  · exact absurd h.here (h'.before k hlt).not_isStamp
  · exact heq
  · exact absurd h'.here (h.before k' hlt).not_isStamp

/-- An option of length 0 holds a walk back for good. -/
theorem optAt_of_stuck (h : nextOpt p a = a) (k : Nat) : optAt p a k = a := by
  induction k with
  | zero => rfl
  | succ k ih => rw [optAt, h, ih]

/-- Each option before the timestamp takes at least one byte. -/
theorem FirstStamp.le_optAt (h : FirstStamp p past a k) : a + k ≤ optAt p a k := by
  induction k generalizing a with
  | zero => exact Nat.le_refl a
  | succ k ih =>
    obtain ⟨hskip, hrest⟩ := firstStamp_succ.mp h
    have hne : nextOpt p a ≠ a := by
      intro hstuck
      rw [hstuck] at hrest
      have hhere := hrest.here
      rw [optAt_of_stuck hstuck] at hhere
      exact hskip.not_isStamp hhere
    have hle : a ≤ nextOpt p a := by
      unfold nextOpt
      split <;> omega
    have hrec := ih hrest
    rw [optAt]
    omega

/-! ## The walk -/

theorem optWalk_skip (h : Skipped p past a) (n : Nat) :
    optWalk p past (n + 1) a = optWalk p past n (nextOpt p a) := by
  unfold nextOpt
  rw [optWalk, h.kind_inside, if_neg Bool.false_ne_true, if_neg h.not_end]
  by_cases hnop : p.u8 a = 1
  · rw [if_pos hnop, if_pos hnop]
  · rw [if_neg hnop, if_neg hnop, h.length_inside hnop, if_neg Bool.false_ne_true,
      if_pos h.not_stamp]

theorem optWalk_stamp (h : IsStamp p past a) (n : Nat) : optWalk p past (n + 1) a = some a := by
  rw [optWalk, h.kind_inside, h.length_inside, h.stamp]
  simp

/-- One turn goes over an option, finds the timestamp, or gives up. -/
theorem optWalk_turn (p : Pkt) (past : Nat → Bool) (n a : Nat) :
    Skipped p past a ∨ IsStamp p past a ∨
      (¬ Skipped p past a ∧ ¬ IsStamp p past a ∧ optWalk p past (n + 1) a = none) := by
  rw [optWalk]
  by_cases hkind : past (a + 1) = true
  · rw [if_pos hkind]
    have hfalse := fun h : past (a + 1) = false => Bool.false_ne_true (h.symm.trans hkind)
    exact .inr (.inr ⟨fun h => hfalse h.kind_inside, fun h => hfalse h.kind_inside, rfl⟩)
  have hkind' := Bool.eq_false_iff.mpr hkind
  rw [if_neg hkind]
  by_cases hend : p.u8 a = 0
  · rw [if_pos hend]
    refine .inr (.inr ⟨fun h => h.not_end hend, fun h => ?_, rfl⟩)
    exact absurd (hend.symm.trans h.stamp) (by decide)
  rw [if_neg hend]
  by_cases hnop : p.u8 a = 1
  · exact .inl ⟨hkind', hend, by rw [hnop]; decide, fun h => absurd hnop h⟩
  rw [if_neg hnop]
  by_cases hlength : past (a + 2) = true
  · rw [if_pos hlength]
    have hfalse := fun h : past (a + 2) = false => Bool.false_ne_true (h.symm.trans hlength)
    exact .inr (.inr ⟨fun h => hfalse (h.length_inside hnop), fun h => hfalse h.length_inside, rfl⟩)
  have hlength' := Bool.eq_false_iff.mpr hlength
  by_cases hstamp : p.u8 a = 8
  · exact .inr (.inl ⟨hkind', hstamp, hlength'⟩)
  · exact .inl ⟨hkind', hend, hstamp, fun _ => hlength'⟩

/-- A walk of `n` turns finds the timestamp option when it is among the first
`n` options. -/
theorem optWalk_eq_some_iff (p : Pkt) (past : Nat → Bool) (n a x : Nat) :
    optWalk p past n a = some x ↔ ∃ k < n, FirstStamp p past a k ∧ optAt p a k = x := by
  induction n generalizing a with
  | zero => simp [optWalk]
  | succ n ih =>
    rcases optWalk_turn p past n a with hskip | hstamp | ⟨hskip, hstamp, hnone⟩
    · rw [optWalk_skip hskip, ih]
      constructor
      · rintro ⟨k, hk, hfirst, hx⟩
        exact ⟨k + 1, Nat.succ_lt_succ hk, firstStamp_succ.mpr ⟨hskip, hfirst⟩, hx⟩
      · rintro ⟨k, hk, hfirst, hx⟩
        cases k with
        | zero => exact absurd (firstStamp_zero.mp hfirst) hskip.not_isStamp
        | succ k => exact ⟨k, Nat.lt_of_succ_lt_succ hk, (firstStamp_succ.mp hfirst).2, hx⟩
    · rw [optWalk_stamp hstamp]
      constructor
      · intro hx
        exact ⟨0, Nat.succ_pos n, firstStamp_zero.mpr hstamp, Option.some.inj hx⟩
      · rintro ⟨k, -, hfirst, hx⟩
        obtain rfl := hfirst.unique (firstStamp_zero.mpr hstamp)
        exact congrArg some hx
    · rw [hnone]
      constructor
      · intro h
        cases h
      · rintro ⟨k, -, hfirst, -⟩
        cases k with
        | zero => exact absurd (firstStamp_zero.mp hfirst) hstamp
        | succ k => exact absurd (firstStamp_succ.mp hfirst).1 hskip

end

/-! ## The masks byte by byte -/

theorem testBit_load (m : Mem) (a n : Nat) {i j : Nat} (hi : i < n) (hj : j < 8) :
    (load m a n).testBit (8 * i + j) = (m (a + i)).getLsbD j := by
  induction n generalizing a i with
  | zero => exact absurd hi (Nat.not_lt_zero i)
  | succ n ih =>
    have hsum : load m a (n + 1) = 2 ^ 8 * load m (a + 1) n + (m a).toNat := by
      rw [load]
      omega
    rw [hsum, Nat.testBit_two_pow_mul_add _ (m a).isLt]
    cases i with
    | zero =>
      rw [if_pos (by omega), Nat.mul_zero, Nat.zero_add]
      rfl
    | succ i =>
      have hnext : 8 * (i + 1) + j - 8 = 8 * i + j := by omega
      have hat : a + 1 + i = a + (i + 1) := by omega
      rw [if_neg (by omega), hnext, ih (a + 1) (Nat.lt_of_succ_lt_succ hi), hat]

theorem getLsbD_u64 (p : Pkt) (a : Nat) {i j : Nat} (hi : i < 8) (hj : j < 8) :
    (p.u64 a).getLsbD (8 * i + j) = (p.u8 (a + i)).getLsbD j := by
  rw [Pkt.u64, BitVec.getLsbD_ofNat, testBit_load p.mem a 8 hi hj, decide_eq_true (by omega)]
  rfl

/-- A word with the mask has each bit of the mask. -/
theorem hasMask_bit {w : Nat} {mask x : BitVec w} (h : hasMask mask x = true) {i : Nat}
    (hi : mask.getLsbD i = true) : x.getLsbD i = true := by
  have hand := congrArg (·.getLsbD i) (beq_iff_eq.mp h)
  rw [BitVec.getLsbD_and, hi, Bool.true_and] at hand
  exact hand

/-! ## The two parsers on one segment -/

/-- The offset that the gateway agent works with: its parser found it, and the
10 bytes of the option fit the frame, which the caller checks. -/
def switch_agent.stampOffset (p : Pkt) (tcp : Nat) : Option Nat :=
  match switch_agent.parse_timestamp p tcp with
  | none => none
  | some off => if p.len < tcp + 20 + off + 10 then none else some off

/-- What the masks say about a segment with SYN or ACK, and not both, when its
header has 12 option bytes or more. -/
def maskView (p : Pkt) (tcp : Nat) : Fast :=
  if p.syn tcp then synMasks (p.u64 (tcp + 20)) (p.u32 (tcp + 20 + 8)) true
  else ackMasks (p.u64 (tcp + 20))

/-- The address is behind the TCP header. -/
def pastHeader (p : Pkt) (tcp : Nat) : Nat → Bool := fun a => decide (tcp + p.doff tcp * 4 < a)

instance (p : Pkt) (past : Nat → Bool) (a : Nat) : Decidable (Skipped p past a) :=
  decidable_of_iff (past (a + 1) = false ∧ p.u8 a ≠ 0 ∧ p.u8 a ≠ 8 ∧
      (p.u8 a ≠ 1 → past (a + 2) = false))
    ⟨fun h => ⟨h.1, h.2.1, h.2.2.1, h.2.2.2⟩,
      fun h => ⟨h.kind_inside, h.not_end, h.not_stamp, h.length_inside⟩⟩

instance (p : Pkt) (past : Nat → Bool) (a : Nat) : Decidable (IsStamp p past a) :=
  decidable_of_iff (past (a + 1) = false ∧ p.u8 a = 8 ∧ past (a + 2) = false)
    ⟨fun h => ⟨h.1, h.2.1, h.2.2⟩, fun h => ⟨h.kind_inside, h.stamp, h.length_inside⟩⟩

instance (p : Pkt) (past : Nat → Bool) (a k : Nat) : Decidable (FirstStamp p past a k) :=
  decidable_of_iff ((∀ j < k, Skipped p past (optAt p a j)) ∧ IsStamp p past (optAt p a k))
    ⟨fun h => ⟨h.1, h.2⟩, fun h => ⟨h.before, h.here⟩⟩

/-- The timestamp option of a segment, as its list of options has it: the first
option of kind 8, when it has its ten bytes inside the header. Its index is below
40, since the list has 40 bytes at most. -/
def stampAt (p : Pkt) (tcp : Nat) : Option Nat :=
  (((List.range 40).find? fun k => FirstStamp p (pastHeader p tcp) (tcp + 20) k).map
    (optAt p (tcp + 20))).filter fun a => p.u8 (a + 1) = 10 ∧ a + 10 ≤ tcp + p.doff tcp * 4

theorem synMasks_cases (opt64 : U64) (opt32 : U32) :
    synMasks opt64 opt32 true = .found 6 ∨ synMasks opt64 opt32 true = .found 10 ∨
      synMasks opt64 opt32 true = .slow := by
  unfold synMasks
  simp only [Bool.not_true, Bool.false_eq_true, if_false]
  split_ifs <;> simp

theorem maskView_cases (p : Pkt) (tcp : Nat) :
    (∃ off ≤ 10, maskView p tcp = .found off) ∨ maskView p tcp = .slow := by
  unfold maskView
  split
  · rcases synMasks_cases (p.u64 (tcp + 20)) (p.u32 (tcp + 20 + 8)) with h | h | h
    · exact .inl ⟨6, by decide, h⟩
    · exact .inl ⟨10, by decide, h⟩
    · exact .inr h
  · unfold ackMasks
    split
    · exact .inl ⟨2, by decide, rfl⟩
    · exact .inr rfl

section

variable {p : Pkt} {tcp : Nat}

theorem agent_parse_eq (hflags : p.syn tcp ≠ p.ack tcp) (hdoff : 32 ≤ p.doff tcp * 4) :
    switch_agent.parse_timestamp p tcp =
      match maskView p tcp with
      | .found off => some off
      | .short => none
      | .slow => (optWalk p (pastHeader p tcp) 40 (tcp + 20)).map (· - (tcp + 20)) := by
  have hroom : decide (tcp + 20 + 12 ≤ tcp + p.doff tcp * 4) = true := decide_eq_true (by omega)
  unfold switch_agent.parse_timestamp
  dsimp only
  rw [if_neg (by omega), hroom]
  have hfast : (if p.syn tcp && !p.ack tcp then
        synMasks (p.u64 (tcp + 20)) (p.u32 (tcp + 20 + 8)) true
      else if p.ack tcp && !p.syn tcp then ackMasks (p.u64 (tcp + 20))
      else synackMasks (p.u64 (tcp + 20)) (p.u32 (tcp + 20 + 8)) true) = maskView p tcp := by
    unfold maskView
    cases hsyn : p.syn tcp <;> cases hack : p.ack tcp <;> simp_all
  rw [hfast]
  rfl

/-- The parser of the server agent asks for the end of the frame too, which
decides nothing when the header lies inside the frame. -/
theorem server_parse_eq (hflags : p.syn tcp ≠ p.ack tcp) (hdoff : 32 ≤ p.doff tcp * 4)
    (hfits : tcp + p.doff tcp * 4 ≤ p.len) :
    server.parse_timestamp p (tcp + 20) tcp =
      match maskView p tcp with
      | .found off => if p.len < tcp + 20 + off + 10 then none else some off
      | .short => none
      | .slow =>
        match optWalk p (pastHeader p tcp) server.MAX_TCP_OPTION (tcp + 20) with
        | none => none
        | some opt => if p.len < opt + 10 then none else some (opt - (tcp + 20)) := by
  have hroom : decide (tcp + 20 + 12 ≤ p.len) = true := decide_eq_true (by omega)
  have hpast : (fun a => decide (tcp + p.doff tcp * 4 < a) || decide (p.len < a)) =
      pastHeader p tcp := by
    funext a
    unfold pastHeader
    by_cases h : p.len < a
    · rw [decide_eq_true h, decide_eq_true (by omega : tcp + p.doff tcp * 4 < a)]
      rfl
    · rw [decide_eq_false h, Bool.or_false]
  have hfast : (if p.syn tcp && !p.ack tcp then
        synMasks (p.u64 (tcp + 20)) (p.u32 (tcp + 20 + 8)) (decide (tcp + 20 + 12 ≤ p.len))
      else if p.ack tcp && !p.syn tcp then ackMasks (p.u64 (tcp + 20))
      else if p.syn tcp && p.ack tcp then
        synackMasks (p.u64 (tcp + 20)) (p.u32 (tcp + 20 + 8)) (decide (tcp + 20 + 12 ≤ p.len))
      else .slow) = maskView p tcp := by
    rw [hroom]
    unfold maskView
    cases hsyn : p.syn tcp <;> cases hack : p.ack tcp <;> simp_all
  unfold server.parse_timestamp
  dsimp only
  rw [if_neg (by omega), hfast, hpast]
  rcases maskView_cases p tcp with ⟨off, hoff, h⟩ | h
  · rw [h]
    dsimp only
    -- The cursor test asks for less than the ten bytes of the option.
    split_ifs <;> first | rfl | omega
  · rewrite [h]
    rfl

theorem stampOffset_slow (hflags : p.syn tcp ≠ p.ack tcp) (hdoff : 32 ≤ p.doff tcp * 4)
    (hslow : maskView p tcp = .slow) :
    switch_agent.stampOffset p tcp =
      match optWalk p (pastHeader p tcp) 40 (tcp + 20) with
      | none => none
      | some opt => if p.len < opt + 10 then none else some (opt - (tcp + 20)) := by
  unfold switch_agent.stampOffset
  rw [agent_parse_eq hflags hdoff, hslow]
  dsimp only
  cases hwalk : optWalk p (pastHeader p tcp) 40 (tcp + 20) with
  | none => rfl
  | some opt =>
    obtain ⟨k, -, hfirst, rfl⟩ := (optWalk_eq_some_iff _ _ _ _ _).mp hwalk
    have hle := hfirst.le_optAt
    rw [Option.map_some]
    dsimp only
    rw [Nat.add_sub_of_le (by omega)]

/-- The option area has 40 bytes, so no timestamp option has an index of 40. -/
theorem FirstStamp.lt_forty {k : Nat} (h : FirstStamp p (pastHeader p tcp) (tcp + 20) k) :
    k < 40 := by
  have hle := h.le_optAt
  have hinside := of_decide_eq_false h.here.length_inside
  have hdoff := p.doff_lt tcp
  omega

/-- `stampAt` is where the first timestamp option of the list is, when it is whole. -/
theorem stampAt_eq_some_iff {a : Nat} :
    stampAt p tcp = some a ↔ (∃ k, FirstStamp p (pastHeader p tcp) (tcp + 20) k ∧
      optAt p (tcp + 20) k = a) ∧ p.u8 (a + 1) = 10 ∧ a + 10 ≤ tcp + p.doff tcp * 4 := by
  unfold stampAt
  rw [Option.filter_eq_some_iff, Option.map_eq_some_iff, decide_eq_true_iff]
  refine and_congr_left fun _ => exists_congr fun k => and_congr_left fun _ => ?_
  constructor
  · intro hfind
    have hfirst := List.find?_some hfind
    exact of_decide_eq_true hfirst
  · intro hfirst
    cases hfind : (List.range 40).find? fun k => FirstStamp p (pastHeader p tcp) (tcp + 20) k with
    | none =>
      have hnot := List.find?_eq_none.mp hfind k (List.mem_range.mpr hfirst.lt_forty)
      exact absurd (decide_eq_true hfirst) hnot
    | some k' =>
      have hfirst' := List.find?_some hfind
      rw [hfirst.unique (of_decide_eq_true hfirst')]

/-- The gateway finds what the masks say, or the first timestamp option. -/
theorem stampOffset_cases {off : Nat} (hflags : p.syn tcp ≠ p.ack tcp) (hdoff : 32 ≤ p.doff tcp * 4)
    (h : switch_agent.stampOffset p tcp = some off) :
    tcp + 20 + off + 10 ≤ p.len ∧
      (maskView p tcp = .found off ∨ maskView p tcp = .slow ∧
        ∃ k, FirstStamp p (pastHeader p tcp) (tcp + 20) k ∧
          optAt p (tcp + 20) k = tcp + 20 + off) := by
  rcases maskView_cases p tcp with ⟨off', -, hfound⟩ | hslow
  · unfold switch_agent.stampOffset at h
    rw [agent_parse_eq hflags hdoff, hfound] at h
    dsimp only at h
    split at h
    · cases h
    · obtain rfl := Option.some.inj h
      exact ⟨by omega, .inl hfound⟩
  · rw [stampOffset_slow hflags hdoff hslow] at h
    cases hwalk : optWalk p (pastHeader p tcp) 40 (tcp + 20) with
    | none =>
      rw [hwalk] at h
      cases h
    | some opt =>
      rw [hwalk] at h
      dsimp only at h
      split at h
      · cases h
      · obtain ⟨k, -, hfirst, rfl⟩ := (optWalk_eq_some_iff _ _ _ _ _).mp hwalk
        have hle := hfirst.le_optAt
        have hsub := Option.some.inj h
        exact ⟨by omega, .inr ⟨hslow, k, hfirst, by omega⟩⟩

/-- The server agent finds it there too, when the masks say so or the option is
among the first ten. -/
theorem server_parse_some {off : Nat} (hflags : p.syn tcp ≠ p.ack tcp) (hdoff : 32 ≤ p.doff tcp * 4)
    (hfits : tcp + p.doff tcp * 4 ≤ p.len) (hlen : tcp + 20 + off + 10 ≤ p.len)
    (h : maskView p tcp = .found off ∨ maskView p tcp = .slow ∧
      ∃ k < server.MAX_TCP_OPTION, FirstStamp p (pastHeader p tcp) (tcp + 20) k ∧
        optAt p (tcp + 20) k = tcp + 20 + off) :
    server.parse_timestamp p (tcp + 20) tcp = some off := by
  rw [server_parse_eq hflags hdoff hfits]
  rcases h with hfound | ⟨hslow, hfirst⟩
  · rw [hfound]
    exact if_neg (by omega)
  · rw [hslow, (optWalk_eq_some_iff _ _ _ _ _).mpr hfirst]
    dsimp only
    rw [if_neg (by omega), Nat.add_sub_cancel_left]

end

/-- The two parsers agree on a segment just when the masks decide, or the first
timestamp option is among the first ten options, or it does not fit the frame. -/
theorem the_parsers_agree_iff (p : Pkt) (tcp : Nat) (hflags : p.syn tcp ≠ p.ack tcp)
    (hdoff : 32 ≤ p.doff tcp * 4) (hfits : tcp + p.doff tcp * 4 ≤ p.len) :
    switch_agent.stampOffset p tcp = server.parse_timestamp p (tcp + 20) tcp ↔
      ∀ k, maskView p tcp = .slow → FirstStamp p (pastHeader p tcp) (tcp + 20) k →
        optAt p (tcp + 20) k + 10 ≤ p.len → k < 10 := by
  rw [server_parse_eq hflags hdoff hfits]
  rcases maskView_cases p tcp with ⟨off, -, hfound⟩ | hslow
  · refine iff_of_true ?_ (fun k hslow => ?_)
    · unfold switch_agent.stampOffset
      rw [agent_parse_eq hflags hdoff, hfound]
    · rw [hfound] at hslow
      cases hslow
  rw [stampOffset_slow hflags hdoff hslow, hslow]
  dsimp only
  cases hten : optWalk p (pastHeader p tcp) server.MAX_TCP_OPTION (tcp + 20) with
  | some x =>
    have hforty := optWalk_mono (pastHeader p tcp) 40 (fun _ h => h) (by decide) hten
    rw [hforty]
    obtain ⟨k', hk', hfirst', -⟩ := (optWalk_eq_some_iff _ _ _ _ _).mp hten
    refine iff_of_true rfl (fun k _ hfirst _ => ?_)
    rw [hfirst.unique hfirst']
    exact hk'
  | none =>
    have hlate : ∀ k, FirstStamp p (pastHeader p tcp) (tcp + 20) k → ¬ k < 10 := by
      intro k hfirst hk
      have hwalk := (optWalk_eq_some_iff _ _ _ _ _).mpr ⟨k, hk, hfirst, rfl⟩
      exact absurd (hten.symm.trans hwalk) (by simp)
    dsimp only
    constructor
    · intro hagree k _ hfirst hfit
      rw [(optWalk_eq_some_iff _ _ _ _ _).mpr ⟨k, hfirst.lt_forty, hfirst, rfl⟩] at hagree
      dsimp only at hagree
      rw [if_neg (by omega)] at hagree
      cases hagree
    · intro h
      cases hforty : optWalk p (pastHeader p tcp) 40 (tcp + 20) with
      | none => rfl
      | some x =>
        obtain ⟨k, -, hfirst, rfl⟩ := (optWalk_eq_some_iff _ _ _ _ _).mp hforty
        dsimp only
        by_cases hfit : optAt p (tcp + 20) k + 10 ≤ p.len
        · exact absurd (h k rfl hfirst hfit) (hlate k hfirst)
        · rw [if_pos (by omega)]

/-- An ACK with `n` NOPs before its timestamp option. -/
def nopAck (n : Nat) (doff : U8) : Pkt :=
  .ofBytes (List.replicate 12 0 ++ [0x08, 0x00] ++
    [0x45, 0, 0, 60, 0, 0, 0, 0, 64, 6, 0, 0, 10, 18, 0, 3, 10, 19, 0, 3] ++
    [0, 7, 0, 80, 0, 0, 0, 1, 0, 0, 0, 2, doff, 0x10, 0, 0, 0, 0, 0, 0] ++
    List.replicate n 1 ++ [8, 10, 0, 0, 0, 5, 0, 0, 0, 6])

/-- Behind two NOPs both parsers find the timestamp at offset 2. -/
theorem the_parsers_agree_behind_two_nops :
    switch_agent.stampOffset (nopAck 2 0x80) 34 = server.parse_timestamp (nopAck 2 0x80) 54 34 :=
  (the_parsers_agree_iff (nopAck 2 0x80) 34 (by decide) (by decide) (by decide)).mpr
    (fun _ hslow => absurd hslow (by decide))

/-- Behind ten NOPs the gateway finds the timestamp and the server does not. -/
theorem the_parsers_differ_behind_ten_nops :
    (nopAck 10 0xa0).syn 34 ≠ (nopAck 10 0xa0).ack 34 ∧ 32 ≤ (nopAck 10 0xa0).doff 34 * 4 ∧
      34 + (nopAck 10 0xa0).doff 34 * 4 ≤ (nopAck 10 0xa0).len ∧
      switch_agent.stampOffset (nopAck 10 0xa0) 34 = some 10 ∧
      server.parse_timestamp (nopAck 10 0xa0) 54 34 = none := by
  decide

end edge_cookie
