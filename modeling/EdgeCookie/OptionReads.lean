-- The bytes that the option parser of the gateway agent reads. It is written
-- once more as a program that gets at the options by reads of single bytes only,
-- with a guard before them as in the source. Its value is that of the parser, and
-- its reads and turns are bounded for all bytes.
import EdgeCookie.Access
import EdgeCookie.Timestamp

namespace edge_cookie.option_reads

open bytes headers access access.Prog

/-! ## The program -/

/-- The number that the `n` bytes from `a` hold, low byte first. -/
def word (a : Nat) : Nat → Prog U8 Nat
  | 0 => pure 0
  | n + 1 => do
    let low ← fetch a
    let high ← word (a + 1) n
    pure (low.toNat + 256 * high)

/-- `(mask & *tcp_opt_64) == mask`. -/
def masked64 (mask : U64) (a : Nat) : Prog U8 Bool := do
  let x ← word a 8
  pure (hasMask mask (BitVec.ofNat 64 x))

/-- `(mask & *tcp_opt_32) == mask`. -/
def masked32 (mask : U32) (a : Nat) : Prog U8 Bool := do
  let x ← word a 4
  pure (hasMask mask (BitVec.ofNat 32 x))

section

variable (tcp_opt opt_end : Nat)

def synMasks : Prog U8 Fast := do
  if ← masked64 syn_1_mask tcp_opt then pure (.found 6)
  else if opt_end < tcp_opt + 12 then pure .short
  else if ← masked64 syn_2_mask_1 tcp_opt then
    if ← masked32 syn_2_mask_2 (tcp_opt + 8) then pure (.found 10) else pure .slow
  else if ← masked64 syn_3_mask_1 tcp_opt then
    if ← masked32 syn_3_mask_2 (tcp_opt + 8) then pure (.found 10) else pure .slow
  else pure .slow

def ackMasks : Prog U8 Fast := do
  if ← masked64 ack_1_mask tcp_opt then pure (.found 2) else pure .slow

def synackMasks : Prog U8 Fast := do
  if ← masked64 synack_1_mask tcp_opt then pure (.found 2)
  else if opt_end < tcp_opt + 12 then pure .short
  else if ← masked64 synack_2_mask_1 tcp_opt then
    if ← masked32 synack_2_mask_2 (tcp_opt + 8) then pure (.found 10) else pure .slow
  else if ← masked64 synack_3_mask tcp_opt then
    if ← masked32 syn_3_mask_2 (tcp_opt + 8) then pure (.found 6) else pure .slow
  else if ← masked64 synack_4_mask_1 tcp_opt then
    if ← masked32 synack_4_mask_2 (tcp_opt + 8) then pure (.found 10) else pure .slow
  else pure .slow

def masks (syn ack : Bool) : Prog U8 Fast :=
  if syn && !ack then synMasks tcp_opt opt_end
  else if ack && !syn then ackMasks tcp_opt
  else synackMasks tcp_opt opt_end

end

/-- The loop, `n` turns at most. -/
def optWalk (opt_end : Nat) : Nat → Nat → Prog U8 (Option Nat)
  | 0, _ => pure none
  | n + 1, opt => do
    tick
    if opt_end < opt + 1 then pure none
    else if (← fetch opt) = 0 then pure none
    else if (← fetch opt) = 1 then optWalk opt_end n (opt + 1)
    else if opt_end < opt + 2 then pure none
    else
      let opt_len ← fetch (opt + 1)
      if (← fetch opt) ≠ 8 then optWalk opt_end n (opt + opt_len.toNat) else pure (some opt)

/-- The fields of the fixed header are arguments. -/
def parse_timestamp (doff : Nat) (syn ack : Bool) (tcp : Nat) : Prog U8 (Option Nat) := do
  let tcp_opt := tcp + 20
  let opt_end := tcp + doff * 4
  if opt_end < tcp_opt + 8 then pure none
  else
    match ← masks tcp_opt opt_end syn ack with
    | .found off => pure (some off)
    | .short => pure none
    | .slow =>
      let opt ← optWalk opt_end 40 tcp_opt
      pure (opt.map (· - tcp_opt))

/-! ## Its value -/

@[simp] theorem value_word (m : Mem) (a n : Nat) : (word a n).value m = load m a n := by
  induction n generalizing a with
  | zero => rfl
  | succ n ih => simp [word, load, ih]

section

variable (p : Pkt) (tcp_opt opt_end : Nat)

@[simp] theorem value_masked64 (mask : U64) (a : Nat) :
    (masked64 mask a).value p.mem = hasMask mask (p.u64 a) := by
  simp [masked64, Pkt.u64]

@[simp] theorem value_masked32 (mask : U32) (a : Nat) :
    (masked32 mask a).value p.mem = hasMask mask (p.u32 a) := by
  simp [masked32, Pkt.u32]

/-- The guard before the third word, as the model of the parser has it. -/
theorem not_room : (!decide (tcp_opt + 12 ≤ opt_end)) = decide (opt_end < tcp_opt + 12) := by
  rw [← decide_not]
  simp

theorem value_synMasks : (synMasks tcp_opt opt_end).value p.mem =
    edge_cookie.synMasks (p.u64 tcp_opt) (p.u32 (tcp_opt + 8))
      (decide (tcp_opt + 12 ≤ opt_end)) := by
  simp [synMasks, edge_cookie.synMasks, not_room]

theorem value_ackMasks : (ackMasks tcp_opt).value p.mem = edge_cookie.ackMasks (p.u64 tcp_opt) := by
  simp [ackMasks, edge_cookie.ackMasks]

theorem value_synackMasks : (synackMasks tcp_opt opt_end).value p.mem =
    edge_cookie.synackMasks (p.u64 tcp_opt) (p.u32 (tcp_opt + 8))
      (decide (tcp_opt + 12 ≤ opt_end)) := by
  simp [synackMasks, edge_cookie.synackMasks, not_room]

theorem value_optWalk (n opt : Nat) : (optWalk opt_end n opt).value p.mem =
    edge_cookie.optWalk p (fun a => decide (opt_end < a)) n opt := by
  induction n generalizing opt with
  | zero => rfl
  | succ n ih =>
    rw [optWalk, edge_cookie.optWalk, value_bind, value_ite, value_bind, value_ite, value_bind,
      value_ite, value_ite, value_bind, value_bind, value_ite, ih, ih]
    simp only [decide_eq_true_eq]
    rfl

/-- The choice among the masks, as the model of the parser makes it. -/
theorem value_masks (syn ack : Bool) : (masks tcp_opt opt_end syn ack).value p.mem =
    if syn && !ack then
      edge_cookie.synMasks (p.u64 tcp_opt) (p.u32 (tcp_opt + 8)) (decide (tcp_opt + 12 ≤ opt_end))
    else if ack && !syn then edge_cookie.ackMasks (p.u64 tcp_opt)
    else edge_cookie.synackMasks (p.u64 tcp_opt) (p.u32 (tcp_opt + 8))
      (decide (tcp_opt + 12 ≤ opt_end)) := by
  rw [masks, value_ite, value_ite, value_synMasks, value_ackMasks, value_synackMasks]

end

theorem value_parse_timestamp (p : Pkt) (tcp : Nat) :
    (parse_timestamp (p.doff tcp) (p.syn tcp) (p.ack tcp) tcp).value p.mem =
      switch_agent.parse_timestamp p tcp := by
  unfold parse_timestamp switch_agent.parse_timestamp
  dsimp only
  rw [← value_masks, value_ite, value_pure, value_bind]
  congr 1
  cases (masks (tcp + 20) (tcp + p.doff tcp * 4) (p.syn tcp) (p.ack tcp)).value p.mem with
  | found off => rfl
  | short => rfl
  | slow => rw [value_bind, value_pure, value_optWalk]

/-! ## Its reads -/

/-- The address is inside. -/
def Inside (lo hi a : Nat) : Prop := lo ≤ a ∧ a < hi

/-- An offset that the masks give is inside. -/
def FoundInside (lo hi : Nat) (fast : Fast) : Prop := ∀ off, fast = .found off → lo + off < hi

theorem word_meets {lo hi a n : Nat} (hlo : lo ≤ a) (hhi : a + n ≤ hi) :
    (word a n).Meets (Inside lo hi) (fun _ => True) 0 := by
  induction n generalizing a with
  | zero => exact trivial
  | succ n ih =>
    refine (meets_fetch ⟨hlo, by omega⟩).bind fun _ _ => ?_
    exact (ih (by omega) (by omega)).bind fun _ _ => meets_pure trivial

section

variable {tcp_opt opt_end : Nat}

theorem found_meets {off : Nat} (h : tcp_opt + off < opt_end) :
    (pure (.found off) : Prog U8 Fast).Meets (Inside tcp_opt opt_end) (FoundInside tcp_opt opt_end)
      0 := by
  apply meets_pure
  rintro _ ⟨⟩
  exact h

theorem slow_meets :
    (pure .slow : Prog U8 Fast).Meets (Inside tcp_opt opt_end) (FoundInside tcp_opt opt_end) 0 :=
  meets_pure nofun

theorem short_meets :
    (pure .short : Prog U8 Fast).Meets (Inside tcp_opt opt_end) (FoundInside tcp_opt opt_end) 0 :=
  meets_pure nofun

/-- A test of the first eight bytes. -/
theorem masked64_meets (mask : U64) (h : tcp_opt + 8 ≤ opt_end) :
    (masked64 mask tcp_opt).Meets (Inside tcp_opt opt_end) (fun _ => True) 0 :=
  (word_meets (Nat.le_refl tcp_opt) h).bind fun _ _ => meets_pure trivial

/-- A test of the four bytes behind them. -/
theorem masked32_meets (mask : U32) (h : tcp_opt + 12 ≤ opt_end) :
    (masked32 mask (tcp_opt + 8)).Meets (Inside tcp_opt opt_end) (fun _ => True) 0 :=
  (word_meets (Nat.le_add_right tcp_opt 8) (by omega)).bind fun _ _ => meets_pure trivial

variable (h : tcp_opt + 8 ≤ opt_end)

include h

theorem synMasks_meets :
    (synMasks tcp_opt opt_end).Meets (Inside tcp_opt opt_end) (FoundInside tcp_opt opt_end) 0 := by
  refine (masked64_meets _ h).test (found_meets (by omega)) ?_
  split
  · exact short_meets
  · -- the guard has made sure of the third word
    have hroom : tcp_opt + 12 ≤ opt_end := by omega
    have hten := found_meets (show tcp_opt + 10 < opt_end by omega)
    refine (masked64_meets _ h).test ((masked32_meets _ hroom).test hten slow_meets) ?_
    exact (masked64_meets _ h).test ((masked32_meets _ hroom).test hten slow_meets) slow_meets

theorem ackMasks_meets :
    (ackMasks tcp_opt).Meets (Inside tcp_opt opt_end) (FoundInside tcp_opt opt_end) 0 :=
  (masked64_meets _ h).test (found_meets (by omega)) slow_meets

theorem synackMasks_meets :
    (synackMasks tcp_opt opt_end).Meets (Inside tcp_opt opt_end) (FoundInside tcp_opt opt_end)
      0 := by
  refine (masked64_meets _ h).test (found_meets (by omega)) ?_
  split
  · exact short_meets
  · have hroom : tcp_opt + 12 ≤ opt_end := by omega
    have hsix := found_meets (show tcp_opt + 6 < opt_end by omega)
    have hten := found_meets (show tcp_opt + 10 < opt_end by omega)
    refine (masked64_meets _ h).test ((masked32_meets _ hroom).test hten slow_meets) ?_
    refine (masked64_meets _ h).test ((masked32_meets _ hroom).test hsix slow_meets) ?_
    exact (masked64_meets _ h).test ((masked32_meets _ hroom).test hten slow_meets) slow_meets

theorem masks_meets (syn ack : Bool) :
    (masks tcp_opt opt_end syn ack).Meets (Inside tcp_opt opt_end) (FoundInside tcp_opt opt_end)
      0 := by
  unfold masks
  split
  · exact synMasks_meets h
  · split
    · exact ackMasks_meets h
    · exact synackMasks_meets h

end

/-- Each turn starts inside or behind the end, where its guards stop it. -/
theorem optWalk_meets {lo opt_end opt : Nat} (n : Nat) (hopt : lo ≤ opt) :
    (optWalk opt_end n opt).Meets (Inside lo opt_end)
      (fun r => ∀ a, r = some a → Inside lo opt_end a) n := by
  induction n generalizing opt with
  | zero => exact meets_pure nofun
  | succ n ih =>
    refine meets_tick.bind fun _ _ => ?_
    split
    · exact meets_pure nofun
    · have hkind : Inside lo opt_end opt := ⟨hopt, by omega⟩
      refine (meets_fetch hkind).bind fun kind _ => ?_
      split
      · exact meets_pure nofun
      · refine (meets_fetch hkind).bind fun kind _ => ?_
        split
        · exact ih (Nat.le_succ_of_le hopt)
        · split
          · exact meets_pure nofun
          · refine (meets_fetch ⟨by omega, by omega⟩).bind fun opt_len _ => ?_
            refine (meets_fetch hkind).bind fun kind _ => ?_
            split
            · exact ih (Nat.le_add_right_of_le hopt)
            · apply meets_pure
              rintro _ ⟨⟩
              exact hkind

theorem parse_timestamp_meets (doff : Nat) (syn ack : Bool) (tcp : Nat) :
    (parse_timestamp doff syn ack tcp).Meets (Inside (tcp + 20) (tcp + doff * 4))
      (fun r => ∀ off, r = some off → off < doff * 4 - 20) 40 := by
  unfold parse_timestamp
  dsimp only
  split
  · exact meets_pure nofun
  · have hroom : tcp + 20 + 8 ≤ tcp + doff * 4 := by omega
    refine (masks_meets hroom syn ack).bind fun fast hfast => ?_
    cases fast with
    | found off =>
      apply meets_pure
      rintro _ ⟨⟩
      have := hfast off rfl
      omega
    | short => exact meets_pure nofun
    | slow =>
      refine (optWalk_meets 40 (Nat.le_refl _)).bind (n := 0) fun opt hopt =>
        meets_pure fun off hoff => ?_
      obtain ⟨a, ha, rfl⟩ := Option.map_eq_some_iff.mp hoff
      have hinside := hopt a ha
      unfold Inside at hinside
      omega

/-- For each frame: the program gives what the parser gives, reads option bytes
only inside the option area, makes at most 40 turns, and an offset is below the
length of the area. -/
theorem option_reads_are_bounded (p : Pkt) (tcp : Nat) :
    let parser := parse_timestamp (p.doff tcp) (p.syn tcp) (p.ack tcp) tcp
    parser.value p.mem = switch_agent.parse_timestamp p tcp ∧
      (∀ a ∈ parser.reads p.mem, tcp + 20 ≤ a ∧ a < tcp + p.doff tcp * 4) ∧
      parser.turns p.mem ≤ 40 ∧
      ∀ off, switch_agent.parse_timestamp p tcp = some off → off < p.doff tcp * 4 - 20 := by
  intro parser
  have hvalue : parser.value p.mem = switch_agent.parse_timestamp p tcp :=
    value_parse_timestamp p tcp
  obtain ⟨hreads, hturns, hoff⟩ :=
    (parse_timestamp_meets (p.doff tcp) (p.syn tcp) (p.ack tcp) tcp).sound p.mem
  rw [value_parse_timestamp] at hoff
  exact ⟨hvalue, hreads, hturns, hoff⟩

/-- What the parser gives is a function of the three fields and of the option area. -/
theorem parse_timestamp_congr {p q : Pkt} {tcp : Nat} (hdoff : q.doff tcp = p.doff tcp)
    (hsyn : q.syn tcp = p.syn tcp) (hack : q.ack tcp = p.ack tcp)
    (harea : ∀ a, tcp + 20 ≤ a → a < tcp + p.doff tcp * 4 → q.mem a = p.mem a) :
    switch_agent.parse_timestamp q tcp = switch_agent.parse_timestamp p tcp := by
  have hmeets := parse_timestamp_meets (p.doff tcp) (p.syn tcp) (p.ack tcp) tcp
  rw [← value_parse_timestamp, ← value_parse_timestamp, hdoff, hsyn, hack]
  apply value_eq_of_agree
  intro a ha
  obtain ⟨hlo, hhi⟩ := (hmeets.sound p.mem).1 a ha
  exact harea a hlo hhi

end edge_cookie.option_reads
