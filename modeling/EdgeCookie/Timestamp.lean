-- The two parsers of the TCP timestamp option: one of the gateway agent and
-- one of the server agent. Both try a few masks on the first option bytes and
-- then walk the options one by one, with different bounds.
import EdgeCookie.Headers

namespace edge_cookie

open bytes headers

/-! ## The masks -/

def syn_1_mask : U64 := 0x0008000400000002
def syn_2_mask_1 : U64 := 0x0000070100000002
def syn_2_mask_2 : U32 := 0x08010100
def syn_3_mask_1 : U64 := 0x0000070100000002
def syn_3_mask_2 : U32 := 0x08000400
def ack_1_mask : U64 := 0x000000000080101
def synack_1_mask : U64 := ack_1_mask
def synack_2_mask_1 : U64 := syn_2_mask_1
def synack_2_mask_2 : U32 := syn_3_mask_2
def synack_3_mask : U64 := 0x0008010100000004
def synack_4_mask_1 : U64 := syn_2_mask_1
def synack_4_mask_2 : U32 := syn_2_mask_2

/-- `(mask & x) == mask`. -/
def hasMask {w : Nat} (mask x : BitVec w) : Bool := (mask &&& x) == mask

/-- What the masks say: an offset, no offset, or that the option bytes end
before the masks do. -/
inductive Fast where
  | found (off : Nat)
  | slow
  | short
  deriving DecidableEq, Repr

/-- The masks for a SYN. `room` says that 12 option bytes are there. -/
def synMasks (opt64 : U64) (opt32 : U32) (room : Bool) : Fast :=
  if hasMask syn_1_mask opt64 then .found 6
  else if !room then .short
  else if hasMask syn_2_mask_1 opt64 then
    if hasMask syn_2_mask_2 opt32 then .found 10 else .slow
  else if hasMask syn_3_mask_1 opt64 then
    if hasMask syn_3_mask_2 opt32 then .found 10 else .slow
  else .slow

def ackMasks (opt64 : U64) : Fast :=
  if hasMask ack_1_mask opt64 then .found 2 else .slow

def synackMasks (opt64 : U64) (opt32 : U32) (room : Bool) : Fast :=
  if hasMask synack_1_mask opt64 then .found 2
  else if !room then .short
  else if hasMask synack_2_mask_1 opt64 then
    if hasMask synack_2_mask_2 opt32 then .found 10 else .slow
  else if hasMask synack_3_mask opt64 then
    if hasMask syn_3_mask_2 opt32 then .found 6 else .slow
  else if hasMask synack_4_mask_1 opt64 then
    if hasMask synack_4_mask_2 opt32 then .found 10 else .slow
  else .slow

/-! ## The walk -/

/-- The walk over the options, `n` turns at most: the address of the first
option of kind 8. `past a` says that the address `a` is behind the end. -/
def optWalk (p : Pkt) (past : Nat → Bool) : Nat → Nat → Option Nat
  | 0, _ => none
  | n + 1, opt =>
    if past (opt + 1) then none
    else if p.u8 opt = 0 then none
    else if p.u8 opt = 1 then optWalk p past n (opt + 1)
    else if past (opt + 2) then none
    else if p.u8 opt ≠ 8 then optWalk p past n (opt + (p.u8 (opt + 1)).toNat)
    else some opt

/-- A walk that may go further and make more turns finds the same option. -/
theorem optWalk_mono {p : Pkt} {past : Nat → Bool} {n opt x : Nat} (past' : Nat → Bool) (m : Nat)
    (hpast : ∀ a, past' a = true → past a = true) (hnm : n ≤ m)
    (h : optWalk p past n opt = some x) :
    optWalk p past' m opt = some x := by
  induction n generalizing m opt with
  | zero => exact nomatch h
  | succ n ih =>
    obtain ⟨m, rfl⟩ : ∃ m', m = m' + 1 := ⟨m - 1, by omega⟩
    have hle : n ≤ m := Nat.le_of_succ_le_succ hnm
    have hnot : ∀ a, ¬ past a = true → ¬ past' a = true := fun a hn hp => hn (hpast a hp)
    unfold optWalk at h ⊢
    split at h
    · cases h
    · rename_i h1
      rw [if_neg (hnot _ h1)]
      split at h
      · cases h
      · rename_i h2
        rw [if_neg h2]
        split at h
        · rename_i h3
          rw [if_pos h3]
          exact ih m hle h
        · rename_i h3
          rw [if_neg h3]
          split at h
          · cases h
          · rename_i h4
            rw [if_neg (hnot _ h4)]
            split at h
            · rename_i h5
              rw [if_pos h5]
              exact ih m hle h
            · rename_i h5
              rw [if_neg h5]
              exact h

theorem optWalk_same {p q : Pkt} {n m opt : Nat} (h : Pkt.SameFrom n p q) (hopt : n ≤ opt)
    (past : Nat → Bool) : optWalk q past m opt = optWalk p past m opt := by
  induction m generalizing opt with
  | zero => rfl
  | succ m ih =>
    unfold optWalk
    rw [h.u8 hopt, h.u8 (Nat.le_succ_of_le hopt), ih (Nat.le_succ_of_le hopt),
      ih (Nat.le_add_right_of_le hopt)]

/-! ## The parser of the gateway agent -/

namespace switch_agent

/-- The offset of the timestamp option from the end of the fixed header. It
knows where the options end, and does not know where the frame ends. -/
def parse_timestamp (p : Pkt) (tcp : Nat) : Option Nat :=
  let tcp_opt := tcp + 20
  let opt_end := tcp + p.doff tcp * 4
  if opt_end < tcp_opt + 8 then none
  else
    let opt64 := p.u64 tcp_opt
    let opt32 := p.u32 (tcp_opt + 8)
    let room := decide (tcp_opt + 12 ≤ opt_end)
    let fast :=
      if p.syn tcp && !p.ack tcp then synMasks opt64 opt32 room
      else if p.ack tcp && !p.syn tcp then ackMasks opt64
      else synackMasks opt64 opt32 room
    match fast with
    | .found off => some off
    | .short => none
    | .slow => (optWalk p (fun a => decide (opt_end < a)) 40 tcp_opt).map (· - tcp_opt)

end switch_agent

/-! ## The parser of the server agent -/

namespace server

def MAX_TCP_OPTION : Nat := 10

/-- The offset of the timestamp option from the cursor, which stands behind
the fixed header. The option must lie inside the frame. -/
def parse_timestamp (p : Pkt) (pos tcp : Nat) : Option Nat :=
  if p.len < pos + 8 then none
  else
    let opt64 := p.u64 pos
    let opt32 := p.u32 (pos + 8)
    let room := decide (pos + 12 ≤ p.len)
    let fast :=
      if p.syn tcp && !p.ack tcp then synMasks opt64 opt32 room
      else if p.ack tcp && !p.syn tcp then ackMasks opt64
      else if p.syn tcp && p.ack tcp then synackMasks opt64 opt32 room
      else .slow
    match fast with
    | .found off =>
      -- The cursor has moved by `off` when the source adds `off` once more.
      if p.len < pos + off + off then none
      else if p.len < pos + off + 10 then none
      else some off
    | .short => none
    | .slow =>
      let opt_end := tcp + p.doff tcp * 4
      match optWalk p (fun a => decide (opt_end < a) || decide (p.len < a)) MAX_TCP_OPTION
        (tcp + 20) with
      | none => none
      | some opt => if p.len < opt + 10 then none else some (opt - pos)

/-- The parser reads the options, and of the fixed header the length and two flags. -/
theorem parse_timestamp_opts {p q : Pkt} {tcp : Nat} (h : Pkt.SameFrom (tcp + 20) p q)
    (hdoff : q.doff tcp = p.doff tcp) (hsyn : q.syn tcp = p.syn tcp)
    (hack : q.ack tcp = p.ack tcp) :
    parse_timestamp q (tcp + 20) tcp = parse_timestamp p (tcp + 20) tcp := by
  have hopt64 : q.u64 (tcp + 20) = p.u64 (tcp + 20) := h.u64 (by omega)
  have hopt32 : q.u32 (tcp + 20 + 8) = p.u32 (tcp + 20 + 8) := h.u32 (by omega)
  have hwalk : ∀ past m, optWalk q past m (tcp + 20) = optWalk p past m (tcp + 20) := fun past m =>
    optWalk_same h (Nat.le_refl _) past
  unfold parse_timestamp
  simp only [h.len, hopt64, hopt32, hsyn, hack, hdoff, hwalk]

theorem parse_timestamp_same {p q : Pkt} {n tcp : Nat} (h : Pkt.SameFrom n p q) (htcp : n ≤ tcp) :
    parse_timestamp q (tcp + 20) tcp = parse_timestamp p (tcp + 20) tcp := by
  have hflag : ∀ i, q.flag tcp i = p.flag tcp i := h.flag (Nat.le_add_right_of_le htcp)
  have hdoff : q.doff tcp = p.doff tcp := h.doff (Nat.le_add_right_of_le htcp)
  exact parse_timestamp_opts ⟨h.len, fun i hi => h.mem i (by omega)⟩ hdoff (hflag 1) (hflag 4)

end server

/-- In an ACK the two parsers find the same option, when both find one: the
parser of the server agent stops earlier. -/
theorem parse_timestamp_agrees {p : Pkt} {tcp off off' : Nat} (hack : p.ack tcp = true)
    (hsyn : p.syn tcp = false) (hagent : switch_agent.parse_timestamp p tcp = some off)
    (hserver : server.parse_timestamp p (tcp + 20) tcp = some off') : off' = off := by
  unfold switch_agent.parse_timestamp at hagent
  unfold server.parse_timestamp at hserver
  simp only [hack, hsyn, Bool.false_and, Bool.not_false, Bool.and_self, Bool.false_eq_true,
    if_false, if_true] at hagent hserver
  split at hagent
  · cases hagent
  split at hserver
  · cases hserver
  cases hfast : ackMasks (p.u64 (tcp + 20)) with
  | found fast =>
    rw [hfast] at hagent hserver
    dsimp only at hagent hserver
    split_ifs at hserver
    exact (Option.some.inj hserver).symm.trans (Option.some.inj hagent)
  | short =>
    rw [hfast] at hagent
    cases hagent
  | slow =>
    rw [hfast] at hagent hserver
    dsimp only at hagent hserver
    split at hserver
    · cases hserver
    · rename_i opt hopt
      split at hserver
      · cases hserver
      · have hwalk := optWalk_mono (fun a => decide (tcp + p.doff tcp * 4 < a)) 40
          (fun a ha => by rw [ha, Bool.true_or]) (by decide) hopt
        rw [hwalk] at hagent
        exact (Option.some.inj hserver).symm.trans (Option.some.inj hagent)

end edge_cookie
