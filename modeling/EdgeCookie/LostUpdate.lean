-- Both programs of the server agent at once on one entry: each looks the entry
-- up, works on its copy, and writes the whole copy back. An update is lost when
-- the other program wrote in between.
import EdgeCookie.CopyBack
import EdgeCookie.ServerRun

namespace edge_cookie

open bytes headers server runs copyback
open server_in (createVal)
open server_en (ackVal)

/-! ## The two programs on one entry -/

inductive Program where
  | server_in
  | server_en
  deriving DecidableEq, Repr

/-- What a program does between its look and its update. -/
inductive Work where
  | data (seed : U32)
  | synack (seq tsval : U32)
  | ack (tsval : U32)
  deriving DecidableEq, Repr

def Work.program : Work → Program
  | .data _ => .server_in
  | .synack _ _ => .server_en
  | .ack _ => .server_en

/-- The value that the program writes back, if it does. -/
def Work.write (ip : U32) : Work → map_val_t → Option map_val_t
  | .data seed, val => if val.cur_hash_seed = seed then none else some (refresh ip seed val)
  | .synack seq tsval, val => some (synackEntry val seq tsval)
  | .ack tsval, val => some (ackVal val tsval)

/-- What the branch does to the entry when it runs alone. -/
def Work.event : Work → FlowEvent
  | .data seed => .data seed
  | .synack seq tsval => .synack seq tsval
  | .ack tsval => .ack tsval

inductive MapOp where
  | look (i : Program)
  | update (w : Work)
  deriving DecidableEq, Repr

def MapOp.op (ip : U32) : MapOp → Op Program map_val_t
  | .look i => .look i
  | .update w => .update w.program (w.write ip)

/-- A program whose look and update have nothing between them is the packet
step of the server agent. -/
theorem look_update_is_a_packet_step (ip : U32) (c : Cell Program map_val_t) (w : Work) :
    some
      (copyback.step (copyback.step c (.look w.program)) (.update w.program (w.write ip))).value =
        flowStep ip (some c.value) w.event := by
  rw [look_update_value]
  cases w with
  | data seed =>
    unfold Work.write Work.event flowStep
    dsimp only
    split
    · rename_i h
      rw [Option.map_some, refresh_same ip h]
      rfl
    · rfl
  | synack seq tsval => rfl
  | ack tsval => rfl

/-! ## The last values written -/

/-- What the programs wrote last into the fields that are theirs. -/
structure Written where
  delta : U32
  ts_val_s : U32
  hybrid_cookie : U32
  cur_hash_seed : U32
  deriving DecidableEq, Repr

/-- `server_en` owns the difference and the timestamp, `server_in` the cookie
and its seed. -/
def Work.record (w : Work) (val : map_val_t) (l : Written) : Written :=
  match w with
  | .data _ => { l with hybrid_cookie := val.hybrid_cookie, cur_hash_seed := val.cur_hash_seed }
  | .synack _ _ => { l with delta := val.delta, ts_val_s := val.ts_val_s }
  | .ack _ => { l with ts_val_s := val.ts_val_s }

/-- The entry with the copies of the programs, and what was written last. -/
structure Shared where
  cell : Cell Program map_val_t
  last : Written

def Shared.start (val : map_val_t) : Shared :=
  ⟨.idle val, ⟨val.delta, val.ts_val_s, val.hybrid_cookie, val.cur_hash_seed⟩⟩

def recordOp (ip : U32) (s : Shared) : MapOp → Written
  | .look _ => s.last
  | .update w =>
    match (s.cell.copy w.program).bind (w.write ip) with
    | none => s.last
    | some val => w.record val s.last

def sharedStep (ip : U32) (s : Shared) (e : MapOp) : Shared :=
  ⟨copyback.step s.cell (e.op ip), recordOp ip s e⟩

/-- Each program writes only while its copy is still the entry. -/
def WritesFresh (ip : U32) (s : Shared) (e : MapOp) : Prop := Fresh s.cell (e.op ip)

/-! ## What is kept -/

/-- An entry holds what each program wrote last into its fields. -/
structure Kept (val : map_val_t) (last : Written) : Prop where
  delta : val.delta = last.delta
  ts_val_s : val.ts_val_s = last.ts_val_s
  hybrid_cookie : val.hybrid_cookie = last.hybrid_cookie
  cur_hash_seed : val.cur_hash_seed = last.cur_hash_seed

/-- Each program leaves the fields of the other one as it found them. -/
theorem kept_write {ip : U32} {w : Work} {old val : map_val_t} {last : Written} (h : Kept old last)
    (hw : w.write ip old = some val) : Kept val (w.record val last) := by
  cases w with
  | data seed =>
    unfold Work.write at hw
    dsimp only at hw
    split at hw
    · cases hw
    · obtain rfl := Option.some.inj hw
      exact ⟨(refresh_delta ip seed old).trans h.delta,
        (refresh_ts_val_s ip seed old).trans h.ts_val_s, rfl, rfl⟩
  | synack seq tsval =>
    obtain rfl := Option.some.inj hw
    have hsame := sameCookie_synackEntry old seq tsval
    exact ⟨rfl, rfl, hsame.hybrid.trans h.hybrid_cookie, hsame.seed.trans h.cur_hash_seed⟩
  | ack tsval =>
    obtain rfl := Option.some.inj hw
    exact ⟨h.delta, rfl, h.hybrid_cookie, h.cur_hash_seed⟩

theorem kept_step {ip : U32} {s : Shared} {e : MapOp} (hf : WritesFresh ip s e)
    (h : Kept s.cell.value s.last) :
    Kept (sharedStep ip s e).cell.value (sharedStep ip s e).last := by
  cases e with
  | look i => exact h
  | update w =>
    dsimp only [sharedStep, MapOp.op, recordOp]
    cases hcopy : s.cell.copy w.program with
    | none =>
      rw [step_update_none hcopy]
      exact h
    | some v =>
      rw [Option.bind_some]
      rcases step_fresh_value hcopy hf with ⟨hnone, hvalue⟩ | ⟨val, rfl, hval, hvalue⟩
      · rw [hvalue, hnone]
        exact h
      · rw [hvalue, hval]
        exact kept_write h hval

/-- Both programs work on the entry of one flow in any order of their looks and
updates. When each update that writes finds that its copy is still the entry, the
entry holds in every state what the SYN-ACK wrote into `delta`, what `server_en` wrote
last into `ts_val_s`, and the last cookie and seed of `server_in`. -/
theorem fresh_updates_are_never_lost (ip : U32) (val : map_val_t) (es : List MapOp)
    (hes : Along (sharedStep ip) (WritesFresh ip) (Shared.start val) es) :
    Kept (run (sharedStep ip) (Shared.start val) es).cell.value
      (run (sharedStep ip) (Shared.start val) es).last :=
  run_invariant_along (fun s : Shared => Kept s.cell.value s.last) (fun _ _ hf h => kept_step hf h)
    hes ⟨rfl, rfl, rfl, rfl⟩

/-- The SYN-ACK and then a data ACK, one after the other. -/
theorem updates_in_turn_are_kept :
    Kept (run (sharedStep clientKey.src_ip) (Shared.start (createVal (htonl 2)))
        [.look .server_en, .update (.synack (htonl 5) 9), .look .server_in,
          .update (.data 7)]).cell.value
      (run (sharedStep clientKey.src_ip) (Shared.start (createVal (htonl 2)))
        [.look .server_en, .update (.synack (htonl 5) 9), .look .server_in,
          .update (.data 7)]).last := by
  refine fresh_updates_are_never_lost _ _ _ ⟨trivial, ?_, trivial, ?_, trivial⟩
  · exact fun v hv _ => (Option.some.inj hv).symm
  · exact fun v hv _ => (Option.some.inj hv).symm

/-- The data ACK looks before the SYN-ACK writes, and writes after it: `delta`
is again what it was before the SYN-ACK. -/
theorem a_data_ack_can_undo_the_synack :
    ¬ Kept (run (sharedStep clientKey.src_ip) (Shared.start (createVal (htonl 2)))
        [.look .server_in, .look .server_en, .update (.synack (htonl 5) 9),
          .update (.data 7)]).cell.value
      (run (sharedStep clientKey.src_ip) (Shared.start (createVal (htonl 2)))
        [.look .server_in, .look .server_en, .update (.synack (htonl 5) 9),
          .update (.data 7)]).last := by
  intro h
  have hdelta := h.delta
  revert hdelta
  decide

end edge_cookie
