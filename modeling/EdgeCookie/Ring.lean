-- Slots that two sides use in turn, each side with a counter of a fixed number
-- of bits. The counters wrap; they are compared here with counts that do not,
-- and the slots in use with the list of entries that they hold. What such slots
-- are for is a queue whose two sides work in small steps.
import EdgeCookie.Fifo
import Mathlib.Algebra.Group.Nat.Defs
import Mathlib.Logic.Function.Basic
import Mathlib.Tactic.Common

namespace ring

variable {α : Type} {w k a b n p size : Nat} {slots : Nat → α} {l l' : List α} {x : α}

/-! ## Counters that wrap -/

/-- Two counters that are less than a turn apart differ as their counts do. -/
theorem toNat_ofNat_sub (hle : a ≤ b) (hlt : b - a < 2 ^ w) :
    (BitVec.ofNat w b - BitVec.ofNat w a).toNat = b - a := by
  obtain ⟨d, rfl⟩ := Nat.exists_eq_add_of_le hle
  rw [Nat.add_sub_cancel_left] at hlt ⊢
  rw [BitVec.ofNat_add, BitVec.add_comm, BitVec.add_sub_cancel, BitVec.toNat_ofNat,
    Nat.mod_eq_of_lt hlt]

/-- The low bits of a counter are those of its count. -/
theorem toNat_ofNat_and_mask (hk : k ≤ w) :
    (BitVec.ofNat w n &&& BitVec.ofNat w (2 ^ k - 1)).toNat = n % 2 ^ k := by
  have hmask : 2 ^ k - 1 < 2 ^ w :=
    Nat.lt_of_lt_of_le (Nat.sub_lt (Nat.two_pow_pos k) Nat.one_pos)
      (Nat.pow_le_pow_right Nat.two_pos hk)
  rw [BitVec.toNat_and, BitVec.toNat_ofNat, BitVec.toNat_ofNat, Nat.mod_eq_of_lt hmask,
    Nat.and_two_pow_sub_one_eq_mod, Nat.mod_mod_of_dvd _ (Nat.pow_dvd_pow 2 hk)]

theorem eq_ofNat {v : BitVec w} (h : v.toNat = n) : v = BitVec.ofNat w n := by
  rw [← h, BitVec.ofNat_toNat, BitVec.setWidth_eq]

/-! ## The slots in use -/

/-- The slots from the count `n` on hold the entries, in order. -/
def Holds (slots : Nat → α) (size n : Nat) (l : List α) : Prop :=
  ∀ i x, l[i]? = some x → slots ((n + i) % size) = x

theorem Holds.nil : Holds slots size n [] := by
  intro i x h
  cases h

/-- Counts that are less than a turn apart have slots of their own. -/
theorem mod_ne_mod (hlt : a < b) (hturn : b < a + size) : a % size ≠ b % size := by
  intro h
  have hdvd : size ∣ b - a := Nat.dvd_of_mod_eq_zero (Nat.sub_mod_eq_zero_of_mod_eq h.symm)
  have hle := Nat.le_of_dvd (Nat.sub_pos_of_lt hlt) hdvd
  omega

/-- A write behind the entries, and less than a turn ahead, leaves them alone. -/
theorem Holds.update (h : Holds slots size n l) (hp : n + l.length ≤ p) (hturn : p < n + size) :
    Holds (Function.update slots (p % size) x) size n l := by
  intro i y hi
  have hlt : i < l.length := (List.getElem?_eq_some_iff.mp hi).1
  rw [Function.update_of_ne (mod_ne_mod (by omega) (by omega)), h i y hi]

/-- A write right behind the entries adds one. -/
theorem Holds.push (h : Holds slots size n l) (hfit : l.length < size) :
    Holds (Function.update slots ((n + l.length) % size) x) size n (l ++ [x]) := by
  intro i y hi
  rcases Nat.lt_or_ge i l.length with hlt | hge
  · rw [List.getElem?_append_left hlt] at hi
    exact h.update (Nat.le_refl _) (by omega) i y hi
  · have hlt := (List.getElem?_eq_some_iff.mp hi).1
    have hi' : i = l.length := by
      rw [List.length_append, List.length_singleton] at hlt
      omega
    subst hi'
    rw [List.getElem?_concat_length] at hi
    rw [Function.update_self]
    exact Option.some.inj hi

theorem Holds.drop (h : Holds slots size n l) (m : Nat) : Holds slots size (n + m) (l.drop m) := by
  intro i x hi
  rw [List.getElem?_drop] at hi
  rw [Nat.add_assoc]
  exact h (m + i) x hi

theorem Holds.left (h : Holds slots size n (l ++ l')) : Holds slots size n l := by
  intro i x hi
  apply h i x
  rw [List.getElem?_append_left (List.getElem?_eq_some_iff.mp hi).1]
  exact hi

theorem Holds.head (h : Holds slots size n (x :: l)) : slots (n % size) = x := h 0 x rfl

/-! ## A queue in small steps -/

/-- A queue and its producer. The producer asks for places for some entries,
writes them one by one, and hands them over together. -/
structure Producing (α : Type) (cap : Nat) where
  queue : Fifo α cap
  /-- The entries that have places: those that are written, and the others. -/
  held : Option (List α × List α)
  /-- Whether there were places, for each time it asked. -/
  answers : List Bool
  /-- The entries that got places so far. -/
  given : List α
  /-- What the other side has taken. -/
  taken : List α

def Producing.start (α : Type) (cap : Nat) : Producing α cap := ⟨.empty, none, [], [], []⟩

inductive Produce (α : Type) where
  | reserve (l : List α)
  | write
  | submit
  | take

def Producing.step {cap : Nat} (s : Producing α cap) : Produce α → Producing α cap
  | .reserve l =>
    match s.held with
    | some _ => s
    | none =>
      match s.queue.produce l with
      | none => { s with answers := s.answers ++ [false] }
      | some _ =>
        { s with held := some ([], l), answers := s.answers ++ [true], given := s.given ++ l }
  | .write =>
    match s.held with
    | some (done, x :: todo) => { s with held := some (done ++ [x], todo) }
    | _ => s
  | .submit =>
    match s.held with
    | some (done, []) => { s with queue := (s.queue.produce done).getD s.queue, held := none }
    | _ => s
  | .take =>
    match s.queue.entries with
    | [] => s
    | x :: _ => { s with queue := s.queue.release 1, taken := s.taken ++ [x] }

/-- A queue and its consumer. The consumer asks for some entries, reads them one
by one, and gives their places back together. It looks at the end of the queue
only when it knows of no more entries. -/
structure Consuming (α : Type) (cap : Nat) where
  queue : Fifo α cap
  /-- The entries that the consumer knows of and does not hold. -/
  known : Nat
  /-- What is read of the entries that the consumer holds, and their number. -/
  held : Option (List α × Nat)
  /-- What each time it asked gave. -/
  batches : List (List α)
  /-- What the other side has put in. -/
  posted : List α

def Consuming.start (α : Type) (cap : Nat) : Consuming α cap := ⟨.empty, 0, none, [], []⟩

inductive Consume (α : Type) where
  | peek (nb : Nat)
  | read
  | release
  | post (x : α)

/-- The entries that a consumer that holds none knows of when it asks. -/
def knownOf (q : List α) (known : Nat) : Nat := if known = 0 then q.length else known

def Consuming.step {cap : Nat} (s : Consuming α cap) : Consume α → Consuming α cap
  | .peek nb =>
    match s.held with
    | some _ => s
    | none =>
      let known := knownOf s.queue.entries s.known
      let n := s.queue.peek nb known
      if n = 0 then { s with known := known, batches := s.batches ++ [[]] }
      else { s with known := known - n, held := some ([], n) }
  | .read =>
    match s.held with
    | some (got, n) =>
      if got.length < n then
        { s with held := some (got ++ s.queue.entries[got.length]?.toList, n) }
      else s
    | none => s
  | .release =>
    match s.held with
    | some (got, n) =>
      if got.length < n then s
      else { s with queue := s.queue.release n, held := none, batches := s.batches ++ [got] }
    | none => s
  | .post x =>
    match s.queue.produce [x] with
    | none => s
    | some queue => { s with queue := queue, posted := s.posted ++ [x] }

theorem knownOf_le {q : List α} {known : Nat} (h : known ≤ q.length) :
    knownOf q known ≤ q.length := by
  unfold knownOf
  split
  · exact Nat.le_refl _
  · exact h

/-- A consumer that knows of no entry has looked, and there is none. -/
theorem knownOf_eq_zero {q : List α} {known : Nat} (h : knownOf q known = 0) : q.length = 0 := by
  unfold knownOf at h
  split at h
  · exact h
  · contradiction

theorem peek_knownOf {cap nb known : Nat} {q : Fifo α cap} (h : known ≤ q.entries.length) :
    q.peek nb (knownOf q.entries known) = min nb (knownOf q.entries known) := by
  have hle := knownOf_le h
  have hzero : knownOf q.entries known = 0 → q.entries.length = 0 := knownOf_eq_zero
  unfold Fifo.peek
  omega

/-! ## Nothing is lost -/

/-- The entries that have places and are not handed over. -/
def Producing.pending {cap : Nat} (s : Producing α cap) : List α :=
  match s.held with
  | none => []
  | some (done, todo) => done ++ todo

/-- What got places was taken, in this order, or is still in its place. -/
def Producing.Kept {cap : Nat} (s : Producing α cap) : Prop :=
  s.given = s.taken ++ (s.queue.entries ++ s.pending) ∧
    s.queue.entries.length + s.pending.length ≤ cap

theorem Producing.kept_step {cap : Nat} {s : Producing α cap} (h : s.Kept) (e : Produce α) :
    (s.step e).Kept := by
  obtain ⟨queue, held, answers, given, taken⟩ := s
  obtain ⟨hgiven, hfits⟩ := h
  cases e with
  | reserve l =>
    rcases held with _ | held
    · rcases hq : queue.produce l with _ | q
      · simp only [step, hq]
        exact ⟨hgiven, hfits⟩
      · have hlen := q.fits
        rw [Fifo.produce_eq_some hq, List.length_append] at hlen
        simp only [pending] at hgiven
        simp only [step, hq]
        exact ⟨by simp [pending, hgiven], hlen⟩
    · exact ⟨hgiven, hfits⟩
  | write =>
    rcases held with _ | ⟨done, _ | ⟨x, todo⟩⟩
    · exact ⟨hgiven, hfits⟩
    · exact ⟨hgiven, hfits⟩
    · have hpending : done ++ [x] ++ todo = done ++ x :: todo := by simp
      simp only [Kept, step, pending, hpending]
      exact ⟨hgiven, hfits⟩
  | submit =>
    rcases held with _ | ⟨done, _ | ⟨x, todo⟩⟩
    · exact ⟨hgiven, hfits⟩
    · simp only [pending, List.append_nil] at hgiven hfits
      obtain ⟨q, hq⟩ := Fifo.exists_produce hfits
      simp only [Kept, step, hq, Option.getD_some, pending, List.append_nil,
        Fifo.produce_eq_some hq]
      exact ⟨hgiven, by simpa using hfits⟩
    · exact ⟨hgiven, hfits⟩
  | take =>
    rcases hq : queue.entries with _ | ⟨x, rest⟩
    · simp only [step, hq]
      exact ⟨hgiven, hfits⟩
    · simp only [hq, List.length_cons] at hgiven hfits
      simp only [Kept, step, hq, pending, Fifo.entries_release_one hq] at hgiven hfits ⊢
      exact ⟨by simpa using hgiven, by omega⟩

/-- What was put in was read, in this order, or is still in the queue; and what
is read so far is the front of the queue. -/
structure Consuming.Kept {cap : Nat} (s : Consuming α cap) : Prop where
  posted : s.posted = s.batches.flatten ++ s.queue.entries
  front : ∀ got n, s.held = some (got, n) → got = s.queue.entries.take got.length
  held : ∀ got n, s.held = some (got, n) → got.length ≤ n ∧ n ≤ s.queue.entries.length

theorem Consuming.kept_step {cap : Nat} {s : Consuming α cap} (h : s.Kept) (e : Consume α) :
    (s.step e).Kept := by
  obtain ⟨queue, known, held, batches, posted⟩ := s
  obtain ⟨hposted, hfront, hheld⟩ := h
  cases e with
  | peek nb =>
    rcases held with _ | held
    · simp only [step]
      split
      · exact ⟨by simpa using hposted, hfront, hheld⟩
      · refine ⟨hposted, ?_, ?_⟩
        · rintro got n ⟨⟩
          rfl
        · rintro got n ⟨⟩
          exact ⟨Nat.zero_le _, Fifo.peek_le_length⟩
    · exact ⟨hposted, hfront, hheld⟩
  | read =>
    rcases held with _ | ⟨got, n⟩
    · exact ⟨hposted, hfront, hheld⟩
    · obtain ⟨hle, hn⟩ := hheld got n rfl
      simp only [step]
      split
      · rename_i hlt
        have hin : got.length < queue.entries.length := Nat.lt_of_lt_of_le hlt hn
        have hget : queue.entries[got.length]? = some queue.entries[got.length] :=
          List.getElem?_eq_getElem hin
        rw [hget, Option.toList_some]
        refine ⟨hposted, ?_, ?_⟩
        · rintro got' n' ⟨⟩
          rw [List.length_append, List.length_singleton, List.take_add_one, hget,
            Option.toList_some, ← hfront got n rfl]
        · rintro got' n' ⟨⟩
          rw [List.length_append, List.length_singleton]
          exact ⟨hlt, hn⟩
      · exact ⟨hposted, hfront, hheld⟩
  | release =>
    rcases held with _ | ⟨got, n⟩
    · exact ⟨hposted, hfront, hheld⟩
    · obtain ⟨hle, hn⟩ := hheld got n rfl
      simp only [step]
      split
      · exact ⟨hposted, hfront, hheld⟩
      · rename_i hall
        have hlen : got.length = n := by omega
        have hgot : got = queue.entries.take n := by rw [← hlen, ← hfront got n rfl]
        refine ⟨?_, ?_, ?_⟩
        · have hentries : queue.entries = got ++ (queue.release n).entries := by
            rw [hgot]
            exact Fifo.first_append_release.symm
          rw [List.flatten_append, List.flatten_singleton, List.append_assoc, ← hentries]
          exact hposted
        · rintro got' n' ⟨⟩
        · rintro got' n' ⟨⟩
  | post x =>
    rcases hq : queue.produce [x] with _ | q
    · simp only [step, hq]
      exact ⟨hposted, hfront, hheld⟩
    · simp only [step, hq]
      have hentries := Fifo.produce_eq_some hq
      refine ⟨?_, ?_, ?_⟩
      · rw [hentries, ← List.append_assoc]
        exact congrArg (· ++ [x]) hposted
      · intro got n hgot
        obtain ⟨hle, hn⟩ := hheld got n hgot
        rw [hentries, List.take_append_of_le_length (Nat.le_trans hle hn)]
        exact hfront got n hgot
      · intro got n hgot
        obtain ⟨hle, hn⟩ := hheld got n hgot
        rw [hentries, List.length_append]
        exact ⟨hle, Nat.le_add_right_of_le hn⟩

end ring
