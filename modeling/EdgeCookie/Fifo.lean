-- A queue with a fixed number of places, as a ring between a producer and a
-- consumer is: the producer adds entries all at once or not at all, and the
-- consumer takes the oldest ones. No value of the type holds more entries than
-- places.

/-- A queue of at most `cap` entries, the oldest first. -/
structure Fifo (α : Type) (cap : Nat) where
  entries : List α
  fits : entries.length ≤ cap

namespace Fifo

variable {α : Type} {cap : Nat}

def empty : Fifo α cap := ⟨[], Nat.zero_le cap⟩

/-- Places for the entries are reserved, filled and submitted. -/
def produce (r : Fifo α cap) (l : List α) : Option (Fifo α cap) :=
  if h : r.entries.length + l.length ≤ cap then
    some ⟨r.entries ++ l, by rw [List.length_append]; exact h⟩
  else none

/-- How many entries a consumer gets when it asks for up to `nb`. It may look
at an old end of the queue and get fewer than there are, but it gets one when
there is one. -/
def peek (r : Fifo α cap) (nb seen : Nat) : Nat := min (min nb r.entries.length) (max 1 seen)

def first (r : Fifo α cap) (k : Nat) : List α := r.entries.take k

def release (r : Fifo α cap) (k : Nat) : Fifo α cap :=
  ⟨r.entries.drop k, by rw [List.length_drop]; exact Nat.le_trans (Nat.sub_le _ _) r.fits⟩

variable {r r' : Fifo α cap} {l : List α} {nb seen k : Nat}

theorem eq_of_entries (h : r.entries = r'.entries) : r = r' := by
  obtain ⟨entries, hfits⟩ := r
  obtain ⟨entries', hfits'⟩ := r'
  cases h
  rfl

theorem exists_produce (h : r.entries.length + l.length ≤ cap) : ∃ r', r.produce l = some r' := by
  unfold produce
  rw [dif_pos h]
  exact ⟨_, rfl⟩

theorem produce_eq_some (h : r.produce l = some r') : r'.entries = r.entries ++ l := by
  unfold produce at h
  by_cases hfit : r.entries.length + l.length ≤ cap
  · rw [dif_pos hfit] at h
    rw [← Option.some.inj h]
  · rw [dif_neg hfit] at h
    cases h

theorem produce_eq_none_iff : r.produce l = none ↔ cap < r.entries.length + l.length := by
  unfold produce
  by_cases hfit : r.entries.length + l.length ≤ cap
  · rw [dif_pos hfit]
    constructor
    · intro h
      cases h
    · intro h
      omega
  · rw [dif_neg hfit]
    constructor
    · intro _
      omega
    · intro _
      rfl

theorem peek_le_nb : r.peek nb seen ≤ nb := by
  unfold peek
  omega

theorem peek_le_length : r.peek nb seen ≤ r.entries.length := by
  unfold peek
  omega

theorem peek_eq_zero_iff : r.peek nb seen = 0 ↔ nb = 0 ∨ r.entries.length = 0 := by
  unfold peek
  omega

/-- A consumer that sees all entries gets all that it asks for. -/
theorem peek_all (h : r.entries.length ≤ nb) (hs : r.entries.length ≤ seen) :
    r.peek nb seen = r.entries.length := by
  unfold peek
  omega

theorem first_append_release : r.first k ++ (r.release k).entries = r.entries :=
  List.take_append_drop k r.entries

theorem length_first_le : (r.first k).length ≤ k := List.length_take_le k r.entries

theorem length_release : (r.release k).entries.length = r.entries.length - k :=
  List.length_drop

theorem entries_release_one {x : α} {rest : List α} (h : r.entries = x :: rest) :
    (r.release 1).entries = rest := by
  change r.entries.drop 1 = rest
  rw [h]
  rfl

end Fifo
