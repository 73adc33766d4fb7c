-- The rings that a socket shares with the kernel, as the header of the socket
-- library reads and moves them: counters of 32 bits that wrap, the program's own
-- copies of both, and slots that a mask picks. Whatever the order of the small
-- steps of the two sides, such a ring is a queue.
import EdgeCookie.Bytes
import EdgeCookie.Ring
import EdgeCookie.Runs

namespace edge_cookie.xsk

open bytes ring

variable {α : Type}

/-! ## The functions of the header -/

/-- A ring. The slots and the last two counters are shared with the kernel. -/
structure xsk_ring (α : Type) where
  cached_prod : U32
  cached_cons : U32
  mask : U32
  size : U32
  producer : U32
  consumer : U32
  ring : Nat → α

abbrev xsk_ring_prod := xsk_ring
abbrev xsk_ring_cons := xsk_ring

/-- The slot of an index. -/
def slot (r : xsk_ring α) (idx : U32) : Nat := (idx &&& r.mask).toNat

def xsk_ring_prod_fill_addr (fill : xsk_ring_prod α) (idx : U32) : Nat := slot fill idx
def xsk_ring_cons_comp_addr (comp : xsk_ring_cons α) (idx : U32) : Nat := slot comp idx
def xsk_ring_prod_tx_desc (tx : xsk_ring_prod α) (idx : U32) : Nat := slot tx idx
def xsk_ring_cons_rx_desc (rx : xsk_ring_cons α) (idx : U32) : Nat := slot rx idx

/-- The free places, and the ring with a new copy of the consumer when the old
one shows fewer than `nb`. The copy is `size` ahead of the counter. -/
def xsk_prod_nb_free (r : xsk_ring_prod α) (nb : U32) : U32 × xsk_ring_prod α :=
  let free_entries := r.cached_cons - r.cached_prod
  if nb ≤ free_entries then (free_entries, r)
  else
    let r := { r with cached_cons := r.consumer + r.size }
    (r.cached_cons - r.cached_prod, r)

/-- The entries to read, up to `nb`. The producer is read anew only when the old
copy shows none. -/
def xsk_cons_nb_avail (r : xsk_ring_cons α) (nb : U32) : U32 × xsk_ring_cons α :=
  let entries := r.cached_prod - r.cached_cons
  let r := if entries = 0 then { r with cached_prod := r.producer } else r
  let entries := r.cached_prod - r.cached_cons
  (if nb < entries then nb else entries, r)

/-- The result, `*idx` and the ring: `nb` places or none at all. -/
def xsk_ring_prod_reserve (prod : xsk_ring_prod α) (nb idx : U32) : U32 × U32 × xsk_ring_prod α :=
  let (free_entries, prod) := xsk_prod_nb_free prod nb
  if free_entries < nb then (0, idx, prod)
  else (nb, prod.cached_prod, { prod with cached_prod := prod.cached_prod + nb })

def xsk_ring_prod_submit (prod : xsk_ring_prod α) (nb : U32) : xsk_ring_prod α :=
  { prod with producer := prod.producer + nb }

/-- The result, `*idx` and the ring. -/
def xsk_ring_cons_peek (cons : xsk_ring_cons α) (nb idx : U32) : U32 × U32 × xsk_ring_cons α :=
  let (entries, cons) := xsk_cons_nb_avail cons nb
  if 0 < entries then
    (entries, cons.cached_cons, { cons with cached_cons := cons.cached_cons + entries })
  else (entries, idx, cons)

def xsk_ring_cons_release (cons : xsk_ring_cons α) (nb : U32) : xsk_ring_cons α :=
  { cons with consumer := cons.consumer + nb }

/-- A write through the pointer to a slot. -/
def xsk_ring.store (r : xsk_ring α) (place : Nat) (x : α) : xsk_ring α :=
  { r with ring := Function.update r.ring place x }

/-- A new ring that the program fills, with both counters at `n`. -/
def newProd (size n : U32) (slots : Nat → α) : xsk_ring_prod α :=
  { cached_prod := n, cached_cons := n + size, mask := size - 1, size := size
    producer := n, consumer := n, ring := slots }

/-- A new ring that the program reads. -/
def newCons (size n : U32) (slots : Nat → α) : xsk_ring_cons α :=
  { cached_prod := n, cached_cons := n, mask := size - 1, size := size
    producer := n, consumer := n, ring := slots }

/-! ## The kernel's side -/

/-- The kernel takes an entry when there is one. -/
def kernelTake (r : xsk_ring_prod α) : Option (α × xsk_ring_prod α) :=
  if r.consumer = r.producer then none
  else some (r.ring (slot r r.consumer), { r with consumer := r.consumer + 1 })

/-- The kernel puts an entry in when there is a place. -/
def kernelPost (r : xsk_ring_cons α) (x : α) : Option (xsk_ring_cons α) :=
  if r.producer - r.consumer = r.size then none
  else some { r.store (slot r r.producer) x with producer := r.producer + 1 }

/-! ## The two sides in small steps -/

/-- A program that fills a ring: `filling` has the next index, the number of
places and the entries to write. -/
structure Filler (α : Type) where
  r : xsk_ring_prod α
  filling : Option (U32 × U32 × List α)
  answers : List Bool
  given : List α
  taken : List α

def Filler.start (r : xsk_ring_prod α) : Filler α := ⟨r, none, [], [], []⟩

/-- One access of the program or of the kernel. The program writes each entry at
`idx++` and submits behind the last. -/
def Filler.step (s : Filler α) : Produce α → Filler α
  | .reserve l =>
    match s.filling with
    | some _ => s
    | none =>
      let nb := BitVec.ofNat 32 l.length
      let (ret, idx, r) := xsk_ring_prod_reserve s.r nb 0
      if ret = nb then
        { s with
          r := r
          filling := some (idx, nb, l)
          answers := s.answers ++ [true]
          given := s.given ++ l }
      else { s with r := r, answers := s.answers ++ [false] }
  | .write =>
    match s.filling with
    | some (idx, nb, x :: todo) =>
      { s with
        r := s.r.store (xsk_ring_prod_tx_desc s.r idx) x
        filling := some (idx + 1, nb, todo) }
    | _ => s
  | .submit =>
    match s.filling with
    | some (_, nb, []) => { s with r := xsk_ring_prod_submit s.r nb, filling := none }
    | _ => s
  | .take =>
    match kernelTake s.r with
    | none => s
    | some (x, r) => { s with r := r, taken := s.taken ++ [x] }

/-- A program that reads a ring: `reading` has the next index, the number of
entries and those that are read. -/
structure Reader (α : Type) where
  r : xsk_ring_cons α
  reading : Option (U32 × U32 × List α)
  batches : List (List α)
  posted : List α

def Reader.start (r : xsk_ring_cons α) : Reader α := ⟨r, none, [], []⟩

def Reader.step (s : Reader α) : Consume α → Reader α
  | .peek nb =>
    match s.reading with
    | some _ => s
    | none =>
      let (ret, idx, r) := xsk_ring_cons_peek s.r (BitVec.ofNat 32 nb) 0
      if ret = 0 then { s with r := r, batches := s.batches ++ [[]] }
      else { s with r := r, reading := some (idx, ret, []) }
  | .read =>
    match s.reading with
    | some (idx, ret, got) =>
      if got.length < ret.toNat then
        { s with reading := some (idx + 1, ret, got ++ [s.r.ring (xsk_ring_cons_rx_desc s.r idx)]) }
      else s
    | none => s
  | .release =>
    match s.reading with
    | some (_, ret, got) =>
      if got.length < ret.toNat then s
      else
        { s with
          r := xsk_ring_cons_release s.r ret
          reading := none
          batches := s.batches ++ [got] }
    | none => s
  | .post x =>
    match kernelPost s.r x with
    | none => s
    | some r => { s with r := r, posted := s.posted ++ [x] }

/-! ## A ring that the program fills -/

/-- The fields of a ring of `2 ^ k` slots that no function changes. -/
structure Shaped (k : Nat) (r : xsk_ring α) : Prop where
  size : r.size = BitVec.ofNat 32 (2 ^ k)
  mask : r.mask = BitVec.ofNat 32 (2 ^ k - 1)
  small : k ≤ 31

theorem Shaped.slot_eq {k : Nat} {r : xsk_ring α} (h : Shaped k r) (n : Nat) :
    slot r (BitVec.ofNat 32 n) = n % 2 ^ k := by
  rw [slot, h.mask, toNat_ofNat_and_mask (Nat.le_trans h.small (by decide))]

theorem Shaped.lt {k : Nat} {r : xsk_ring α} (h : Shaped k r) : 2 ^ k < 2 ^ 32 :=
  Nat.pow_lt_pow_right Nat.one_lt_two (Nat.lt_succ_of_le h.small)

/-- The ring stands for the queue `q`. `c` entries were taken, the copy of that
count is `s`, and behind the queue there are `n` places, of which those of
`ready` are written. -/
structure Fills (k c s : Nat) (r : xsk_ring α) (q ready : List α) (n : Nat) : Prop where
  shaped : Shaped k r
  consumer : r.consumer = BitVec.ofNat 32 c
  producer : r.producer = BitVec.ofNat 32 (c + q.length)
  cached_prod : r.cached_prod = BitVec.ofNat 32 (c + q.length + n)
  cached_cons : r.cached_cons = BitVec.ofNat 32 (s + 2 ^ k)
  old : s ≤ c
  fits : c + q.length + n ≤ s + 2 ^ k
  holds : Holds r.ring (2 ^ k) c (q ++ ready)

section

variable {k c s n : Nat} {r : xsk_ring α} {q ready : List α}

theorem Fills.fits_taken (h : Fills k c s r q ready n) : q.length + n ≤ 2 ^ k := by
  have hold := h.old
  have hfits := h.fits
  omega

/-- The copy of the consumer may be old, but then it shows enough places. -/
theorem Fills.nb_free (h : Fills k c s r q ready n) (nb : U32) :
    ∃ s', (xsk_prod_nb_free r nb).1.toNat = s' + 2 ^ k - (c + q.length + n) ∧
      (xsk_prod_nb_free r nb).2.cached_prod = r.cached_prod ∧
      Fills k c s' (xsk_prod_nb_free r nb).2 q ready n ∧
      (nb.toNat ≤ s' + 2 ^ k - (c + q.length + n) ∨ s' = c) := by
  have hlt := h.shaped.lt
  have hold := h.old
  have hfree : (r.cached_cons - r.cached_prod).toNat = s + 2 ^ k - (c + q.length + n) := by
    rw [h.cached_cons, h.cached_prod]
    exact toNat_ofNat_sub h.fits (by omega)
  have hnew : (r.consumer + r.size - r.cached_prod).toNat = c + 2 ^ k - (c + q.length + n) := by
    rw [h.consumer, h.shaped.size, h.cached_prod, ← BitVec.ofNat_add]
    exact toNat_ofNat_sub (by have := h.fits_taken; omega) (by omega)
  unfold xsk_prod_nb_free
  by_cases hnb : nb ≤ r.cached_cons - r.cached_prod
  · simp only [hnb, if_true]
    refine ⟨s, hfree, trivial, h, Or.inl ?_⟩
    rw [← hfree]
    exact BitVec.le_def.mp hnb
  · simp only [hnb, if_false]
    refine ⟨c, hnew, trivial, ?_, Or.inr rfl⟩
    exact { h with
      shaped := { h.shaped with }
      cached_cons := by rw [h.consumer, h.shaped.size, BitVec.ofNat_add]
      old := Nat.le_refl c
      fits := by have := h.fits_taken; omega }

/-- Places are given when the queue has room for all of them. -/
theorem Fills.reserve (h : Fills k c s r q [] 0) (nb idx : U32)
    (hroom : q.length + nb.toNat ≤ 2 ^ k) :
    ∃ s' r', xsk_ring_prod_reserve r nb idx = (nb, BitVec.ofNat 32 (c + q.length), r') ∧
      Fills k c s' r' q [] nb.toNat := by
  obtain ⟨s', hfree, hprod, hfills, hs'⟩ := h.nb_free nb
  have hle : nb.toNat ≤ s' + 2 ^ k - (c + q.length + 0) := by
    rcases hs' with hs' | rfl
    · exact hs'
    · omega
  have henough : ¬ (xsk_prod_nb_free r nb).1 < nb := by
    rw [BitVec.lt_def, hfree]
    omega
  refine ⟨s', { (xsk_prod_nb_free r nb).2 with
    cached_prod := (xsk_prod_nb_free r nb).2.cached_prod + nb }, ?_, ?_⟩
  · simp only [xsk_ring_prod_reserve, henough, if_false, hprod, h.cached_prod, Nat.add_zero]
  · exact { hfills with
      shaped := { hfills.shaped with }
      cached_prod := by
        rw [hfills.cached_prod, BitVec.ofNat_add _ nb.toNat, BitVec.ofNat_toNat, BitVec.setWidth_eq,
          Nat.add_zero]
      fits := by have := hfills.fits; omega }

/-- Otherwise none are. -/
theorem Fills.reserve_full (h : Fills k c s r q [] 0) (nb idx : U32)
    (hfull : 2 ^ k < q.length + nb.toNat) :
    ∃ r', xsk_ring_prod_reserve r nb idx = (0, idx, r') ∧ Fills k c c r' q [] 0 ∧ nb ≠ 0 := by
  obtain ⟨s', hfree, -, hfills, hs'⟩ := h.nb_free nb
  have hold := hfills.old
  have hfits := hfills.fits
  have hfew : (xsk_prod_nb_free r nb).1 < nb := by
    rw [BitVec.lt_def, hfree]
    omega
  have hnew : s' = c := by
    rcases hs' with hs' | hs'
    · omega
    · exact hs'
  subst hnew
  refine ⟨(xsk_prod_nb_free r nb).2, ?_, hfills, ?_⟩
  · simp only [xsk_ring_prod_reserve, hfew, if_true]
  · rintro rfl
    change 2 ^ k < q.length + 0 at hfull
    omega

/-- An entry is written at the next index. -/
theorem Fills.store (h : Fills k c s r q ready n) (hn : ready.length < n) (x : α) :
    Fills k c s (r.store (slot r (BitVec.ofNat 32 (c + q.length + ready.length))) x) q
      (ready ++ [x]) n := by
  have hfits := h.fits_taken
  refine { h with shaped := { h.shaped with }, holds := ?_ }
  have hpush := h.holds.push (x := x) (by rw [List.length_append]; omega)
  rw [List.length_append] at hpush
  rw [h.shaped.slot_eq, ← List.append_assoc, Nat.add_assoc]
  exact hpush

/-- The written entries join the queue. -/
theorem Fills.submit (h : Fills k c s r q ready n) (hn : ready.length = n) {nb : U32}
    (hnb : nb.toNat = n) :
    Fills k c s (xsk_ring_prod_submit r nb) (q ++ ready) [] 0 := by
  have hlen : c + (q ++ ready).length = c + q.length + n := by
    rw [List.length_append, hn, Nat.add_assoc]
  have hnb' := eq_ofNat hnb
  exact { h with
    shaped := { h.shaped with }
    producer := by rw [hlen, BitVec.ofNat_add, ← h.producer, ← hnb']; rfl
    cached_prod := by rw [hlen]; exact h.cached_prod
    fits := by rw [hlen]; exact h.fits
    holds := by rw [List.append_nil]; exact h.holds }

theorem Fills.length_toNat (h : Fills k c s r q ready n) :
    (r.producer - r.consumer).toNat = q.length := by
  have hlt := h.shaped.lt
  have hfits := h.fits_taken
  rw [h.producer, h.consumer, toNat_ofNat_sub (by omega) (by omega), Nat.add_sub_cancel_left]

/-- The kernel takes the oldest entry of the queue. -/
theorem Fills.take {x : α} {rest : List α} (h : Fills k c s r q ready n) (hq : q = x :: rest) :
    ∃ r', kernelTake r = some (x, r') ∧ Fills k (c + 1) s r' rest ready n := by
  subst hq
  have hlt := h.shaped.lt
  have hfits := h.fits_taken
  have hlen : c + 1 + rest.length = c + (x :: rest).length := by
    rw [List.length_cons]
    omega
  have hne : r.consumer ≠ r.producer := by
    intro heq
    have hdiff := h.length_toNat
    rw [heq, BitVec.sub_self, List.length_cons] at hdiff
    cases hdiff
  refine ⟨{ r with consumer := r.consumer + 1 }, ?_, ?_⟩
  · have hread : r.ring (slot r r.consumer) = x := by
      rw [h.consumer, h.shaped.slot_eq]
      exact h.holds.head
    simp only [kernelTake, hne, if_false, hread]
  · exact { h with
      shaped := { h.shaped with }
      consumer := by rw [h.consumer, BitVec.ofNat_add]; rfl
      producer := by rw [hlen]; exact h.producer
      cached_prod := by rw [hlen]; exact h.cached_prod
      old := Nat.le_succ_of_le h.old
      fits := by rw [hlen]; exact h.fits
      holds := h.holds.drop 1 }

theorem Fills.take_empty (h : Fills k c s r q ready n) (hq : q = []) : kernelTake r = none := by
  subst hq
  have heq : r.consumer = r.producer := by
    rw [h.consumer, h.producer]
    rfl
  simp only [kernelTake, heq, if_true]

end

/-- The program and the ring, and the producer and the queue that they stand
for. -/
inductive Follows (k : Nat) : Filler α → Producing α (2 ^ k) → Prop
  | idle {c s : Nat} {r : xsk_ring α} {q : Fifo α (2 ^ k)} {answers : List Bool}
      {given taken : List α} (h : Fills k c s r q.entries [] 0) :
      Follows k ⟨r, none, answers, given, taken⟩ ⟨q, none, answers, given, taken⟩
  | filling {c s : Nat} {r : xsk_ring α} {q : Fifo α (2 ^ k)} {answers : List Bool}
      {given taken : List α} {nb : U32} {done todo : List α}
        (h : Fills k c s r q.entries done nb.toNat)
      (hnb : nb.toNat = done.length + todo.length) :
      Follows k ⟨r, some (BitVec.ofNat 32 (c + q.entries.length + done.length), nb, todo), answers,
        given, taken⟩
        ⟨q, some (done, todo), answers, given, taken⟩

section

variable {k : Nat} {s : Filler α} {t : Producing α (2 ^ k)}

theorem Follows.reserve (h : Follows k s t) {l : List α} (hl : l.length < 2 ^ 32) :
    Follows k (s.step (.reserve l)) (t.step (.reserve l)) := by
  cases h with
  | filling h hnb => exact .filling h hnb
  | @idle c s r q answers given taken h =>
    have hnb : (BitVec.ofNat 32 l.length).toNat = l.length := by
      rw [BitVec.toNat_ofNat, Nat.mod_eq_of_lt hl]
    rcases Nat.lt_or_ge (2 ^ k) (q.entries.length + l.length) with hfull | hroom
    · obtain ⟨r', hr', hfills, hne⟩ := h.reserve_full (BitVec.ofNat 32 l.length) 0 (by omega)
      simp only [Filler.step, Producing.step, hr', hne.symm, if_false,
        Fifo.produce_eq_none_iff.mpr hfull]
      exact .idle hfills
    · obtain ⟨s', r', hr', hfills⟩ := h.reserve (BitVec.ofNat 32 l.length) 0 (by omega)
      obtain ⟨q', hq'⟩ := Fifo.exists_produce hroom
      simp only [Filler.step, Producing.step, hr', if_true, hq']
      exact .filling hfills (by rw [hnb, List.length_nil, Nat.zero_add])

theorem Follows.write (h : Follows k s t) : Follows k (s.step .write) (t.step .write) := by
  cases h with
  | idle h => exact .idle h
  | @filling c s r q answers given taken nb done todo h hnb =>
    cases todo with
    | nil => exact .filling h hnb
    | cons x todo =>
      rw [List.length_cons] at hnb
      have hidx : BitVec.ofNat 32 (c + q.entries.length + done.length) + 1 =
          BitVec.ofNat 32 (c + q.entries.length + (done ++ [x]).length) := by
        rw [List.length_append, List.length_singleton, ← Nat.add_assoc, BitVec.ofNat_add _ 1]
        rfl
      simp only [Filler.step, Producing.step, xsk_ring_prod_tx_desc, hidx]
      exact .filling (h.store (by omega) x)
        (by rw [List.length_append, List.length_singleton]; omega)

theorem Follows.submit (h : Follows k s t) : Follows k (s.step .submit) (t.step .submit) := by
  cases h with
  | idle h => exact .idle h
  | @filling c s r q answers given taken nb done todo h hnb =>
    cases todo with
    | cons x todo => exact .filling h hnb
    | nil =>
      rw [List.length_nil, Nat.add_zero] at hnb
      have hroom := h.fits_taken
      rw [hnb] at hroom
      obtain ⟨q', hq'⟩ := Fifo.exists_produce hroom
      have hsubmit := h.submit hnb.symm rfl
      rw [← Fifo.produce_eq_some hq'] at hsubmit
      simp only [Filler.step, Producing.step, hq', Option.getD_some]
      exact .idle hsubmit

theorem Follows.take (h : Follows k s t) : Follows k (s.step .take) (t.step .take) := by
  cases h with
  | @idle c s r q answers given taken h =>
    cases hq : q.entries with
    | nil =>
      simp only [Filler.step, Producing.step, h.take_empty hq, hq]
      exact .idle h
    | cons x rest =>
      obtain ⟨r', hr', htake⟩ := h.take hq
      rw [← Fifo.entries_release_one hq] at htake
      simp only [Filler.step, Producing.step, hr', hq]
      exact .idle htake
  | @filling c s r q answers given taken nb done todo h hnb =>
    cases hq : q.entries with
    | nil =>
      simp only [Filler.step, Producing.step, h.take_empty hq, hq]
      rw [← congrArg List.length hq]
      exact .filling h hnb
    | cons x rest =>
      obtain ⟨r', hr', htake⟩ := h.take hq
      rw [← Fifo.entries_release_one hq] at htake
      simp only [Filler.step, Producing.step, hr', hq]
      have hidx : c + (x :: rest).length = c + 1 + (q.release 1).entries.length := by
        rw [Fifo.entries_release_one hq, List.length_cons]
        omega
      rw [hidx]
      exact .filling htake hnb

/-- Each step of the ring is that step of the queue. -/
theorem Follows.step (h : Follows k s t) (e : Produce α)
    (he : ∀ l, e = .reserve l → l.length < 2 ^ 32) :
    Follows k (s.step e) (t.step e) := by
  cases e with
  | reserve l => exact h.reserve (he l rfl)
  | write => exact h.write
  | submit => exact h.submit
  | take => exact h.take

theorem Follows.same (h : Follows k s t) :
    s.answers = t.answers ∧ s.given = t.given ∧ s.taken = t.taken := by
  cases h with
  | idle h => exact ⟨rfl, rfl, rfl⟩
  | filling h hnb => exact ⟨rfl, rfl, rfl⟩

end

/-! ## A ring that the program reads -/

/-- The ring stands for the queue `q`, of which the program holds the first `n`
entries and knows of `s` more. `c` entries were given back. -/
structure Shows (k c : Nat) (r : xsk_ring α) (q : List α) (n s : Nat) : Prop where
  shaped : Shaped k r
  consumer : r.consumer = BitVec.ofNat 32 c
  producer : r.producer = BitVec.ofNat 32 (c + q.length)
  cached_cons : r.cached_cons = BitVec.ofNat 32 (c + n)
  cached_prod : r.cached_prod = BitVec.ofNat 32 (c + n + s)
  known : n + s ≤ q.length
  fits : q.length ≤ 2 ^ k
  holds : Holds r.ring (2 ^ k) c q

section

variable {k c n s : Nat} {r : xsk_ring α} {q : List α}

theorem Shows.known_toNat (h : Shows k c r q 0 s) : (r.cached_prod - r.cached_cons).toNat = s := by
  have hlt := h.shaped.lt
  have hknown := h.known
  have hfits := h.fits
  rw [h.cached_prod, h.cached_cons, toNat_ofNat_sub (by omega) (by omega)]
  omega

/-- The copy of the producer is read anew when it shows nothing. -/
theorem Shows.refresh (h : Shows k c r q 0 s) :
    Shows k c
      (if r.cached_prod - r.cached_cons = 0 then { r with cached_prod := r.producer } else r) q 0
      (knownOf q s) := by
  have hknown := h.known_toNat
  unfold knownOf
  by_cases hs : s = 0
  · have hzero : r.cached_prod - r.cached_cons = 0 :=
      BitVec.eq_of_toNat_eq (by rw [hknown, hs]; rfl)
    simp only [hzero, hs, if_true]
    exact { h with
      shaped := { h.shaped with }
      cached_prod := h.producer
      known := Nat.le_of_eq (Nat.zero_add _) }
  · have hzero : r.cached_prod - r.cached_cons ≠ 0 := by
      intro h0
      rw [h0] at hknown
      exact hs hknown.symm
    simp only [hzero, hs, if_false]
    exact h

theorem Shows.nb_avail (h : Shows k c r q 0 s) (nb : U32) :
    (xsk_cons_nb_avail r nb).1.toNat = min nb.toNat (knownOf q s) ∧
      Shows k c (xsk_cons_nb_avail r nb).2 q 0 (knownOf q s) := by
  have hshows := h.refresh
  simp only [xsk_cons_nb_avail]
  generalize (if r.cached_prod - r.cached_cons = 0 then { r with cached_prod := r.producer }
    else r) = r'
    at hshows ⊢
  refine ⟨?_, hshows⟩
  have hentries := hshows.known_toNat
  by_cases hlt : nb < r'.cached_prod - r'.cached_cons
  · simp only [hlt, if_true]
    rw [BitVec.lt_def, hentries] at hlt
    omega
  · simp only [hlt, if_false]
    rw [BitVec.lt_def, hentries] at hlt
    omega

/-- The first entries of the queue are given, as many as the program asks for
and knows of. -/
theorem Shows.peek (h : Shows k c r q 0 s) (nb idx : U32) :
    ∃ ret r', xsk_ring_cons_peek r nb idx = (ret, if ret = 0 then idx else BitVec.ofNat 32 c, r') ∧
      ret.toNat = min nb.toNat (knownOf q s) ∧
      Shows k c r' q ret.toNat (knownOf q s - ret.toNat) := by
  obtain ⟨hret, hshows⟩ := h.nb_avail nb
  have hknown := hshows.known
  by_cases hzero : (xsk_cons_nb_avail r nb).1 = 0
  · refine ⟨_, (xsk_cons_nb_avail r nb).2, ?_, hret, ?_⟩
    · simp only [xsk_ring_cons_peek, hzero, BitVec.lt_irrefl, if_false, if_true]
    · rw [hzero]
      exact hshows
  · have hpos : 0 < (xsk_cons_nb_avail r nb).1 :=
      BitVec.lt_def.mpr (Nat.pos_of_ne_zero fun h0 => hzero (BitVec.eq_of_toNat_eq h0))
    refine ⟨_, { (xsk_cons_nb_avail r nb).2 with
      cached_cons :=
        (xsk_cons_nb_avail r nb).2.cached_cons + (xsk_cons_nb_avail r nb).1 }, ?_, hret, ?_⟩
    · simp only [xsk_ring_cons_peek, hpos, hzero, if_true, if_false, hshows.cached_cons,
        Nat.add_zero]
    · exact { hshows with
        shaped := { hshows.shaped with }
        cached_cons := by
          rw [hshows.cached_cons, BitVec.ofNat_add _ (BitVec.toNat _), BitVec.ofNat_toNat,
            BitVec.setWidth_eq, Nat.add_zero]
        cached_prod := by
          rw [hshows.cached_prod]
          congr 1
          omega
        known := by omega }

theorem Shows.read (h : Shows k c r q n s) {i : Nat} {x : α} (hi : q[i]? = some x) :
    r.ring (slot r (BitVec.ofNat 32 (c + i))) = x := by
  rw [h.shaped.slot_eq]
  exact h.holds i x hi

/-- The entries that the program holds leave the queue. -/
theorem Shows.release (h : Shows k c r q n s) {nb : U32} (hnb : nb.toNat = n) :
    Shows k (c + n) (xsk_ring_cons_release r nb) (q.drop n) 0 s := by
  have hknown := h.known
  have hnb' := eq_ofNat hnb
  exact { h with
    shaped := { h.shaped with }
    consumer := by rw [BitVec.ofNat_add, ← h.consumer, ← hnb']; rfl
    producer := by
      rw [List.length_drop]
      refine h.producer.trans ?_
      congr 1
      omega
    cached_cons := h.cached_cons
    cached_prod := h.cached_prod
    known := by
      rw [List.length_drop]
      omega
    fits := by
      rw [List.length_drop]
      exact Nat.le_trans (Nat.sub_le _ _) h.fits
    holds := h.holds.drop n }

theorem Shows.length_toNat (h : Shows k c r q n s) :
    (r.producer - r.consumer).toNat = q.length := by
  have hlt := h.shaped.lt
  have hfits := h.fits
  rw [h.producer, h.consumer, toNat_ofNat_sub (by omega) (by omega), Nat.add_sub_cancel_left]

theorem Shows.full_iff (h : Shows k c r q n s) :
    r.producer - r.consumer = r.size ↔ q.length = 2 ^ k := by
  rw [← BitVec.toNat_inj, h.length_toNat, h.shaped.size, BitVec.toNat_ofNat,
    Nat.mod_eq_of_lt h.shaped.lt]

/-- The kernel puts an entry behind the queue. -/
theorem Shows.post (h : Shows k c r q n s) (hroom : q.length < 2 ^ k) (x : α) :
    ∃ r', kernelPost r x = some r' ∧ Shows k c r' (q ++ [x]) n s := by
  have hnot : ¬ r.producer - r.consumer = r.size := by
    rw [h.full_iff]
    omega
  have hlen : (q ++ [x]).length = q.length + 1 := by rw [List.length_append, List.length_singleton]
  refine ⟨{ r.store (slot r r.producer) x with producer := r.producer + 1 }, ?_, ?_⟩
  · simp only [kernelPost, hnot, if_false]
  · exact { h with
      shaped := { h.shaped with }
      producer := by rw [hlen, ← Nat.add_assoc, BitVec.ofNat_add, ← h.producer]; rfl
      known := by
        rw [hlen]
        exact Nat.le_succ_of_le h.known
      fits := by
        rw [hlen]
        exact hroom
      holds := by
        change Holds (Function.update r.ring (slot r r.producer) x) _ _ _
        rw [h.producer, h.shaped.slot_eq]
        exact h.holds.push hroom }

theorem Shows.post_full (h : Shows k c r q n s) (hfull : q.length = 2 ^ k) (x : α) :
    kernelPost r x = none := by
  have heq := h.full_iff.mpr hfull
  simp only [kernelPost, heq, if_true]

end

/-- The program and the ring, and the consumer and the queue that they stand
for. -/
inductive Tracks (k : Nat) : Reader α → Consuming α (2 ^ k) → Prop
  | idle {c s : Nat} {r : xsk_ring α} {q : Fifo α (2 ^ k)} {batches : List (List α)}
      {posted : List α} (h : Shows k c r q.entries 0 s) :
      Tracks k ⟨r, none, batches, posted⟩ ⟨q, s, none, batches, posted⟩
  | reading {c s : Nat} {r : xsk_ring α} {q : Fifo α (2 ^ k)} {batches : List (List α)}
      {posted : List α} {ret : U32} {got : List α} (h : Shows k c r q.entries ret.toNat s)
        (hgot : got.length ≤ ret.toNat) :
      Tracks k ⟨r, some (BitVec.ofNat 32 (c + got.length), ret, got), batches, posted⟩
        ⟨q, s, some (got, ret.toNat), batches, posted⟩

section

variable {k : Nat} {s : Reader α} {t : Consuming α (2 ^ k)}

theorem Tracks.peek (h : Tracks k s t) {nb : Nat} (hnb : nb < 2 ^ 32) :
    Tracks k (s.step (.peek nb)) (t.step (.peek nb)) := by
  cases h with
  | reading h hgot => exact .reading h hgot
  | @idle c s r q batches posted h =>
    obtain ⟨ret, r', hr', hret, hshows⟩ := h.peek (BitVec.ofNat 32 nb) 0
    rw [BitVec.toNat_ofNat, Nat.mod_eq_of_lt hnb] at hret
    have hpeek : q.peek nb (knownOf q.entries s) = ret.toNat := by
      rw [hret, peek_knownOf (Nat.le_of_add_left_le h.known)]
    simp only [Reader.step, Consuming.step, hr', hpeek]
    by_cases hzero : ret = 0
    · subst hzero
      exact .idle hshows
    · have hne : ret.toNat ≠ 0 := fun h0 => hzero (BitVec.eq_of_toNat_eq h0)
      simp only [hzero, hne, if_false]
      have hgot : ([] : List α).length ≤ ret.toNat := Nat.zero_le _
      exact .reading hshows hgot

theorem Tracks.read (h : Tracks k s t) : Tracks k (s.step .read) (t.step .read) := by
  cases h with
  | idle h => exact .idle h
  | @reading c s r q batches posted ret got h hgot =>
    simp only [Reader.step, Consuming.step]
    split
    · rename_i hlt
      have hin : got.length < q.entries.length := by
        have := h.known
        omega
      obtain ⟨x, hx⟩ : ∃ x, q.entries[got.length]? = some x := ⟨_, List.getElem?_eq_getElem hin⟩
      rw [hx, Option.toList_some, xsk_ring_cons_rx_desc, h.read hx]
      have hidx : BitVec.ofNat 32 (c + got.length) + 1 =
          BitVec.ofNat 32 (c + (got ++ [x]).length) := by
        rw [List.length_append, List.length_singleton, ← Nat.add_assoc, BitVec.ofNat_add _ 1]
        rfl
      rw [hidx]
      exact .reading h (by rw [List.length_append, List.length_singleton]; exact hlt)
    · exact .reading h hgot

theorem Tracks.release (h : Tracks k s t) : Tracks k (s.step .release) (t.step .release) := by
  cases h with
  | idle h => exact .idle h
  | @reading c s r q batches posted ret got h hgot =>
    simp only [Reader.step, Consuming.step]
    split
    · exact .reading h hgot
    · exact .idle (h.release rfl)

theorem Tracks.post (h : Tracks k s t) (x : α) :
    Tracks k (s.step (.post x)) (t.step (.post x)) := by
  cases h with
  | @idle c s r q batches posted h =>
    rcases Nat.lt_or_ge q.entries.length (2 ^ k) with hroom | hfull
    · obtain ⟨r', hr', hpost⟩ := h.post hroom x
      obtain ⟨q', hq'⟩ := Fifo.exists_produce (r := q) (l := [x]) hroom
      rw [← Fifo.produce_eq_some hq'] at hpost
      simp only [Reader.step, Consuming.step, hr', hq']
      exact .idle hpost
    · have hnone := Fifo.produce_eq_none_iff (r := q) (l := [x]).mpr (Nat.lt_succ_of_le hfull)
      simp only [Reader.step, Consuming.step, h.post_full (Nat.le_antisymm q.fits hfull) x, hnone]
      exact .idle h
  | @reading c s r q batches posted ret got h hgot =>
    rcases Nat.lt_or_ge q.entries.length (2 ^ k) with hroom | hfull
    · obtain ⟨r', hr', hpost⟩ := h.post hroom x
      obtain ⟨q', hq'⟩ := Fifo.exists_produce (r := q) (l := [x]) hroom
      rw [← Fifo.produce_eq_some hq'] at hpost
      simp only [Reader.step, Consuming.step, hr', hq']
      exact .reading hpost hgot
    · have hnone := Fifo.produce_eq_none_iff (r := q) (l := [x]).mpr (Nat.lt_succ_of_le hfull)
      simp only [Reader.step, Consuming.step, h.post_full (Nat.le_antisymm q.fits hfull) x, hnone]
      exact .reading h hgot

theorem Tracks.step (h : Tracks k s t) (e : Consume α) (he : ∀ nb, e = .peek nb → nb < 2 ^ 32) :
    Tracks k (s.step e) (t.step e) := by
  cases e with
  | peek nb => exact h.peek (he nb rfl)
  | read => exact h.read
  | release => exact h.release
  | post x => exact h.post x

theorem Tracks.same (h : Tracks k s t) : s.batches = t.batches ∧ s.posted = t.posted := by
  cases h with
  | idle h => exact ⟨rfl, rfl⟩
  | reading h hgot => exact ⟨rfl, rfl⟩

end

/-! ## Whole runs -/

section

variable {k : Nat}

theorem shaped_new (hk : k ≤ 31) {r : xsk_ring α} (hsize : r.size = BitVec.ofNat 32 (2 ^ k))
    (hmask : r.mask = r.size - 1) : Shaped k r := by
  refine ⟨hsize, ?_, hk⟩
  have hpos : 2 ^ k = 2 ^ k - 1 + 1 := (Nat.sub_add_cancel (Nat.two_pow_pos k)).symm
  rw [hmask, hsize]
  nth_rewrite 1 [hpos]
  rw [BitVec.ofNat_add]
  exact BitVec.add_sub_cancel _ _

theorem fills_newProd (hk : k ≤ 31) (n : U32) (slots : Nat → α) :
    Fills k n.toNat n.toNat (newProd (BitVec.ofNat 32 (2 ^ k)) n slots) [] [] 0 where
  shaped := shaped_new hk rfl rfl
  consumer := eq_ofNat rfl
  producer := eq_ofNat rfl
  cached_prod := eq_ofNat rfl
  cached_cons := by
    rw [BitVec.ofNat_add, ← eq_ofNat rfl]
    rfl
  old := Nat.le_refl _
  fits := Nat.le_add_right _ _
  holds := Holds.nil

theorem shows_newCons (hk : k ≤ 31) (n : U32) (slots : Nat → α) :
    Shows k n.toNat (newCons (BitVec.ofNat 32 (2 ^ k)) n slots) [] 0 0 where
  shaped := shaped_new hk rfl rfl
  consumer := eq_ofNat rfl
  producer := eq_ofNat rfl
  cached_cons := eq_ofNat rfl
  cached_prod := eq_ofNat rfl
  known := Nat.le_refl _
  fits := Nat.zero_le _
  holds := Holds.nil

/-- A ring that the program fills is a queue. In whatever order the two sides
take their steps, it has places when the queue has them, and the kernel takes
what it would take of the queue: the entries that got places, in their order and
each of them once. -/
theorem a_filled_ring_is_a_queue (hk : k ≤ 31) (n : U32) (slots : Nat → α) (es : List (Produce α))
    (hes : ∀ e ∈ es, ∀ l, e = .reserve l → l.length < 2 ^ 32) :
    let s := runs.run Filler.step (.start (newProd (BitVec.ofNat 32 (2 ^ k)) n slots)) es
    let t := runs.run Producing.step (.start α (2 ^ k)) es
    s.answers = t.answers ∧ s.taken = t.taken ∧
      ∃ rest, rest.length ≤ 2 ^ k ∧ s.given = s.taken ++ rest := by
  intro s t
  have hsame : Follows k s t :=
    runs.run_related_of (Follows k) hes (fun _ _ e he h => h.step e he)
      (.idle (fills_newProd hk n slots))
  have hkept : t.Kept :=
    runs.run_invariant Producing.Kept es (fun _ e h => Producing.kept_step h e) ⟨rfl, Nat.zero_le _⟩
  obtain ⟨hanswers, hgiven, htaken⟩ := hsame.same
  refine ⟨hanswers, htaken, t.queue.entries ++ t.pending, ?_, ?_⟩
  · rw [List.length_append]
    exact hkept.2
  · rw [hgiven, htaken]
    exact hkept.1

/-- Two entries and one more, over the wrap of the counters. -/
theorem a_filled_ring_is_a_queue_over_the_wrap :
    (runs.run Filler.step (.start (newProd (BitVec.ofNat 32 (2 ^ 1)) 0xffffffff fun _ => 0))
      [.reserve [7, 8], .write, .reserve [5], .write, .submit, .take, .reserve [9, 9], .reserve [9],
        .write, .take, .submit, .take]).taken = [7, 8, 9] :=
  (a_filled_ring_is_a_queue (k := 1) (by decide) 0xffffffff (fun _ => 0)
    [.reserve [7, 8], .write, .reserve [5], .write, .submit, .take, .reserve [9, 9], .reserve [9],
      .write, .take, .submit, .take] (by simp)).2.1.trans rfl

/-- A ring that the program reads is a queue too: what each call gives is what
the queue gives, so the entries come out in the order in which the kernel put
them in, each of them once. -/
theorem a_read_ring_is_a_queue (hk : k ≤ 31) (n : U32) (slots : Nat → α) (es : List (Consume α))
    (hes : ∀ e ∈ es, ∀ nb, e = .peek nb → nb < 2 ^ 32) :
    let s := runs.run Reader.step (.start (newCons (BitVec.ofNat 32 (2 ^ k)) n slots)) es
    let t := runs.run Consuming.step (.start α (2 ^ k)) es
    s.batches = t.batches ∧ s.posted = t.posted ∧
      ∃ rest, rest.length ≤ 2 ^ k ∧ s.posted = s.batches.flatten ++ rest := by
  intro s t
  have hsame : Tracks k s t :=
    runs.run_related_of (Tracks k) hes (fun _ _ e he h => h.step e he)
      (.idle (shows_newCons hk n slots))
  have hkept : t.Kept := by
    refine runs.run_invariant Consuming.Kept es (fun _ e h => Consuming.kept_step h e) ⟨rfl, ?_, ?_⟩
    · rintro got n ⟨⟩
    · rintro got n ⟨⟩
  obtain ⟨hbatches, hposted⟩ := hsame.same
  refine ⟨hbatches, hposted, t.queue.entries, t.queue.fits, ?_⟩
  rw [hposted, hbatches]
  exact hkept.posted

theorem a_read_ring_is_a_queue_over_the_wrap :
    (runs.run Reader.step (.start (newCons (BitVec.ofNat 32 (2 ^ 1)) 0xffffffff fun _ => 0))
      [.post 7, .peek 2, .post 8, .read, .post 9, .release, .peek 2, .post 9, .read, .release,
        .peek 1, .read, .release]).batches = [[7], [8], [9]] :=
  (a_read_ring_is_a_queue (k := 1) (by decide) 0xffffffff (fun _ => 0)
    [.post 7, .peek 2, .post 8, .read, .post 9, .release, .peek 2, .post 9, .read, .release,
      .peek 1, .read, .release] (by simp)).1.trans rfl

end

end edge_cookie.xsk
