-- Linked lists in a memory of cells. A list starts at a head, each cell points
-- to the next one and back to the place that holds the pointer to it, and the
-- list ends in a marker of its own. Insertion at the front and removal of any
-- cell are writes to a few cells, and leave all other lists alone.
import Mathlib.Tactic.Common

namespace chain

/-- A pointer: to a cell, or a marker at the end of a list. -/
inductive Ptr (A E : Type) where
  | cell (a : A)
  | stop (e : E)
  deriving DecidableEq, Repr

/-- A place that holds a pointer: a head, or the pointer to the next cell in a cell. -/
inductive Place (A H : Type) where
  | head (h : H)
  | next (a : A)
  deriving DecidableEq, Repr

/-- The pointers of a memory. A cell that was taken out has no place that points to it. -/
structure Cells (A H E : Type) where
  first : H → Ptr A E
  next : A → Ptr A E
  pprev : A → Option (Place A H)

namespace Cells

variable {A H E : Type}

def read (c : Cells A H E) : Place A H → Ptr A E
  | .head h => c.first h
  | .next a => c.next a

/-- The cells from a pointer on, up to the first one that `p` holds of: that
cell, or the marker at the end. Each cell takes one unit of fuel. -/
def walk (c : Cells A H E) (p : A → Bool) : Nat → Ptr A E → Option (A ⊕ E)
  | 0, _ => none
  | _ + 1, .stop e => some (.inr e)
  | fuel + 1, .cell a => if p a then some (.inl a) else walk c p fuel (c.next a)

variable [DecidableEq A] [DecidableEq H]

def write (c : Cells A H E) (x : Ptr A E) : Place A H → Cells A H E
  | .head h => { c with first := Function.update c.first h x }
  | .next a => { c with next := Function.update c.next a x }

def setPprev (c : Cells A H E) (a : A) (place : Option (Place A H)) : Cells A H E :=
  { c with pprev := Function.update c.pprev a place }

/-- The cell that the pointer points to, when it is no marker, has the place as the one that points
to it. -/
def relink (c : Cells A H E) (place : Place A H) : Ptr A E → Cells A H E
  | .cell a => c.setPprev a (some place)
  | .stop _ => c

/-- The cell goes to the front of the list. -/
def insertFirst (c : Cells A H E) (n : A) (h : H) : Cells A H E :=
  let first := c.first h
  let c := c.write first (.next n)
  let c := c.setPprev n (some (.head h))
  let c := c.write (.cell n) (.head h)
  c.relink (.next n) first

/-- The cell is taken out from behind the place that points to it. -/
def unlink (c : Cells A H E) (n : A) (pprev : Place A H) : Cells A H E :=
  let next := c.next n
  let c := c.write next pprev
  let c := c.relink pprev next
  c.setPprev n none

/-- The cell is taken out of its list. There is no way to do that for a cell that is in none. -/
def remove (c : Cells A H E) (n : A) : Option (Cells A H E) := (c.pprev n).map (c.unlink n)

/-! ## What the writes leave -/

theorem read_write (c : Cells A H E) (x : Ptr A E) (p q : Place A H) :
    (c.write x p).read q = if q = p then x else c.read q := by
  cases p <;> cases q <;> simp [write, read, Function.update_apply]

@[simp] theorem pprev_write (c : Cells A H E) (x : Ptr A E) (p : Place A H) :
    (c.write x p).pprev = c.pprev := by
  cases p <;> rfl

omit [DecidableEq H] in
@[simp] theorem read_setPprev (c : Cells A H E) (a : A) (o : Option (Place A H)) (q : Place A H) :
    (c.setPprev a o).read q = c.read q := by
  cases q <;> rfl

omit [DecidableEq H] in
theorem pprev_setPprev (c : Cells A H E) (a b : A) (o : Option (Place A H)) :
    (c.setPprev a o).pprev b = if b = a then o else c.pprev b := Function.update_apply _ _ _ _

omit [DecidableEq H] in
@[simp] theorem read_relink (c : Cells A H E) (p q : Place A H) (x : Ptr A E) :
    (c.relink p x).read q = c.read q := by
  cases x
  · exact read_setPprev ..
  · rfl

variable [DecidableEq E]

omit [DecidableEq H] in
theorem pprev_relink (c : Cells A H E) (p : Place A H) (x : Ptr A E) (b : A) :
    (c.relink p x).pprev b = if x = .cell b then some p else c.pprev b := by
  cases x with
  | cell a =>
    rw [relink, pprev_setPprev]
    simp only [Ptr.cell.injEq, eq_comm]
  | stop e => rfl

omit [DecidableEq E] in
theorem read_insertFirst (c : Cells A H E) (n : A) (h : H) (q : Place A H) :
    (c.insertFirst n h).read q =
      if q = .head h then .cell n else if q = .next n then c.first h else c.read q := by
  rw [insertFirst, read_relink, read_write, read_setPprev, read_write]

theorem pprev_insertFirst (c : Cells A H E) (n : A) (h : H) (b : A) :
    (c.insertFirst n h).pprev b =
      if c.first h = .cell b then some (.next n) else if b = n then some (.head h)
      else c.pprev b := by
  rw [insertFirst, pprev_relink, pprev_write, pprev_setPprev, pprev_write]

omit [DecidableEq E] in
theorem read_unlink (c : Cells A H E) (n : A) (p q : Place A H) :
    (c.unlink n p).read q = if q = p then c.next n else c.read q := by
  rw [unlink, read_setPprev, read_relink, read_write]

theorem pprev_unlink (c : Cells A H E) (n : A) (p : Place A H) (b : A) :
    (c.unlink n p).pprev b =
      if b = n then none else if c.next n = .cell b then some p else c.pprev b := by
  rw [unlink, pprev_setPprev, pprev_relink, pprev_write]

end Cells

/-! ## Lists -/

variable {A H E : Type} {c d : Cells A H E} {place : Place A H} {l : List A} {e : E} {n : A}

/-- From the place on there are these cells, and then the marker. -/
def Chain (c : Cells A H E) : Place A H → List A → E → Prop
  | place, [], e => c.read place = .stop e
  | place, a :: l, e => c.read place = .cell a ∧ c.pprev a = some place ∧ Chain c (.next a) l e

/-- A walk over a list ends, at the first cell that `p` holds of or at the marker. -/
theorem walk_eq {p : A → Bool} {fuel : Nat} (h : Chain c place l e) (hfuel : l.length < fuel) :
    c.walk p fuel (c.read place) = some ((l.find? p).elim (.inr e) .inl) := by
  induction l generalizing place fuel with
  | nil =>
    obtain ⟨fuel, rfl⟩ := Nat.exists_eq_succ_of_ne_zero (Nat.ne_zero_of_lt hfuel)
    rw [show c.read place = .stop e from h]
    rfl
  | cons a l ih =>
    obtain ⟨fuel, rfl⟩ := Nat.exists_eq_succ_of_ne_zero (Nat.ne_zero_of_lt hfuel)
    obtain ⟨hread, -, hrest⟩ := h
    rw [hread, Cells.walk, List.find?_cons]
    rcases p a with _ | _
    · exact ih hrest (Nat.lt_of_succ_lt_succ hfuel)
    · rfl

/-- A list is as its first place and its cells are. -/
theorem Chain.congr (h : Chain c place l e) (hplace : d.read place = c.read place)
    (hnext : ∀ a ∈ l, d.read (.next a) = c.read (.next a))
    (hpprev : ∀ a ∈ l, d.pprev a = c.pprev a) :
    Chain d place l e := by
  induction l generalizing place with
  | nil => exact hplace.trans h
  | cons a l ih =>
    obtain ⟨hread, hback, hrest⟩ := h
    refine ⟨hplace.trans hread, (hpprev a List.mem_cons_self).trans hback, ?_⟩
    exact ih hrest (hnext a List.mem_cons_self) (fun b hb => hnext b (List.mem_cons_of_mem a hb))
      fun b hb => hpprev b (List.mem_cons_of_mem a hb)

theorem Chain.mem_of_read {b : A} (h : Chain c place l e) (hb : c.read place = .cell b) :
    b ∈ l := by
  cases l with
  | nil =>
    rw [show c.read place = .stop e from h] at hb
    cases hb
  | cons a l =>
    have hab := h.1.symm.trans hb
    rw [Ptr.cell.inj hab]
    exact List.mem_cons_self

/-- The cell behind a cell of a list is in the list. -/
theorem Chain.mem_of_next {b : A} (h : Chain c place l e) (hn : n ∈ l) (hb : c.next n = .cell b) :
    b ∈ l := by
  induction l generalizing place with
  | nil => cases hn
  | cons a l ih =>
    rcases List.mem_cons.mp hn with rfl | hn
    · exact List.mem_cons_of_mem n (h.2.2.mem_of_read hb)
    · exact List.mem_cons_of_mem a (ih h.2.2 hn)

variable [DecidableEq A] [DecidableEq H] {h k : H} {m : List A} {f : E}

/-- A list with a new cell in front. -/
theorem Chain.insertFirst (hl : Chain c (.head h) l e) (hn : n ∉ l) (hnodup : l.Nodup) :
    Chain (c.insertFirst n h) (.head h) (n :: l) e := by
  classical
  have hnew : c.first h ≠ .cell n := fun hb => hn (hl.mem_of_read hb)
  refine ⟨?_, ?_, ?_⟩
  · rw [Cells.read_insertFirst, if_pos rfl]
  · rw [Cells.pprev_insertFirst, if_neg hnew, if_pos rfl]
  · have hfirst : (c.insertFirst n h).read (.next n) = c.first h := by
      rw [Cells.read_insertFirst, if_neg (by simp), if_pos rfl]
    cases l with
    | nil => exact hfirst.trans hl
    | cons a l =>
      obtain ⟨hread, -, hrest⟩ := hl
      have hread : c.first h = .cell a := hread
      have hapart : ∀ b ∈ a :: l, Place.next b ≠ Place.next (H := H) n := by
        intro b hb hbn
        exact hn (Place.next.inj hbn ▸ hb)
      refine ⟨hfirst.trans hread, ?_, hrest.congr ?_ ?_ ?_⟩
      · rw [Cells.pprev_insertFirst, if_pos hread]
      · rw [Cells.read_insertFirst, if_neg (by simp), if_neg (hapart a List.mem_cons_self)]
      · intro b hb
        rw [Cells.read_insertFirst, if_neg (by simp), if_neg (hapart b (List.mem_cons_of_mem a hb))]
      · intro b hb
        have hba : c.first h ≠ .cell b := by
          rw [hread]
          rintro ⟨⟩
          exact (List.nodup_cons.mp hnodup).1 hb
        have hbn : b ≠ n := fun hbn => hapart b (List.mem_cons_of_mem a hb) (congrArg _ hbn)
        rw [Cells.pprev_insertFirst, if_neg hba, if_neg hbn]

/-- A new cell in front of a list leaves the others as they are. -/
theorem Chain.insertFirst_other (hm : Chain c (.head k) m f) (hl : Chain c (.head h) l e)
    (hkh : k ≠ h) (hn : n ∉ m) (hlm : l.Disjoint m) : Chain (c.insertFirst n h) (.head k) m f := by
  classical
  refine hm.congr ?_ ?_ ?_
  · rw [Cells.read_insertFirst, if_neg (by simpa using hkh), if_neg (by simp)]
  · intro b hb
    have hbn : Place.next (H := H) b ≠ .next n := by
      rintro ⟨⟩
      exact hn hb
    rw [Cells.read_insertFirst, if_neg (by simp), if_neg hbn]
  · intro b hb
    have hfirst : c.first h ≠ .cell b := fun hread => hlm (hl.mem_of_read hread) hb
    have hbn : b ≠ n := by
      rintro rfl
      exact hn hb
    rw [Cells.pprev_insertFirst, if_neg hfirst, if_neg hbn]

/-- The first cell is taken out: the place points to the second one then, or to the marker. -/
theorem Chain.unlink_first {a : A} (hl : Chain c place (a :: l) e) (hnodup : (a :: l).Nodup)
    (hplace : ∀ x ∈ l, place ≠ .next x) : Chain (c.unlink a place) place l e := by
  classical
  obtain ⟨-, -, hrest⟩ := hl
  obtain ⟨hal, hnodup⟩ := List.nodup_cons.mp hnodup
  have hskip : (c.unlink a place).read place = c.next a := by
    rw [Cells.read_unlink, if_pos rfl]
  cases l with
  | nil => exact hskip.trans hrest
  | cons b l =>
    obtain ⟨hnext, -, hrest⟩ := hrest
    have hnext : c.next a = .cell b := hnext
    have hkeep : ∀ x ∈ b :: l, (c.unlink a place).read (.next x) = c.read (.next x) := by
      intro x hx
      rw [Cells.read_unlink, if_neg (hplace x hx).symm]
    have hne : ∀ x ∈ b :: l, x ≠ a := by
      rintro x hx rfl
      exact hal hx
    refine ⟨hskip.trans hnext, ?_, hrest.congr (hkeep b List.mem_cons_self) ?_ ?_⟩
    · rw [Cells.pprev_unlink, if_neg (hne b List.mem_cons_self), if_pos hnext]
    · intro x hx
      exact hkeep x (List.mem_cons_of_mem b hx)
    · intro x hx
      have hbx : c.next a ≠ .cell x := by
        rw [hnext]
        rintro ⟨⟩
        exact (List.nodup_cons.mp hnodup).1 hx
      rw [Cells.pprev_unlink, if_neg (hne x (List.mem_cons_of_mem b hx)), if_neg hbx]

/-- The place that points to a cell of a list is of this list, and behind it the
list goes on without the cell. -/
theorem Chain.unlink (hl : Chain c place l e) (hnodup : l.Nodup) (hplace : ∀ a ∈ l, place ≠ .next a)
    (hn : n ∈ l) : ∃ p, c.pprev n = some p ∧ (p = place ∨ ∃ a ∈ l, p = .next a) ∧
      Chain (c.unlink n p) place (l.erase n) e := by
  classical
  induction l generalizing place with
  | nil => cases hn
  | cons a l ih =>
    by_cases han : a = n
    · subst han
      refine ⟨place, hl.2.1, .inl rfl, ?_⟩
      rw [List.erase_cons_head]
      exact hl.unlink_first hnodup fun x hx => hplace x (List.mem_cons_of_mem a hx)
    · -- a later cell: nothing changes up to here
      obtain ⟨hread, hback, hrest⟩ := hl
      obtain ⟨hal, hnodup⟩ := List.nodup_cons.mp hnodup
      have hnl : n ∈ l := (List.mem_cons.mp hn).resolve_left (Ne.symm han)
      have hnexts : ∀ x ∈ l, Place.next (H := H) a ≠ .next x := by
        rintro x hx ⟨⟩
        exact hal hx
      obtain ⟨p, hp, hwhere, hchain⟩ := ih hrest hnodup hnexts hnl
      have hplacep : place ≠ p := by
        rcases hwhere with rfl | ⟨b, hb, rfl⟩
        · exact hplace a List.mem_cons_self
        · exact hplace b (List.mem_cons_of_mem a hb)
      have hnexta : c.next n ≠ .cell a := fun hb => hal (hrest.mem_of_next hnl hb)
      refine ⟨p, hp, .inr ?_, ?_⟩
      · rcases hwhere with rfl | ⟨b, hb, rfl⟩
        · exact ⟨a, List.mem_cons_self, rfl⟩
        · exact ⟨b, List.mem_cons_of_mem a hb, rfl⟩
      · rw [List.erase_cons_tail (by simpa using han)]
        refine ⟨?_, ?_, hchain⟩
        · rw [Cells.read_unlink, if_neg hplacep]
          exact hread
        · rw [Cells.pprev_unlink, if_neg han, if_neg hnexta]
          exact hback

/-- A cell of a list can be taken out. The list has its other cells then, and
the other lists are as they are. -/
theorem Chain.remove (hl : Chain c (.head h) l e) (hnodup : l.Nodup) (hn : n ∈ l) :
    ∃ d, c.remove n = some d ∧ Chain d (.head h) (l.erase n) e ∧
      ∀ k m f, Chain c (.head k) m f → k ≠ h → l.Disjoint m → Chain d (.head k) m f := by
  classical
  obtain ⟨p, hp, hwhere, hchain⟩ := hl.unlink hnodup (fun _ _ => by simp) hn
  refine ⟨c.unlink n p, by simp [Cells.remove, hp], hchain, ?_⟩
  intro k m f hm hkh hlm
  refine hm.congr ?_ ?_ ?_
  · have hkp : Place.head k ≠ p := by
      rcases hwhere with rfl | ⟨a, -, rfl⟩
      · simpa using hkh
      · simp
    rw [Cells.read_unlink, if_neg hkp]
  · intro b hb
    have hbp : Place.next b ≠ p := by
      rcases hwhere with rfl | ⟨a, ha, rfl⟩
      · simp
      · rintro ⟨⟩
        exact hlm ha hb
    rw [Cells.read_unlink, if_neg hbp]
  · intro b hb
    have hbn : b ≠ n := by
      rintro rfl
      exact hlm hn hb
    have hnext : c.next n ≠ .cell b := fun hread => hlm (hl.mem_of_next hn hread) hb
    rw [Cells.pprev_unlink, if_neg hbn, if_neg hnext]

/-! ## Lists that share no cell -/

/-- The lists of the heads that are in use. -/
structure Lists (c : Cells A H E) (used : H → Prop) (stop : H → E) (chains : H → List A) :
    Prop where
  linked : ∀ h, used h → Chain c (.head h) (chains h) (stop h)
  nodup : ∀ h, (chains h).Nodup
  apart : ∀ h k, h ≠ k → (chains h).Disjoint (chains k)

section

variable {used : H → Prop} {stop : H → E} {chains : H → List A}

omit [DecidableEq A] in
theorem mem_update_chains {a : A} :
    a ∈ Function.update chains h l k ↔ (k = h ∧ a ∈ l) ∨ (k ≠ h ∧ a ∈ chains k) := by
  by_cases hkh : k = h
  · subst hkh
    simp
  · simp [hkh]

omit [DecidableEq A] in
/-- A new cell at the front of a list is beside the cells that there were. -/
theorem mem_cons_chains {a : A} (hnew : ∀ k, a ∉ chains k) (k : H) (x : A) :
    x ∈ Function.update chains h (a :: chains h) k ↔ (k = h ∧ x = a) ∨ (x ∈ chains k ∧ x ≠ a) := by
  rw [mem_update_chains, List.mem_cons]
  constructor
  · rintro (⟨rfl, rfl | hx⟩ | ⟨-, hx⟩)
    · exact .inl ⟨rfl, rfl⟩
    · exact .inr ⟨hx, fun heq => hnew _ (heq ▸ hx)⟩
    · exact .inr ⟨hx, fun heq => hnew _ (heq ▸ hx)⟩
  · rintro (⟨hk, hx⟩ | ⟨hx, -⟩)
    · exact .inl ⟨hk, .inl hx⟩
    · by_cases hk : k = h
      · exact .inl ⟨hk, .inr (hk ▸ hx)⟩
      · exact .inr ⟨hk, hx⟩

omit [DecidableEq A] in
/-- The lists when one of them gets other cells: its own, or ones of no list. -/
theorem Lists.update (hl : Lists c used stop chains) (hnodup : l.Nodup)
    (hcells : ∀ a ∈ l, a ∈ chains h ∨ ∀ k, a ∉ chains k)
    (hown : used h → Chain d (.head h) l (stop h))
    (hothers : ∀ k, used k → k ≠ h → Chain d (.head k) (chains k) (stop k)) :
    Lists d used stop (Function.update chains h l) := by
  have hout : ∀ k, k ≠ h → l.Disjoint (chains k) := by
    intro k hk a ha hak
    rcases hcells a ha with hah | hnone
    · exact hl.apart h k hk.symm hah hak
    · exact hnone k hak
  refine ⟨?_, ?_, ?_⟩
  · intro k hk
    by_cases hkh : k = h
    · subst hkh
      rw [Function.update_self]
      exact hown hk
    · rw [Function.update_of_ne hkh]
      exact hothers k hk hkh
  · intro k
    by_cases hkh : k = h
    · subst hkh
      rwa [Function.update_self]
    · rw [Function.update_of_ne hkh]
      exact hl.nodup k
  · intro j k hjk a haj hak
    rcases mem_update_chains.mp haj with ⟨hj, hal⟩ | ⟨hj, hold⟩
    · rcases mem_update_chains.mp hak with ⟨hk, -⟩ | ⟨hk, hold⟩
      · exact hjk (hj.trans hk.symm)
      · exact hout k hk hal hold
    · rcases mem_update_chains.mp hak with ⟨-, hal⟩ | ⟨-, hak⟩
      · exact hout j hj hal hold
      · exact hl.apart j k hjk hold hak

theorem Lists.insertFirst (hl : Lists c used stop chains) (hh : used h) (hn : ∀ k, n ∉ chains k) :
    Lists (c.insertFirst n h) used stop (Function.update chains h (n :: chains h)) := by
  refine hl.update ?_ ?_ ?_ ?_
  · exact List.nodup_cons.mpr ⟨hn h, hl.nodup h⟩
  · intro a ha
    rcases List.mem_cons.mp ha with rfl | ha
    · exact .inr hn
    · exact .inl ha
  · intro _
    exact (hl.linked h hh).insertFirst (hn h) (hl.nodup h)
  · intro k hk hkh
    exact (hl.linked k hk).insertFirst_other (hl.linked h hh) hkh (hn k) (hl.apart h k hkh.symm)

theorem Lists.remove (hl : Lists c used stop chains) (hh : used h) (hn : n ∈ chains h) :
    ∃ d, c.remove n = some d ∧
      Lists d used stop (Function.update chains h ((chains h).erase n)) := by
  obtain ⟨d, hd, hown, hothers⟩ := (hl.linked h hh).remove (hl.nodup h) hn
  refine ⟨d, hd, hl.update ?_ ?_ ?_ ?_⟩
  · exact (hl.nodup h).erase n
  · intro a ha
    exact .inl (List.mem_of_mem_erase ha)
  · intro _
    exact hown
  · intro k hk hkh
    exact hothers k _ _ (hl.linked k hk) hkh (hl.apart h k hkh.symm)

end

/-! ## What a reader meets

A reader follows the pointers from the one that it has, while the lists are
written. -/

/-- The cells from the pointer on, up to a marker. -/
def Spine (c : Cells A H E) : Ptr A E → List A → Prop
  | .stop _, [] => True
  | .cell a, b :: l => a = b ∧ Spine c (c.next a) l
  | _, _ => False

section

variable {x : Ptr A E}

omit [DecidableEq A] [DecidableEq H] in
/-- The place that a cell of a list points back to points to the cell. -/
theorem Chain.read_pprev (h : Chain c place l e) (hn : n ∈ l) :
    ∃ p, c.pprev n = some p ∧ c.read p = .cell n := by
  induction l generalizing place with
  | nil => exact absurd hn List.not_mem_nil
  | cons a l ih =>
    obtain ⟨hread, hback, hrest⟩ := h
    rcases List.mem_cons.mp hn with rfl | hn
    · exact ⟨place, hback, hread⟩
    · exact ih hrest hn

omit [DecidableEq A] [DecidableEq H] in
theorem Chain.spine (h : Chain c place l e) : Spine c (c.read place) l := by
  induction l generalizing place with
  | nil =>
    rw [show c.read place = .stop e from h]
    trivial
  | cons a l ih =>
    rw [h.1]
    exact ⟨rfl, ih h.2.2⟩

omit [DecidableEq A] [DecidableEq H] in
theorem Spine.congr (h : Spine c x l) (hnext : ∀ a ∈ l, d.next a = c.next a) : Spine d x l := by
  induction l generalizing x with
  | nil =>
    cases x with
    | stop e => trivial
    | cell a => exact h
  | cons b l ih =>
    cases x with
    | stop e => exact h
    | cell a =>
      obtain ⟨rfl, hrest⟩ := h
      refine ⟨rfl, ?_⟩
      rw [hnext a List.mem_cons_self]
      exact ih hrest fun b hb => hnext b (List.mem_cons_of_mem a hb)

omit [DecidableEq A] [DecidableEq H] in
theorem Spine.unique (h : Spine c x l) (h' : Spine c x m) : l = m := by
  induction l generalizing x m with
  | nil =>
    cases x with
    | cell a => exact absurd h id
    | stop e =>
      cases m with
      | nil => rfl
      | cons b m => exact absurd h' id
  | cons b l ih =>
    cases x with
    | stop e => exact absurd h id
    | cell a =>
      cases m with
      | nil => exact absurd h' id
      | cons b' m =>
        obtain ⟨rfl, hrest⟩ := h
        obtain ⟨rfl, hrest'⟩ := h'
        rw [ih hrest hrest']

/-- A write to a place where the reader does not come. -/
theorem Spine.write (h : Spine c x l) (y : Ptr A E) (hplace : ∀ a ∈ l, place ≠ .next a) :
    Spine (c.write y place) x l := by
  refine h.congr fun a ha => ?_
  change (c.write y place).read (.next a) = c.read (.next a)
  rw [Cells.read_write, if_neg fun heq => hplace a ha heq.symm]

omit [DecidableEq A] [DecidableEq H] in
/-- No cell points to itself on the way to a marker. -/
theorem Spine.next_ne {a : A} (h : Spine c (.cell a) l) : c.next a ≠ .cell a := by
  intro hself
  cases l with
  | nil => exact h
  | cons b l =>
    obtain ⟨rfl, hrest⟩ := h
    rw [hself] at hrest
    have hlen :=
      congrArg List.length
        (Spine.unique hrest (show Spine c (.cell a) (a :: l) from ⟨rfl, hself ▸ hrest⟩))
    simp at hlen

/-- A cell is taken out of a list. The reader meets the others still, and no more
cells than before. -/
theorem Spine.skip (h : Spine c x l) (hskip : c.read place = .cell n) :
    ∃ l', Spine (c.write (c.next n) place) x l' ∧ l'.Sublist l ∧ ∀ a ∈ l, a ≠ n → a ∈ l' := by
  induction l generalizing x with
  | nil =>
    cases x with
    | cell a => exact absurd h id
    | stop e => exact ⟨[], trivial, .refl [], fun a ha => absurd ha List.not_mem_nil⟩
  | cons b l ih =>
    cases x with
    | stop e => exact absurd h id
    | cell a =>
      have hself := h.next_ne
      obtain ⟨rfl, hrest⟩ := h
      obtain ⟨l', hl', hsub, hmem⟩ := ih hrest
      by_cases hplace : place = .next a
      · -- the reader comes past the cell that is taken out, right behind `a`
        subst hplace
        have hn : c.next a = .cell n := hskip
        rw [hn] at hl'
        cases l' with
        | nil => exact absurd hl' id
        | cons b l' =>
          obtain ⟨rfl, hl'⟩ := hl'
          have hna : n ≠ a := by
            rintro rfl
            exact hself hn
          have hkeep : (c.write (c.next n) (.next a)).next n = c.next n := by
            change (c.write (c.next n) (.next a)).read (.next n) = c.read (.next n)
            rw [Cells.read_write, if_neg fun heq => hna (Place.next.inj heq)]
          have hnew : (c.write (c.next n) (.next a)).next a = c.next n := by
            change (c.write (c.next n) (.next a)).read (.next a) = c.next n
            rw [Cells.read_write, if_pos rfl]
          rw [hkeep] at hl'
          refine ⟨a :: l', ⟨rfl, hnew.symm ▸ hl'⟩,
            ((List.sublist_cons_self n l').trans hsub).cons_cons a, ?_⟩
          intro y hy hyn
          rcases List.mem_cons.mp hy with rfl | hy
          · exact List.mem_cons_self
          · exact List.mem_cons_of_mem a ((List.mem_cons.mp (hmem y hy hyn)).resolve_left hyn)
      · have hkeep : (c.write (c.next n) place).next a = c.next a := by
          change (c.write (c.next n) place).read (.next a) = c.read (.next a)
          rw [Cells.read_write, if_neg fun heq => hplace heq.symm]
        refine ⟨a :: l', ⟨rfl, hkeep.symm ▸ hl'⟩, hsub.cons_cons a, ?_⟩
        intro y hy hyn
        rcases List.mem_cons.mp hy with rfl | hy
        · exact List.mem_cons_self
        · exact List.mem_cons_of_mem a (hmem y hy hyn)

end

end chain
