-- A batch spread over rows. Each entry goes to the end of the row with its
-- key, and each row counts its entries in one byte. A batch of up to 255
-- entries is spread without loss.
import Mathlib.Logic.Function.Basic
import Mathlib.Algebra.BigOperators.Group.Multiset.Basic
import Mathlib.Algebra.BigOperators.Fin
import Mathlib.Algebra.Order.BigOperators.Group.Finset

namespace batch

variable {κ α : Type}

/-- The row with an entry at its end. The count is one byte: behind entry 255
it is 0 again, and the row reads as empty. -/
def push (row : List α) (x : α) : List α := if row.length = 255 then [] else row ++ [x]

def pushRow [DecidableEq κ] (rows : κ → List α) (x : κ × α) : κ → List α :=
  Function.update rows x.1 (push (rows x.1) x.2)

def spread [DecidableEq κ] (l : List (κ × α)) : κ → List α := l.foldl pushRow fun _ => []

/-- The entries of the batch with the key. -/
def rowOf [DecidableEq κ] (l : List (κ × α)) (k : κ) : List α :=
  (l.filter (·.1 = k)).map Prod.snd

variable [DecidableEq κ] {l : List (κ × α)} {x : κ × α} {k : κ}

theorem length_rowOf (l : List (κ × α)) (k : κ) : (rowOf l k).length = l.countP (·.1 = k) := by
  unfold rowOf
  rw [List.length_map, List.countP_eq_length_filter]

theorem length_rowOf_le : (rowOf l k).length ≤ l.length := by
  rw [length_rowOf]
  exact List.countP_le_length

theorem rowOf_append_singleton :
    rowOf (l ++ [x]) k = if x.1 = k then rowOf l k ++ [x.2] else rowOf l k := by
  unfold rowOf
  by_cases h : x.1 = k
  · simp [List.filter_append, h]
  · simp [List.filter_append, h]

theorem spread_append_singleton (l : List (κ × α)) (x : κ × α) :
    spread (l ++ [x]) = pushRow (spread l) x := by
  unfold spread
  rw [List.foldl_append]
  rfl

/-- What an entry does to each row. -/
theorem spread_push (l : List (κ × α)) (x : κ × α) (k : κ) :
    spread (l ++ [x]) k = if x.1 = k then push (spread l k) x.2 else spread l k := by
  rw [spread_append_singleton]
  unfold pushRow
  rw [Function.update_apply]
  by_cases hk : x.1 = k
  · rw [if_pos hk, if_pos hk.symm, hk]
  · rw [if_neg hk, if_neg fun h => hk h.symm]

/-- The count of a row is the number of its entries modulo 256. -/
theorem length_spread (l : List (κ × α)) (k : κ) :
    (spread l k).length = (rowOf l k).length % 256 := by
  induction l using List.reverseRecOn with
  | nil => rfl
  | append_singleton l x ih =>
    rw [spread_push, rowOf_append_singleton]
    by_cases hk : x.1 = k
    · rw [if_pos hk, if_pos hk, List.length_append, List.length_singleton]
      unfold push
      by_cases hfull : (spread l k).length = 255
      · rw [if_pos hfull, List.length_nil]
        omega
      · rw [if_neg hfull, List.length_append, List.length_singleton]
        omega
    · rw [if_neg hk, if_neg hk, ih]

/-- A row that its count can hold has all its entries. -/
theorem spread_apply_eq_rowOf (h : (rowOf l k).length ≤ 255) : spread l k = rowOf l k := by
  induction l using List.reverseRecOn with
  | nil => rfl
  | append_singleton l x ih =>
    rw [rowOf_append_singleton] at h ⊢
    rw [spread_push]
    by_cases hk : x.1 = k
    · rw [if_pos hk, List.length_append, List.length_singleton] at h
      rw [if_pos hk, if_pos hk, ih (by omega), push, if_neg (by omega)]
    · rw [if_neg hk] at h
      rw [if_neg hk, if_neg hk, ih h]

/-- A batch that the counts can hold is spread without loss. -/
theorem spread_eq_rowOf (h : l.length ≤ 255) : spread l = rowOf l := by
  funext k
  exact spread_apply_eq_rowOf (Nat.le_trans length_rowOf_le h)

/-- Keys that stay apart can be renamed. -/
theorem spread_map_key {κ' : Type} [DecidableEq κ'] {g : κ → κ'} (hg : Function.Injective g)
    (l : List (κ × α)) (k : κ) : spread (l.map fun x => (g x.1, x.2)) (g k) = spread l k := by
  induction l using List.reverseRecOn with
  | nil => rfl
  | append_singleton l x ih =>
    rw [List.map_append, List.map_singleton, spread_push, spread_push, ih]
    by_cases hk : x.1 = k
    · rw [if_pos hk, if_pos (congrArg g hk)]
    · rw [if_neg hk, if_neg fun h => hk (hg h)]

theorem mem_rowOf {y : α} : y ∈ rowOf l k ↔ (k, y) ∈ l := by
  unfold rowOf
  simp only [List.mem_map, List.mem_filter, decide_eq_true_eq]
  constructor
  · rintro ⟨⟨k', y'⟩, ⟨hmem, rfl⟩, rfl⟩
    exact hmem
  · intro hmem
    exact ⟨(k, y), ⟨hmem, rfl⟩, rfl⟩

/-- When all entries have one key, they are all in its row. -/
theorem rowOf_of_forall (h : ∀ x ∈ l, x.1 = k) : rowOf l k = l.map Prod.snd := by
  unfold rowOf
  rw [List.filter_eq_self.mpr]
  intro x hx
  exact decide_eq_true (h x hx)

theorem rowOf_eq_nil (h : ∀ x ∈ l, x.1 ≠ k) : rowOf l k = [] := by
  unfold rowOf
  rw [List.map_eq_nil_iff, List.filter_eq_nil_iff]
  intro x hx hk
  exact h x hx (of_decide_eq_true hk)

/-- The rows hold each entry of the batch once. -/
theorem sum_rowOf [Fintype κ] {β : Type} (f : α → β) (l : List (κ × α)) :
    ∑ k, ((rowOf l k).map f : Multiset β) = (l.map fun x => f x.2 : Multiset β) := by
  induction l using List.reverseRecOn with
  | nil =>
    apply Finset.sum_eq_zero
    intro k _
    rfl
  | append_singleton l x ih =>
    have hrow : ∀ k, ((rowOf (l ++ [x]) k).map f : Multiset β) =
        ((rowOf l k).map f : Multiset β) + if x.1 = k then {f x.2} else 0 := by
      intro k
      rw [rowOf_append_singleton]
      by_cases hk : x.1 = k
      · rw [if_pos hk, if_pos hk, List.map_append]
        rfl
      · rw [if_neg hk, if_neg hk, add_zero]
    rw [Finset.sum_congr rfl fun k _ => hrow k, Finset.sum_add_distrib, ih,
      Finset.sum_ite_eq, if_pos (Finset.mem_univ _), List.map_append]
    rfl

theorem sum_length_rowOf [Fintype κ] (l : List (κ × α)) : ∑ k, (rowOf l k).length = l.length := by
  have hcard := congrArg Multiset.card (sum_rowOf id l)
  rw [Multiset.card_sum] at hcard
  simpa using hcard

theorem sum_length_spread_le [Fintype κ] (l : List (κ × α)) :
    ∑ k, (spread l k).length ≤ l.length := by
  rw [← sum_length_rowOf l]
  refine Finset.sum_le_sum fun k _ => ?_
  rw [length_spread]
  exact Nat.mod_le _ _

/-- The rows hold each entry of the batch once just when no count runs over. -/
theorem sum_spread_iff [Fintype κ] {β : Type} (f : α → β) (l : List (κ × α)) :
    (∑ k, (spread l k).length = l.length ∧
      ∑ k, ((spread l k).map f : Multiset β) = (l.map fun x => f x.2 : Multiset β)) ↔
    ∀ k, (rowOf l k).length ≤ 255 := by
  constructor
  · rintro ⟨hcount, -⟩ k
    by_contra hmany
    have hlt : ∑ k, (spread l k).length < ∑ k, (rowOf l k).length := by
      refine Finset.sum_lt_sum (fun i _ => ?_) ⟨k, Finset.mem_univ k, ?_⟩
      · rw [length_spread]
        exact Nat.mod_le _ _
      · rw [length_spread]
        omega
    rw [hcount, sum_length_rowOf] at hlt
    exact Nat.lt_irrefl _ hlt
  · intro h
    have hrows : ∀ k, spread l k = rowOf l k := fun k => spread_apply_eq_rowOf (h k)
    simp only [hrows]
    exact ⟨sum_length_rowOf l, sum_rowOf f l⟩

/-- The same, when the row of no key must stay empty. -/
theorem sum_spread_some_iff [Fintype κ] {β : Type} (f : α → β) (l : List (Option κ × α)) :
    ∑ k, ((spread l (some k)).map f : Multiset β) = (l.map fun x => f x.2 : Multiset β) ↔
      rowOf l none = [] ∧ ∀ k, (rowOf l (some k)).length ≤ 255 := by
  constructor
  · intro h
    have hcard := congrArg Multiset.card h
    have hle := sum_length_spread_le l
    rw [Multiset.card_sum] at hcard
    simp only [Multiset.coe_card, List.length_map] at hcard
    rw [Fintype.sum_option, hcard] at hle
    have hempty : spread l none = [] := List.length_eq_zero_iff.mp (by omega)
    have hall := (sum_spread_iff f l).mp
      ⟨by rw [Fintype.sum_option, hcard, hempty, List.length_nil, Nat.zero_add],
        by rw [Fintype.sum_option, h, hempty]; exact zero_add _⟩
    refine ⟨?_, fun k => hall (some k)⟩
    rw [← spread_apply_eq_rowOf (hall none), hempty]
  · rintro ⟨hempty, hall⟩
    have hsum := sum_rowOf f l
    rw [Fintype.sum_option, hempty] at hsum
    simp only [fun k => spread_apply_eq_rowOf (hall k)]
    exact (zero_add _).symm.trans hsum

theorem rowOf_sublist (l : List (κ × α)) (k : κ) : (rowOf l k).Sublist (l.map Prod.snd) :=
  List.filter_sublist.map Prod.snd

/-! ## A step for each row -/

variable {ι σ : Type} [DecidableEq ι]

/-- Each place of the list takes its step, the first one first. The whole
fails when one step fails. -/
def forEach (f : ι → σ → Option σ) (l : List ι) (x : ι → σ) : Option (ι → σ) :=
  l.foldlM (fun x i => (f i (x i)).map (Function.update x i)) x

variable {f : ι → σ → Option σ} {places : List ι} {x₀ x₁ : ι → σ}

theorem forEach_cons (i : ι) (l : List ι) (x : ι → σ) :
    forEach f (i :: l) x = (f i (x i)).bind fun y => forEach f l (Function.update x i y) := by
  unfold forEach
  rw [List.foldlM_cons]
  cases f i (x i) with
  | none => rfl
  | some y => rfl

/-- A place of the list has its step, and every other place is as before. -/
theorem forEach_eq_some (hnd : places.Nodup) (h : forEach f places x₀ = some x₁) :
    (∀ i ∈ places, f i (x₀ i) = some (x₁ i)) ∧ ∀ i, i ∉ places → x₁ i = x₀ i := by
  induction places generalizing x₀ with
  | nil =>
    have hx : x₀ = x₁ := Option.some.inj h
    exact ⟨fun i hi => absurd hi List.not_mem_nil, fun i _ => by rw [hx]⟩
  | cons i l ih =>
    rw [List.nodup_cons] at hnd
    rw [forEach_cons] at h
    obtain ⟨y, hy, hrest⟩ := Option.bind_eq_some_iff.mp h
    obtain ⟨hin, hout⟩ := ih hnd.2 hrest
    constructor
    · intro j hj
      rcases List.mem_cons.mp hj with rfl | hj
      · rw [hout j hnd.1, Function.update_self, hy]
      · have hne : j ≠ i := fun hji => hnd.1 (hji ▸ hj)
        rw [← hin j hj, Function.update_of_ne hne]
    · intro j hj
      rw [List.mem_cons, not_or] at hj
      rw [hout j hj.2, Function.update_of_ne hj.1]

theorem exists_forEach (hnd : places.Nodup) (h : ∀ i ∈ places, ∃ y, f i (x₀ i) = some y) :
    ∃ x₁, forEach f places x₀ = some x₁ := by
  induction places generalizing x₀ with
  | nil => exact ⟨x₀, rfl⟩
  | cons i l ih =>
    rw [List.nodup_cons] at hnd
    obtain ⟨y, hy⟩ := h i List.mem_cons_self
    rw [forEach_cons, hy, Option.bind_some]
    apply ih hnd.2
    intro j hj
    have hne : j ≠ i := fun hji => hnd.1 (hji ▸ hj)
    rw [Function.update_of_ne hne]
    exact h j (List.mem_cons_of_mem i hj)

/-- Steps that keep the places of two families related fail together, or keep
the families related. -/
theorem forEach_related {τ : Type} (R : σ → τ → Prop) {g : ι → τ → Option τ} {y₀ : ι → τ}
    (hstep : ∀ i x y, R x y → Option.Rel R (f i x) (g i y)) (h : ∀ i, R (x₀ i) (y₀ i)) :
    Option.Rel (fun x y => ∀ i, R (x i) (y i)) (forEach f places x₀) (forEach g places y₀) := by
  induction places generalizing x₀ y₀ with
  | nil => exact .some h
  | cons i l ih =>
    rw [forEach_cons, forEach_cons]
    have hi := hstep i _ _ (h i)
    generalize f i (x₀ i) = a at hi ⊢
    generalize g i (y₀ i) = b at hi ⊢
    cases hi with
    | none => exact .none
    | some hxy =>
      apply ih
      intro j
      by_cases hj : j = i
      · subst hj
        rw [Function.update_self, Function.update_self]
        exact hxy
      · rw [Function.update_of_ne hj, Function.update_of_ne hj]
        exact h j

theorem rel_map {τ σ' τ' : Type} {R : σ → τ → Prop} {S : σ' → τ' → Prop} {f : σ → σ'} {g : τ → τ'}
    {x : Option σ} {y : Option τ} (h : Option.Rel R x y) (hfg : ∀ a b, R a b → S (f a) (g b)) :
    Option.Rel S (x.map f) (y.map g) := by
  cases h with
  | none => exact .none
  | some hab => exact .some (hfg _ _ hab)

theorem rel_cases {τ : Type} {R : σ → τ → Prop} {x : Option σ} {y : Option τ}
    (h : Option.Rel R x y) :
    (x = none ∧ y = none) ∨ ∃ a b, x = some a ∧ y = some b ∧ R a b := by
  cases h with
  | none => exact Or.inl ⟨rfl, rfl⟩
  | some hab => exact Or.inr ⟨_, _, rfl, rfl, hab⟩

end batch
