-- Programs that get at a memory by reads of single cells only. A program is a
-- tree: it goes on with what a cell holds, so no cell can decide what it does
-- without a read of it. The turns of a loop are marked in the tree.
import Mathlib.Tactic.Common

namespace access

variable {β α γ : Type}

inductive Prog (β α : Type) where
  | done (a : α)
  | read (addr : Nat) (next : β → Prog β α)
  | turn (next : Prog β α)

namespace Prog

def bind : Prog β α → (α → Prog β γ) → Prog β γ
  | done a, f => f a
  | read addr next, f => read addr fun b => (next b).bind f
  | turn next, f => turn (next.bind f)

instance : Monad (Prog β) where
  pure := done
  bind := bind

/-- What the cell holds. -/
def fetch (addr : Nat) : Prog β β := read addr done

/-- The mark of a turn. -/
def tick : Prog β Unit := turn (done ())

/-! ## One run -/

/-- What the program gives in a memory. -/
def value (m : Nat → β) : Prog β α → α
  | done a => a
  | read addr next => (next (m addr)).value m
  | turn next => next.value m

/-- The cells that it reads there, in order. -/
def reads (m : Nat → β) : Prog β α → List Nat
  | done _ => []
  | read addr next => addr :: (next (m addr)).reads m
  | turn next => next.reads m

/-- The turns that it makes there. -/
def turns (m : Nat → β) : Prog β α → Nat
  | done _ => 0
  | read addr next => (next (m addr)).turns m
  | turn next => next.turns m + 1

variable (m : Nat → β)

@[simp] theorem value_pure (a : α) : (pure a : Prog β α).value m = a := rfl

@[simp] theorem value_fetch (addr : Nat) : (fetch addr).value m = m addr := rfl

@[simp] theorem value_bind (x : Prog β α) (f : α → Prog β γ) :
    (x >>= f).value m = (f (x.value m)).value m := by
  induction x with
  | done a => rfl
  | read addr next ih => exact ih (m addr)
  | turn next ih => exact ih

@[simp] theorem value_ite (c : Prop) [Decidable c] (x y : Prog β α) :
    (if c then x else y).value m = if c then x.value m else y.value m :=
  apply_ite (value m) c x y

/-- The cells that are not read do not matter. -/
theorem value_eq_of_agree {m m' : Nat → β} {x : Prog β α} (h : ∀ a ∈ x.reads m, m' a = m a) :
    x.value m' = x.value m := by
  induction x with
  | done a => rfl
  | read addr next ih =>
    have hcell : m' addr = m addr := h addr List.mem_cons_self
    rw [value, value, hcell]
    exact ih (m addr) fun a ha => h a (List.mem_cons_of_mem addr ha)
  | turn next ih => exact ih h

/-! ## All runs -/

/-- In each memory the program reads only cells in `P`, makes at most `n` turns
and gives a value in `Q`. -/
def Meets (P : Nat → Prop) (Q : α → Prop) : Prog β α → Nat → Prop
  | done a, _ => Q a
  | read addr next, n => P addr ∧ ∀ b, (next b).Meets P Q n
  | turn _, 0 => False
  | turn next, n + 1 => next.Meets P Q n

variable {P : Nat → Prop} {Q R : α → Prop} {n : Nat}

theorem Meets.sound {x : Prog β α} (h : x.Meets P Q n) :
    (∀ a ∈ x.reads m, P a) ∧ x.turns m ≤ n ∧ Q (x.value m) := by
  induction x generalizing n with
  | done a => exact ⟨fun _ ha => absurd ha List.not_mem_nil, Nat.zero_le n, h⟩
  | read addr next ih =>
    obtain ⟨hreads, hturns, hvalue⟩ := ih (m addr) (h.2 (m addr))
    refine ⟨fun a ha => ?_, hturns, hvalue⟩
    rcases List.mem_cons.mp ha with rfl | hlater
    · exact h.1
    · exact hreads a hlater
  | turn next ih =>
    cases n with
    | zero => exact h.elim
    | succ n =>
      obtain ⟨hreads, hturns, hvalue⟩ := ih h
      exact ⟨hreads, Nat.succ_le_succ hturns, hvalue⟩

theorem Meets.mono {k : Nat} {x : Prog β α} (h : x.Meets P Q n) (hle : n ≤ k) : x.Meets P Q k := by
  induction x generalizing n k with
  | done a => exact h
  | read addr next ih => exact ⟨h.1, fun b => ih b (h.2 b) hle⟩
  | turn next ih =>
    cases n with
    | zero => exact h.elim
    | succ n =>
      obtain ⟨j, rfl⟩ := Nat.exists_eq_add_of_le hle
      rw [Nat.succ_add]
      exact ih h (Nat.le_add_right n j)

theorem meets_pure {a : α} (h : Q a) : (pure a : Prog β α).Meets P Q n := h

theorem meets_fetch {addr : Nat} (h : P addr) : (fetch addr : Prog β β).Meets P (fun _ => True) 0 :=
  ⟨h, fun _ => trivial⟩

theorem meets_tick : (tick : Prog β Unit).Meets P (fun _ => True) 1 := trivial

/-- The turns add up, and the second program starts with what the first one is known to give. -/
theorem Meets.bind {k : Nat} {x : Prog β α} {f : α → Prog β γ} {S : γ → Prop} (hx : x.Meets P R k)
    (hf : ∀ a, R a → (f a).Meets P S n) : (x >>= f).Meets P S (n + k) := by
  induction x generalizing k with
  | done a => exact (hf a hx).mono (Nat.le_add_right n k)
  | read addr next ih => exact ⟨hx.1, fun b => ih b (hx.2 b)⟩
  | turn next ih =>
    cases k with
    | zero => exact hx.elim
    | succ k => exact ih hx

/-- A test, and one of two programs behind it. -/
theorem Meets.test {k : Nat} {c : Prog β Bool} {x y : Prog β α} (hc : c.Meets P (fun _ => True) k)
    (hx : x.Meets P Q n) (hy : y.Meets P Q n) : (do if ← c then x else y).Meets P Q (n + k) := by
  refine hc.bind fun b _ => ?_
  cases b with
  | true => exact hx
  | false => exact hy

end Prog

end access
