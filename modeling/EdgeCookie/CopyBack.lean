-- A value that several programs look up, change and write back, with other
-- steps in between. A write whose copy is still the value does what it would do
-- in one step; any other write brings an old value back.
import Mathlib.Logic.Function.Basic
import Mathlib.Tactic.Common

namespace copyback

variable {ι β : Type} [DecidableEq ι]

/-- The value, and the copy that each program works on. -/
structure Cell (ι β : Type) where
  value : β
  copy : ι → Option β

/-- A cell on which no program works. -/
def Cell.idle (v : β) : Cell ι β := ⟨v, fun _ => none⟩

inductive Op (ι β : Type) where
  | look (i : ι)
  | update (i : ι) (f : β → Option β)

/-- A look makes a copy. An update computes with the copy, and writes the whole
value when there is something to write. -/
def step (c : Cell ι β) : Op ι β → Cell ι β
  | .look i => { c with copy := Function.update c.copy i (some c.value) }
  | .update i f =>
    match c.copy i with
    | none => c
    | some v => ⟨(f v).getD c.value, Function.update c.copy i none⟩

/-- The copy of an update that writes is still the value. -/
def Fresh (c : Cell ι β) : Op ι β → Prop
  | .look _ => True
  | .update i f => ∀ v, c.copy i = some v → (f v).isSome = true → v = c.value

theorem step_update_none {c : Cell ι β} {i : ι} {f : β → Option β} (h : c.copy i = none) :
    step c (.update i f) = c := by
  simp only [step, h]

theorem step_update_value {c : Cell ι β} {i : ι} {f : β → Option β} {v : β}
    (h : c.copy i = some v) :
    (step c (.update i f)).value = (f v).getD c.value := by
  simp only [step, h]

/-- A fresh update writes nothing, or it is one step on the value. -/
theorem step_fresh_value {c : Cell ι β} {i : ι} {f : β → Option β} {v : β} (h : c.copy i = some v)
    (hf : Fresh c (.update i f)) :
    (f v = none ∧ (step c (.update i f)).value = c.value) ∨
      ∃ w, v = c.value ∧ f v = some w ∧ (step c (.update i f)).value = w := by
  rw [step_update_value h]
  cases hw : f v with
  | none => exact .inl ⟨rfl, rfl⟩
  | some w =>
    have hsome : (f v).isSome = true := by
      rw [hw]
      rfl
    exact .inr ⟨w, hf v h hsome, rfl, rfl⟩

/-- A look with its update right behind it is one step on the value. -/
theorem look_update_value (c : Cell ι β) (i : ι) (f : β → Option β) :
    (step (step c (.look i)) (.update i f)).value = (f c.value).getD c.value := by
  have h : (step c (.look i)).copy i = some c.value := Function.update_self i _ c.copy
  rw [step_update_value h]
  rfl

end copyback
