-- A table and its copy, with a channel between them that keeps the order and
-- loses nothing. Each change of the table goes into the channel, and the copy
-- makes the change when it comes out. Whatever the order of sends and
-- deliveries, the copy with the changes in flight is the table.
import EdgeCookie.Runs

namespace link

open runs

variable {τ μ : Type}

/-- The table, the changes in flight, oldest first, and the copy. -/
structure Link (τ μ : Type) where
  source : τ
  flight : List μ
  copy : τ

inductive Move (μ : Type) where
  | send (m : μ)
  | deliver
  | rest

variable (apply : τ → μ → τ)

def step (l : Link τ μ) : Move μ → Link τ μ
  | .send m => { l with source := apply l.source m, flight := l.flight ++ [m] }
  | .deliver =>
    match l.flight with
    | [] => l
    | m :: ms => { l with flight := ms, copy := apply l.copy m }
  | .rest => l

/-- The copy with the changes in flight is the table. -/
def Agrees (l : Link τ μ) : Prop := l.source = l.flight.foldl apply l.copy

variable {apply}

theorem agrees_step {l : Link τ μ} (h : Agrees apply l) (move : Move μ) :
    Agrees apply (step apply l move) := by
  unfold Agrees at h ⊢
  cases move with
  | send m =>
    change apply l.source m = (l.flight ++ [m]).foldl apply l.copy
    rw [List.foldl_append, ← h]
    rfl
  | deliver =>
    unfold step
    cases hf : l.flight with
    | nil =>
      dsimp only
      rw [h]
    | cons m ms =>
      dsimp only
      rw [h, hf]
      rfl
  | rest => exact h

theorem agrees_run {l : Link τ μ} (h : Agrees apply l) (moves : List (Move μ)) :
    Agrees apply (run (step apply) l moves) :=
  run_invariant (Agrees apply) moves (fun _ move hl => agrees_step hl move) h

end link
