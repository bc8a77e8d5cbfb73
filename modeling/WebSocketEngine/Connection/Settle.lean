import WebSocketEngine.Connection.Driver

/-!
Tasks in turn, until all of them have to wait.

The first task of the ready queue goes on for as long as it can.  The driver leaves the queue when
it must wait, and parks if it is demand that it waits for; when its patience is at an end it goes to
the end of the queue instead.  A waiter takes a unit of demand if there is one, and parks otherwise.

This comes to an end: each move of the driver lowers its rank, going to the end of the queue gives
it back the patience that it had lost, and every other step shortens the queue.
-/

namespace WebSocketEngine.Connection

open Completion (fullPatience)

/-- A waiter's turn. -/
def serve (h : Host σ) (n : Nat) : Host σ :=
  match h.session.take? with
  | some session => { h with session }.note (.served n)
  | none => h.park (.waiter n)

/-- The driver has to wait. -/
def rest (c : Connection σ) (h : Host σ) : Host σ :=
  if c.phase = .reading true then h.park .driver else h

/-- The next step of the task at the head of the queue. -/
def step (app : Application σ) (c : Connection σ) : Option (Connection σ) :=
  match c.host.ready with
  | [] => none
  | .waiter n :: tasks => some { c with host := serve { c.host with ready := tasks } n }
  | .driver :: tasks =>
    let h := { c.host with ready := tasks }
    if c.patience = 0 then some { c with patience := fullPatience, host := h.wake .driver }
    else
      match c.turn app with
      | some d => some d
      | none => some { c with patience := fullPatience, host := c.rest h }

theorem ready_serve (h : Host σ) (n : Nat) : (serve h n).ready = h.ready := by
  unfold serve
  split <;> rfl

theorem ready_rest (c : Connection σ) (h : Host σ) : (c.rest h).ready = h.ready := by
  unfold rest
  split <;> rfl

/-- One while the driver has to give way to the others, and zero otherwise. -/
def debt (c : Connection σ) : Nat := if c.patience = 0 then 1 else 0

/-- What every step lowers: the driver's rank or, at the same rank, its debt or, at the same debt,
    the length of the queue. -/
abbrev load (c : Connection σ) : Nat × Nat × Nat := (c.rank, c.debt, c.host.ready.length)

theorem load_step {app : Application σ} {c d : Connection σ} (stepped : c.step app = some d) :
    Prod.Lex (· < ·) (Prod.Lex (· < ·) (· < ·)) d.load c.load := by
  unfold step at stepped
  split at stepped
  · cases stepped
  · next n tasks queue =>
    cases stepped
    refine Prod.Lex.right _ (Prod.Lex.right _ ?_)
    simp [ready_serve, queue]
  · next tasks queue =>
    split at stepped
    · next tired =>
      cases stepped
      refine Prod.Lex.right _ (Prod.Lex.left _ _ ?_)
      simp [debt, tired, fullPatience]
    · next lively =>
      split at stepped
      · next turned =>
        cases stepped
        exact Prod.Lex.left _ _ (rank_turn turned)
      · cases stepped
        have same : ({ c with patience := fullPatience, host := c.rest { c.host with ready := tasks } }
            : Connection σ).debt = c.debt := by
          simp [debt, lively, fullPatience]
        unfold load
        rw [same]
        refine Prod.Lex.right _ (Prod.Lex.right _ ?_)
        simp [ready_rest, queue]

/-- Runs the tasks until all of them have to wait. -/
def settle (app : Application σ) (c : Connection σ) : Connection σ :=
  match _stepped : c.step app with
  | none => c
  | some d => settle app d
termination_by c.load
decreasing_by exact load_step (by assumption)

end WebSocketEngine.Connection
