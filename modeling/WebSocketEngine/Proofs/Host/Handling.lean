import WebSocketEngine.Connection.Driver
import WebSocketEngine.Proofs.Host.Acting

/-!
The handler's side of a host.

`Front` is what a frame can show at the handler: the application's memory and its calls, the
configuration, the handler, the tokens that are kept and how the driver's callback stands.  Each
operation at the handler has one lemma that says what becomes of the front.
-/

namespace WebSocketEngine.Host

variable {σ : Type}

/-- The handler's side of a host. -/
structure Front (σ : Type) where
  memory : σ
  config : Config
  handler : Handler
  held : List Ticket
  callbacks : Nat
  verdict : Option Outcome
  calls : List Call

def front (h : Host σ) : Front σ :=
  ⟨h.memory, h.session.config, h.handler, h.held, h.callbacks, h.verdict, h.calls⟩

theorem front_note (h : Host σ) {n : Note} (quiet : n.call? = none) :
    (h.note n).front = h.front := by
  have same : (h.note n).calls = h.calls := by rw [calls, record_note, quiet]; simp
  simp only [front, same]
  rfl

theorem front_foldl_log (h : Host σ) (lines : List Log.Line) :
    (lines.foldl log h).front = h.front := by
  induction lines generalizing h with
  | nil => rfl
  | cons l lines ih => exact (ih _).trans (front_note h rfl)

/-- The outcome of the last callback is for the driver to see. -/
theorem resolve_callback (h : Host σ) (o : Outcome) :
    h.resolve (.root (.driver h.callbacks)) o = { h with verdict := some o }.wake .driver := by
  simp [resolve, Completion.Ledger.resolve, deliver]

theorem front_resolve_callback {h : Host σ} {n : Nat} (last : h.callbacks = n) (o : Outcome) :
    (h.resolve (.root (.driver n)) o).front = { h.front with verdict := some o } := by
  rw [← last, resolve_callback]
  rfl

theorem front_grant (h : Host σ) (n : UInt64) : (h.grant n).front = h.front := rfl

theorem front_giveBack (h : Host σ) : h.giveBack.front = h.front := by
  unfold giveBack
  split
  · exact front_grant h 1
  · rfl

theorem front_call (app : Application σ) (h : Host σ) (c : Call) :
    (h.call app c).1.front =
      { h.front with
        memory := (app.react h.memory c).1
        config := (app.react h.memory c).2.acts.foldl Act.configure h.session.config
        calls := h.calls ++ [c] } := by
  have core := core_call app h c
  have memory := congrArg Host.memory core
  have handler := congrArg Host.handler core
  have held := congrArg Host.held core
  have callbacks := congrArg Host.callbacks core
  have verdict := congrArg Host.verdict core
  have config : (h.call app c).1.session.config = _ := config_foldl_perform _ _
  dsimp only [Host.core, still] at memory handler held callbacks verdict
  rw [front, memory, handler, held, callbacks, verdict, config, calls_call]
  rfl

end WebSocketEngine.Host
