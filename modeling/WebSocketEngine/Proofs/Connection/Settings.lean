import WebSocketEngine.Proofs.Connection.Beats
import WebSocketEngine.Proofs.Connection.Tallying

/-!
What is written to the configuration of a connection in the course of a run.

    from outside      the command says what
    by a call         the application's acts say what
    anything else     nothing

Whatever the driver and its surroundings do, the configuration is left with what the application has
written meanwhile (`minds_beat`).  So after every run it is what the connection started with, and on
top of that all that was written since, in order (`config_beats`).
-/

namespace WebSocketEngine

variable {σ : Type}

open Config (Change)
open Host (Heeds Tallies)

namespace Connection

variable {app : Application σ} {c d : Connection σ}

/-- The configuration is left with what the application has written meanwhile. -/
def Minds (app : Application σ) (h k : Host σ) : Prop := ∃ n m, Tallies app n m h k

theorem Minds.trans {h k l : Host σ} (first : Minds app h k) (second : Minds app k l) :
    Minds app h l := by
  obtain ⟨n, m, first⟩ := first
  obtain ⟨p, q, second⟩ := second
  exact ⟨n + p, m + q, first.trans second⟩

theorem minds_of_heeds {h k : Host σ} (heeds : Heeds app 0 h k) : Minds app h k :=
  ⟨_, _, heeds.tallies⟩

theorem minds_wait (c : Connection σ) (span : Duration) :
    Minds app c.host (c.wait app span).host :=
  wait_preserves (I := fun d => Minds app c.host d.host)
    (fun _ _ minds stepped => minds.trans ⟨_, _, tallies_step stepped⟩)
    (fun d minds => minds.trans (minds_of_heeds (heeds_sweep d)))
    (fun d now _ minds => minds.trans (minds_of_heeds (heeds_clock d.host now)))
    (minds_of_heeds (Host.heeds_refl c.host)) span

/-- A command that makes no change leaves that to the application. -/
theorem minds_act (app : Application σ) (c : Connection σ) {x : Command}
    (unchanged : x.changes = []) : Minds app c.host (c.act app x).1.host := by
  by_cases waits : ∃ span, x = .wait span
  · obtain ⟨span, rfl⟩ := waits
    exact minds_wait c span
  · refine ⟨_, _, tallies_act app c ?_ unchanged⟩
    cases x with
    | wait span => exact (waits ⟨span, rfl⟩).elim
    | _ => rfl

/-! ### Whole runs -/

/-- The changes that a beat makes itself. -/
def Beat.changes : Beat → List Change
  | .act x => x.changes
  | .step | .fetch | .clock _ _ => []

/-- All that is written in a beat: by itself, or by the application in the calls of the beat. -/
def changes (app : Application σ) (c : Connection σ) (b : Beat) : List Change :=
  b.changes ++ app.changes c.host.memory ((c.beat app b).host.calls.drop c.host.calls.length)

/-- All that is written in a run. -/
def written (app : Application σ) : Connection σ → List Beat → List Change
  | _, [] => []
  | c, b :: bs => c.changes app b ++ written app (c.beat app b) bs

/-- A beat that makes no change leaves that to the application. -/
theorem minds_beat {b : Beat} (unchanged : b.changes = []) :
    Minds app c.host (c.beat app b).host := by
  cases b with
  | act x => exact minds_act app c unchanged
  | step =>
    rw [beat]
    cases stepped : c.step app with
    | none => exact minds_of_heeds (Host.heeds_refl c.host)
    | some d => exact ⟨_, _, tallies_step stepped⟩
  | fetch => exact minds_of_heeds (heeds_fetch c)
  | clock now sweepers => exact minds_of_heeds (heeds_clock c.host now)

/-- Every beat leaves the configuration with what is written in it, and an assembler in its place. -/
theorem config_beat (app : Application σ) (c : Connection σ) (b : Beat) :
    (c.beat app b).host.session.config = c.host.session.config.after (c.changes app b) ∧
      (c.host.Assembles → (c.beat app b).host.Assembles) := by
  by_cases unchanged : b.changes = []
  · have minds : Minds app c.host (c.beat app b).host := minds_beat unchanged
    obtain ⟨n, m, ⟨calls, laps, called, -, config, -⟩, assembles⟩ := minds
    refine ⟨?_, assembles⟩
    rw [changes, unchanged, called, List.drop_left]
    exact config
  · -- What makes a change calls nobody.
    have direct {h : Host σ} {x : Change} (acted : (c.beat app b).host = h)
        (calls : h.calls = c.host.calls) (config : h.session.config = c.host.session.config.apply x)
        (handler : h.handler = c.host.handler) (named : b.changes = [x]) :
        (c.beat app b).host.session.config = c.host.session.config.after (c.changes app b) ∧
          (c.host.Assembles → (c.beat app b).host.Assembles) := by
      rw [changes, named, acted, calls, List.drop_length, config]
      exact ⟨(Config.after_singleton _ x).symm, fun ⟨a, assembling⟩ => ⟨a, handler.trans assembling⟩⟩
    cases b with
    | step | fetch | clock => exact (unchanged rfl).elim
    | act y =>
      cases y with
      | change x => exact direct rfl rfl rfl rfl rfl
      | setIdleTimeout d => exact direct rfl rfl rfl rfl rfl
      | _ => exact (unchanged rfl).elim

/-- A run leaves the configuration with all that was written in it. -/
theorem config_beats (app : Application σ) (c : Connection σ) (bs : List Beat) :
    (beats app c bs).host.session.config = c.host.session.config.after (written app c bs) ∧
      (c.host.Assembles → (beats app c bs).host.Assembles) := by
  induction bs generalizing c with
  | nil => exact ⟨rfl, fun assembles => assembles⟩
  | cons b bs ih =>
    obtain ⟨first, stays⟩ := config_beat app c b
    obtain ⟨rest, later⟩ := ih (c.beat app b)
    refine ⟨?_, fun assembles => later (stays assembles)⟩
    rw [written, Config.after_append, ← first]
    exact rest

end Connection

end WebSocketEngine
