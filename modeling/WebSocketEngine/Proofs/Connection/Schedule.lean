import WebSocketEngine.Connection.Command

/-!
Schedules of a connection.

`run` lets all tasks have their turns after every command.  A schedule is finer: anything may be
done from outside between two steps of the tasks, and the writer fetches whenever it likes.  Every
run is a schedule (`run_eq_play`), and what each move preserves holds after the whole schedule
(`play_induction`).
-/

namespace WebSocketEngine.Connection

variable {σ : Type} {app : Application σ}

/-- The command does the driver's own work at the handler. -/
def Command.atHandler : Command → Bool
  | .handOpening | .handFrame _ | .handFailure _ | .handClosed _ => true
  | _ => false

/-- A connection that nobody has started yet, with or without a supervisor. -/
def establish (supervised : Bool) (memory : σ) (handler : Handler) (id : ConnectionId)
    (config : Config) (interval : Duration) (house : House) : Connection σ :=
  let c := create memory handler id config interval house
  if supervised then c.supervise else c

/-! ### Playing a schedule -/

inductive Move
  /-- Something is done from outside. -/
  | act (x : Command)
  /-- The task at the head of the ready queue takes its next step. -/
  | step
  /-- The writer takes over what is in the outbox. -/
  | fetch

/-- One move; a step of nobody changes nothing. -/
def move (app : Application σ) (c : Connection σ) : Move → Connection σ
  | .act x => (c.act app x).1
  | .step => (c.step app).getD c
  | .fetch => c.fetch

def play (app : Application σ) (c : Connection σ) (ms : List Move) : Connection σ :=
  ms.foldl (move app) c

/-- The commands of a schedule. -/
def commands (ms : List Move) : List Command :=
  ms.filterMap fun
    | .act x => some x
    | .step | .fetch => none

theorem mem_commands {ms : List Move} {x : Command} : x ∈ commands ms ↔ .act x ∈ ms := by
  rw [commands, List.mem_filterMap]
  constructor
  · rintro ⟨m, mem, found⟩
    cases m with
    | act y => cases found; exact mem
    | step | fetch => cases found
  · intro mem
    exact ⟨_, mem, rfl⟩

theorem play_concat (c : Connection σ) (past : List Move) (m : Move) :
    play app c (past ++ [m]) = move app (play app c past) m := by
  rw [play, List.foldl_append]
  rfl

theorem commands_append (ms ns : List Move) : commands (ms ++ ns) = commands ms ++ commands ns :=
  List.filterMap_append

/-- What holds at first, and goes on with every move after the moves before it, holds at the end. -/
theorem play_past {I : List Move → Connection σ → Prop} {c : Connection σ} {ms : List Move}
    (first : I [] c)
    (onward : ∀ past m, past ++ [m] <+: ms → I past (play app c past) →
      I (past ++ [m]) (move app (play app c past) m)) : I ms (play app c ms) := by
  have reached : ∀ n, I (ms.take n) (play app c (ms.take n)) := by
    intro n
    induction n with
    | zero => exact first
    | succ n ih =>
      rw [List.take_add_one]
      cases next : ms[n]? with
      | none => rwa [Option.toList_none, List.append_nil]
      | some m =>
        have taken : ms.take n ++ [m] <+: ms := by
          have more := List.take_prefix (n + 1) ms
          rwa [List.take_add_one, next] at more
        rw [Option.toList_some, play_concat]
        exact onward _ m taken ih
  have whole := reached ms.length
  rwa [List.take_length] at whole

/-- What holds at first and is preserved by every move holds at the end. -/
theorem play_induction {I : Connection σ → Prop} {c : Connection σ} {ms : List Move}
    (first : I c) (act : ∀ d x, x ∈ commands ms → I d → I (d.act app x).1)
    (step : ∀ d e, I d → d.step app = some e → I e) (fetch : ∀ d, I d → I d.fetch) :
    I (play app c ms) := by
  refine play_past (I := fun _ => I) first fun past m taken holds => ?_
  cases m with
  | act x => exact act _ x (mem_commands.mpr (taken.subset (by simp))) holds
  | fetch => exact fetch _ holds
  | step =>
    rw [move]
    cases stepped : (play app c past).step app with
    | none => exact holds
    | some e => exact step _ e holds stepped

/-- A connection without a next step has nobody ready. -/
theorem ready_of_quiet {c : Connection σ} (quiet : c.step app = none) : c.host.ready = [] := by
  unfold step at quiet
  split at quiet
  · next empty => exact empty
  · cases quiet
  · split at quiet
    · cases quiet
    · split at quiet <;> cases quiet

/-- Settling goes on until there is no next step. -/
theorem step_settle (app : Application σ) (c : Connection σ) : (c.settle app).step app = none := by
  fun_induction settle app c with
  | case1 c quiet => exact quiet
  | case2 c d stepped ih => exact ih

/-! ### Runs are schedules -/

theorem settle_eq_play (app : Application σ) (c : Connection σ) :
    ∃ n, c.settle app = play app c (List.replicate n .step) := by
  fun_induction settle app c with
  | case1 c _ => exact ⟨0, rfl⟩
  | case2 c d stepped ih =>
    obtain ⟨n, settled⟩ := ih
    refine ⟨n + 1, settled.trans ?_⟩
    rw [List.replicate_succ, play, play, List.foldl_cons, move, stepped, Option.getD_some]

theorem run_eq_play (c : Connection σ) (x : Command) :
    ∃ n, (c.run app x).1 = play app c (.act x :: List.replicate n .step ++ [.fetch]) := by
  obtain ⟨n, settled⟩ := settle_eq_play app (c.act app x).1
  refine ⟨n, ?_⟩
  have played : (c.run app x).1 = (play app (c.act app x).1 (List.replicate n .step)).fetch :=
    congrArg fetch settled
  rw [played, play, play, List.foldl_append, List.foldl_cons]
  rfl

/-! ### What time preserves -/

section Preserved

variable {I : Connection σ → Prop}

theorem settle_preserves (step : ∀ d e, I d → d.step app = some e → I e) {c : Connection σ}
    (holds : I c) : I (c.settle app) := by
  fun_induction settle app c with
  | case1 c _ => exact holds
  | case2 c d stepped ih => exact ih (step c d holds stepped)

/-- A property of a connection at any time and whatever its sweepers do, that steps and sweeps
    preserve. -/
theorem wait_preserves (step : ∀ d e, I d → d.step app = some e → I e)
    (sweep : ∀ d, I d → I d.sweep.1)
    (clock : ∀ d now sweepers, I d → I { d with host := { d.host with now }, sweepers })
    {c : Connection σ} (holds : I c) (d : Duration) : I (c.wait app d) := by
  have tick : ∀ c now, I c → I (c.tick app now) := fun c now holds =>
    settle_preserves step (clock _ _ _ (sweep _ (clock c now c.sweepers holds)))
  have ticks : ∀ n c, I c → I (ticks app n c) := by
    intro n
    induction n with
    | zero => exact fun c holds => holds
    | succ n ih =>
      intro c holds
      rw [Connection.ticks]
      split
      · exact ih _ (tick c _ holds)
      · exact holds
  exact clock _ _ _ (ticks _ c holds)

/-- A property that the checks of a sweep and its notifications preserve, whoever is registered. -/
theorem sweep_preserves (check : ∀ d, I d → I { d with host := d.host.checkIdle.1 })
    (register : ∀ d supervisor, I d → I { d with supervisor })
    (expire : ∀ d e, I d → I (d.expire e)) {c : Connection σ} (holds : I c) : I c.sweep.1 := by
  have checked : ∀ (entries : List (ConnectionId × Unit)) (h : Host σ), I { c with host := h } →
      I { c with
        host := (Idle.Supervisor.collect (fun h _ => some h.checkIdle) h entries).2.2 } := by
    intro entries
    induction entries with
    | nil => exact fun h holds => holds
    | cons e entries ih =>
      intro h holds
      have later := ih h.checkIdle.1 (check _ holds)
      rw [Idle.Supervisor.collect]
      dsimp only
      split <;> exact later
  have notified : ∀ (expired : List (Idle.Expiry Unit)) (d : Connection σ), I d →
      I (expired.foldl Connection.expire d) := by
    intro expired
    induction expired with
    | nil => exact fun d holds => holds
    | cons e expired ih => exact fun d holds => ih _ (expire d e holds)
  exact notified _ _ (register _ _ (checked _ c.host holds))

end Preserved

end WebSocketEngine.Connection
