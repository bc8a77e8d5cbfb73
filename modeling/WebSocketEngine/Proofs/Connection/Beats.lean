import WebSocketEngine.Proofs.Connection.Schedule
import WebSocketEngine.Proofs.Connection.Watch
import WebSocketEngine.Proofs.Host.Docket
import Mathlib.Data.Multiset.AddSub

/-!
What is seen of a connection from beat to beat.

To let time pass is many steps in one move.  A beat is one of them: a command that takes effect at
once, a step, a fetch, or the clock.  Every schedule is one of beats (`exists_beats`,
`exists_instant_beats`).

Each beat has its signs, by what there was before and after it: the event at the handler, the end
of sending, the outcome of the driver's last callback; in a step also the PONG frames that were
accepted and not offered by the application, and that the driver has gone on to read.
-/

namespace WebSocketEngine

variable {σ : Type}

namespace Connection

/-! ### Beats -/

inductive Beat
  | act (x : Command)
  /-- The task at the head of the ready queue takes its next step. -/
  | step
  | fetch
  /-- The clock goes on, and the sweepers are set anew. -/
  | clock (now : Instant) (sweepers : Idle.Sweepers)

/-- The command takes effect at once. -/
def Command.instant : Command → Bool
  | .wait _ => false
  | _ => true

def Beat.instant : Beat → Bool
  | .act x => x.instant
  | .step | .fetch | .clock _ _ => true

/-- The command takes effect at once and leaves the handler to the driver. -/
def Command.atOnce : Command → Bool
  | .wait _ => false
  | x => !x.atHandler

def Beat.atOnce : Beat → Bool
  | .act x => x.atOnce
  | .step | .fetch | .clock _ _ => true

def beat (app : Application σ) (c : Connection σ) : Beat → Connection σ
  | .act x => (c.act app x).1
  | .step => (c.step app).getD c
  | .fetch => c.fetch
  | .clock now sweepers => { c with host := { c.host with now }, sweepers }

def beats (app : Application σ) (c : Connection σ) (bs : List Beat) : Connection σ :=
  bs.foldl (beat app) c

theorem beats_concat (app : Application σ) (c : Connection σ) (bs : List Beat) (b : Beat) :
    beats app c (bs ++ [b]) = beat app (beats app c bs) b := by
  rw [beats, List.foldl_append]
  rfl

/-- The frames that arrive, up to the end of them. -/
def arrivals : List Beat → List Frame
  | [] => []
  | .act .endInbound :: _ => []
  | .act (.arrive frames) :: bs => frames ++ arrivals bs
  | _ :: bs => arrivals bs

/-- Every schedule is one of beats, with its own commands but for those that let time pass. -/
theorem exists_beats_with (app : Application σ) (c : Connection σ) {ms : List Move}
    {P : Beat → Prop} (step : P .step) (fetch : P .fetch) (sweep : P (.act .sweep))
    (clock : ∀ now sweepers, P (.clock now sweepers))
    (act : ∀ x ∈ commands ms, x.instant = true → P (.act x)) :
    ∃ bs, (∀ b ∈ bs, P b) ∧ beats app c bs = play app c ms := by
  let Reached (d : Connection σ) : Prop := ∃ bs, (∀ b ∈ bs, P b) ∧ beats app c bs = d
  have onward {d : Connection σ} (reached : Reached d) {b : Beat} (fits : P b) :
      Reached (d.beat app b) := by
    obtain ⟨bs, before, rfl⟩ := reached
    refine ⟨bs ++ [b], fun b' mem => ?_, beats_concat app c bs b⟩
    rcases List.mem_append.mp mem with old | last
    · exact before b' old
    · rwa [List.mem_singleton.mp last]
  have stepping (d e : Connection σ) (reached : Reached d) (stepped : d.step app = some e) :
      Reached e := by
    have next := onward reached step
    rwa [beat, stepped] at next
  refine play_induction (I := Reached) ⟨[], nofun, rfl⟩ (fun d x mem reached => ?_) stepping
    fun d reached => onward reached fetch
  cases x with
  | wait span =>
    exact wait_preserves stepping (fun e reached => onward reached sweep)
      (fun e now sweepers reached => onward reached (clock now sweepers)) reached span
  | _ => exact onward reached (act _ mem rfl)

/-- Every schedule is one of beats. -/
theorem exists_beats (app : Application σ) (c : Connection σ) {ms : List Move}
    (outside : ∀ x ∈ commands ms, x.atHandler = false) :
    ∃ bs, (∀ b ∈ bs, b.atOnce = true) ∧ beats app c bs = play app c ms := by
  refine exists_beats_with app c rfl rfl rfl (fun _ _ => rfl) fun x mem instant => ?_
  have plain := outside x mem
  cases x with
  | wait span => cases instant
  | handOpening | handFrame _ | handFailure _ | handClosed _ => cases plain
  | _ => rfl

/-- Every schedule is one of instant beats, whatever is done at the handler. -/
theorem exists_instant_beats (app : Application σ) (c : Connection σ) (ms : List Move) :
    ∃ bs, (∀ b ∈ bs, b.instant = true) ∧ beats app c bs = play app c ms :=
  exists_beats_with app c rfl rfl rfl (fun _ _ => rfl) fun _ _ instant => instant

end Connection

/-! ### Signs -/

open Connection (Sign)

/-- The frame of an event. -/
def Call.frame? : Call → Option Frame
  | .frame f => some f
  | .opened | .message _ | .control _ | .failed _ | .closed _ => none

def Connection.Sign.ofCall? : Call → Option Sign
  | .opened => some .opened
  | .frame f => some (.handed f)
  | .message _ | .control _ | .failed _ | .closed _ => none

namespace Host

variable {app : Application σ} {h k : Host σ}

/-- The end of sending, if it has come between. -/
def hushed (h k : Host σ) : List Sign := if k.isShut && !h.isShut then [.shut] else []

/-- The outcome of the driver's last callback, if it has come between. -/
def decided (h k : Host σ) : List Sign :=
  if k.callbacks = h.callbacks ∧ k.verdict = h.verdict then []
  else (k.verdict.map Sign.resolved).toList

/-- What is seen of a host, by what there was before. -/
def signs (h k : Host σ) : List Sign :=
  (k.events.drop h.events.length).filterMap Sign.ofCall? ++ hushed h k ++ decided h k

/-- The PONG frames that were accepted and not offered by the application. -/
def replies (app : Application σ) (h k : Host σ) : List Frame :=
  (pongs (k.accepted.drop h.accepted.length)).diff
    (app.offers h.memory (k.calls.drop h.calls.length))

/-- An application accounts for all that was accepted while it was attended to. -/
theorem replies_of_attends (attends : Attends .pong app h k) : replies app h k = [] := by
  obtain ⟨calls, called, -, offers⟩ := attends
  obtain ⟨taken, accepted, among⟩ := offers.accepted
  rw [replies, accepted, called, List.drop_left, List.drop_left]
  have sub : (pongs taken).Sublist (app.offers h.memory calls) :=
    among.trans List.filter_sublist
  have le : (pongs taken : Multiset Frame) ≤ app.offers h.memory calls := sub.subperm
  rw [← Multiset.coe_eq_zero, ← Multiset.coe_sub, ← Multiset.le_zero]
  exact Multiset.sub_le_iff_le_add.mpr (le.trans_eq (Multiset.zero_add _).symm)

theorem signs_of_events {es : List Call} (events : k.events = h.events ++ es) :
    signs h k = es.filterMap Sign.ofCall? ++ hushed h k ++ decided h k := by
  rw [signs, events, List.drop_left]

theorem hushed_of_isShut (same : k.isShut = h.isShut) : hushed h k = [] := by
  rw [hushed, same, Bool.and_not_self]
  rfl

/-- Without an event or an outcome, only the end of sending is seen. -/
theorem signs_of_same (events : k.events = h.events) (callbacks : k.callbacks = h.callbacks)
    (verdict : k.verdict = h.verdict) : signs h k = hushed h k := by
  have undecided : decided h k = [] := if_pos ⟨callbacks, verdict⟩
  rw [signs_of_events (events.trans (List.append_nil _).symm), undecided, List.append_nil]
  rfl

theorem signs_of_docket (same : k.docket = h.docket) : signs h k = hushed h k :=
  signs_of_same (congrArg Docket.events same) (congrArg Docket.callbacks same)
    (congrArg Docket.verdict same)

end Host

namespace Connection

/-- The driver waits for a frame. -/
def isReading (c : Connection σ) : Bool :=
  match c.phase with
  | .reading _ => true
  | .idle | .starting | .opening | .serving _ | .finished _ => false

/-- That the driver goes on to read, if it has. -/
def goesOn (c d : Connection σ) : List Sign := if d.isReading && !c.isReading then [.reads] else []

/-- What is seen of the driver after a turn. -/
def turnSigns (app : Application σ) (c d : Connection σ) : List Sign :=
  (Host.replies app c.host d.host).map .ponged ++ goesOn c d

def signs (app : Application σ) (c : Connection σ) (b : Beat) : List Sign :=
  Host.signs c.host (c.beat app b).host ++
    match b with
    | .step => turnSigns app c (c.beat app b)
    | .act _ | .fetch | .clock _ _ => []

/-- What is seen from beat to beat. -/
def trace (app : Application σ) : Connection σ → List Beat → List Sign
  | _, [] => []
  | c, b :: bs => c.signs app b ++ trace app (c.beat app b) bs

end Connection

end WebSocketEngine
