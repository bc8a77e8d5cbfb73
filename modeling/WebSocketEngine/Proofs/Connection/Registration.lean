import WebSocketEngine.Proofs.Connection.Stopping

/-!
How long a connection stays registered with its supervisor.

    running                  registered
    closed, failed           taken off on the way out
    crashed                  still registered

The registration is not touched as long as the driver runs (`Keeps`), and what becomes of it is
settled by the way out (`registered_of_way`).  So a connection that has closed or failed is never
heard of again by any sweep.  One that has crashed is left behind: as long as somebody holds its
session, a sweep may still find it idle, and only when nobody does is it dropped
(`registered_until_left`).
-/

namespace WebSocketEngine

variable {σ : Type}

/-! ### One pass over the registrations -/

/-- Where every tracker is there, every registration stays. -/
theorem Idle.collect_of_all {κ β : Type} {check : β → κ → Option (β × Idle.State)}
    (all : ∀ trackers e, (check trackers e).isSome = true) (trackers : β)
    (es : List (ConnectionId × κ)) :
    (Idle.Supervisor.collect check trackers es).1 = es := by
  induction es generalizing trackers with
  | nil => rfl
  | cons e es ih =>
    obtain ⟨⟨trackers', state⟩, lives⟩ := Option.isSome_iff_exists.mp (all trackers e.2)
    rw [Idle.collect_cons_of_some lives]
    simp only [ih]

/-- Where every tracker is gone, every registration is dropped. -/
theorem Idle.collect_of_gone {κ β : Type} {check : β → κ → Option (β × Idle.State)}
    (gone : ∀ trackers e, check trackers e = none) (trackers : β) (es : List (ConnectionId × κ)) :
    Idle.Supervisor.collect check trackers es = ([], [], trackers) := by
  induction es with
  | nil => rfl
  | cons e es ih => rw [Idle.collect_cons_of_none (gone trackers e.2), ih]

/-! ### Names of sessions -/

namespace Host

variable {h k : Host σ}

theorem id_of_stirs (stirs : Stirs h k) : k.session.id = h.session.id := by
  induction stirs with
  | refl => rfl
  | tail _ stir ih =>
    rw [← ih]
    cases stir with
    | aside now session journal => rw [session]
    | note | configure | demand | abort | accept | lose => rfl

theorem id_resolve (h : Host σ) (t : Ticket) (o : Outcome) :
    (h.resolve t o).session.id = h.session.id := id_of_stirs (stirs_resolve h t o)

end Host

namespace Connection

variable {app : Application σ} {c d e : Connection σ} {id : ConnectionId} {ending : Ending}

/-! ### Between the beginning and the end -/

/-- The registration is not touched, and the driver does not move, though it may be started. -/
structure Keeps (c d : Connection σ) : Prop where
  id : d.id = c.id
  supervised : d.supervised = c.supervised
  entries : d.supervisor.entries = c.supervisor.entries
  phase : d.phase = c.phase ∨ c.phase = .idle ∧ d.phase = .starting

theorem keeps_of_eq (id : d.id = c.id) (supervised : d.supervised = c.supervised)
    (supervisor : d.supervisor = c.supervisor) (phase : d.phase = c.phase) : Keeps c d :=
  ⟨id, supervised, by rw [supervisor], .inl phase⟩

theorem keeps_refl (c : Connection σ) : Keeps c c := keeps_of_eq rfl rfl rfl rfl

theorem keeps_sweep (c : Connection σ) : Keeps c c.sweep.1 := by
  have rest : c.sweep.1.id = c.id ∧ c.sweep.1.supervised = c.supervised ∧
      c.sweep.1.phase = c.phase := by
    refine sweep_preserves
      (I := fun d => d.id = c.id ∧ d.supervised = c.supervised ∧ d.phase = c.phase)
      (fun _ same => same) (fun _ _ same => same) ?_ ⟨rfl, rfl, rfl⟩
    rintro d e ⟨named, same⟩
    have told : (d.expire e).id = d.id := Host.id_of_stirs
      (((Host.stirs_count d.host .idleTimeout).trans
        (Host.stirs_note _ (n := .logged (Idle.expiryLine e.id e.idleFor)) rfl)).trans
        (Host.stirs_abort _ _))
    exact ⟨told.trans named, same⟩
  have untouched (expired : List (Idle.Expiry Unit)) (d : Connection σ) :
      (expired.foldl expire d).supervisor = d.supervisor :=
    List.foldlRecOn expired expire (motive := fun e : Connection σ => e.supervisor = d.supervisor)
      rfl fun _ same _ _ => same
  have entries : c.sweep.1.supervisor.entries = c.supervisor.entries := by
    refine (congrArg Idle.Supervisor.entries (untouched _ _)).trans ?_
    exact Idle.collect_of_all (fun _ _ => rfl) c.host c.supervisor.entries
  exact ⟨rest.1, rest.2.1, entries, .inl rest.2.2⟩

theorem keeps_fetch (c : Connection σ) : Keeps c c.fetch := by
  have noted (queue : List Outbound) (h : Host σ) :
      (queue.foldl (fun h o => h.note (.fetched o.frame o.batch)) h).session.id = h.session.id :=
    List.foldlRecOn queue _ (motive := fun k : Host σ => k.session.id = h.session.id) rfl
      fun _ same _ _ => same
  unfold fetch
  split
  · exact keeps_refl c
  · exact keeps_of_eq (noted _ _) rfl rfl rfl

theorem keeps_dropWriter (c : Connection σ) : Keeps c c.dropWriter.1 := by
  have dropped (left : List Outbound) (h : Host σ) :
      (left.foldl (fun h o => h.drop o.ticket) h).session.id = h.session.id :=
    List.foldlRecOn left _ (motive := fun k : Host σ => k.session.id = h.session.id) rfl
      fun k same o _ => (Host.id_resolve k o.ticket _).trans same
  exact keeps_of_eq (dropped _ _) rfl rfl rfl

/-- No command but time itself touches the registration. -/
theorem keeps_act (app : Application σ) (c : Connection σ) {x : Command}
    (now : ∀ span, x ≠ .wait span) : Keeps c (c.act app x).1 := by
  have sending (sends : x.sends = true) : Keeps c (c.act app x).1 := by
    obtain ⟨h, sent, acted⟩ := act_of_sends app c sends
    rw [acted]
    exact keeps_of_eq (Host.id_of_stirs (Host.stirs_of_sends sent)) rfl rfl rfl
  have same : Keeps c c := keeps_refl c
  cases x with
  | send | close | sendMessage | handlerSend => exact sending rfl
  | demand | waitForDemand | setIdleTimeout | change | checkIdle | touch | endInbound | shutdown =>
    exact keeps_of_eq rfl rfl rfl rfl
  | takeDemand =>
    rcases takeDemand_cases app c with none | ⟨_, taken, took⟩
    · rw [none]
      exact same
    · rw [took]
      exact keeps_of_eq (Host.id_of_stirs (Host.stirs_take taken)) rfl rfl rfl
  | abort e => exact keeps_of_eq (Host.id_of_stirs (Host.stirs_abort c.host e)) rfl rfl rfl
  | write how =>
    rcases write_cases app c how with none | ⟨o, rest, -, wrote⟩
    · rw [none]
      exact same
    · rw [wrote]
      exact keeps_of_eq (Host.id_resolve c.host _ _) rfl rfl rfl
  | dropWriter => exact keeps_dropWriter c
  | releaseHeld index how =>
    rcases releaseHeld_cases app c index how with none | ⟨t, -, released⟩
    · rw [none]
      exact same
    · rw [released]
      exact keeps_of_eq (Host.id_resolve { c.host with held := _ } _ _) rfl rfl rfl
  | handOpening =>
    exact keeps_of_eq (Host.id_of_stirs (Host.stirs_opened app c.host _)) rfl rfl rfl
  | handFrame f =>
    have named := Host.id_of_stirs (Host.stirs_frame app c.host f (.root (.caller c.callers)))
    exact keeps_of_eq named rfl rfl rfl
  | handFailure e =>
    exact keeps_of_eq (Host.id_of_stirs (Host.stirs_failed app c.host e)) rfl rfl rfl
  | handClosed code =>
    exact keeps_of_eq (Host.id_of_stirs (Host.stirs_closed app c.host code)) rfl rfl rfl
  | start detached =>
    rcases start_cases app c detached with none | ⟨idle, started⟩
    · rw [none]
      exact same
    · rw [started]
      exact ⟨rfl, rfl, rfl, .inr ⟨idle, rfl⟩⟩
  | arrive frames =>
    rcases arrive_cases app c frames with none | ⟨-, -, arrived⟩
    · rw [none]
      exact same
    · rw [arrived]
      exact keeps_of_eq rfl rfl rfl rfl
  | sweep => exact keeps_sweep c
  | startSweeping =>
    obtain ⟨id, supervised, entries, phase⟩ := keeps_sweep c
    exact ⟨id, supervised, entries, phase⟩
  | wait span => exact (now span rfl).elim

/-! ### Ways out -/

/-- What is registered of a connection. -/
def Phase.registrations (id : ConnectionId) : Phase → List (ConnectionId × Unit)
  | .finished (.closed _) | .finished (.failed _) => []
  | .idle | .starting | .opening | .reading _ | .serving _ | .finished (.crashed _) => [(id, ())]

/-- Of a supervised connection, that is registered which its phase says. -/
structure Registered (id : ConnectionId) (c : Connection σ) : Prop where
  named : c.id = id
  supervised : c.supervised = true
  entries : c.supervisor.entries = c.phase.registrations id

/-- The connection has not been left, whatever its phase is called. -/
structure Enrolled (id : ConnectionId) (c : Connection σ) : Prop where
  named : c.id = id
  supervised : c.supervised = true
  entries : c.supervisor.entries = [(id, ())]

theorem registered_establish (memory : σ) (handler : Handler) (id : ConnectionId) (config : Config)
    (interval : Duration) (house : House) :
    Registered id (establish true memory handler id config interval house) := ⟨rfl, rfl, rfl⟩

theorem Registered.enrolled (registered : Registered id c) (running : c.running = true) :
    Enrolled id c := by
  refine ⟨registered.named, registered.supervised, registered.entries.trans ?_⟩
  unfold Connection.running at running
  cases phase : c.phase with
  | starting | opening | reading _ | serving _ => rfl
  | idle | finished _ =>
    rw [phase] at running
    cases running

/-- A connection that goes on. -/
theorem Enrolled.registered (enrolled : Enrolled id c)
    (unfinished : ∀ ending, c.phase ≠ .finished ending) : Registered id c := by
  refine ⟨enrolled.named, enrolled.supervised, enrolled.entries.trans ?_⟩
  cases phase : c.phase with
  | finished ending => exact (unfinished ending phase).elim
  | idle | starting | opening | reading _ | serving _ => rfl

/-- Whatever stirs the host leaves the registration alone. -/
theorem Enrolled.stirs (enrolled : Enrolled id c) {k : Host σ} (stirs : Host.Stirs c.host k) :
    Enrolled id { c with host := k } :=
  ⟨(Host.id_of_stirs stirs).trans enrolled.named, enrolled.supervised, enrolled.entries⟩

/-- The way out in good order takes the connection off the supervisor. -/
theorem registered_leave (enrolled : Enrolled id c)
    (order : (Phase.finished ending).registrations id = []) : Registered id (c.leave ending) := by
  have off : (c.supervisor.deregister c.id).entries = [] := by
    show c.supervisor.entries.filter _ = []
    rw [enrolled.entries, enrolled.named]
    simp
  unfold leave
  rw [if_pos enrolled.supervised]
  exact ⟨enrolled.named, enrolled.supervised, off.trans order.symm⟩

/-- The way out of a crash does not. -/
theorem registered_crash (enrolled : Enrolled id c) (p : Panic) : Registered id (c.crash p) := by
  have named : (c.crash p).id = c.id := Host.id_of_stirs (stirs_crash c p)
  refine ⟨named.trans enrolled.named, ?_, ?_⟩
  all_goals unfold crash; dsimp only; split
  · exact enrolled.supervised
  · exact enrolled.supervised
  · exact enrolled.entries
  · exact enrolled.entries

theorem registered_unlessCrashed (enrolled : Enrolled id c) {r : Host σ × Option Panic}
    (stirs : Host.Stirs c.host r.1) {next : Connection σ → Connection σ}
    (onward : Enrolled id { c with host := r.1 } → Registered id (next { c with host := r.1 })) :
    Registered id (c.unlessCrashed r next) := by
  unfold unlessCrashed
  dsimp only
  split
  · exact registered_crash (enrolled.stirs stirs) _
  · exact onward (enrolled.stirs stirs)

theorem registered_finish (enrolled : Enrolled id c) (app : Application σ) (code : CloseCode) :
    Registered id (c.finish app code) := by
  unfold finish
  exact registered_unlessCrashed enrolled (stirs_finishing app c code)
    fun enrolled => registered_leave enrolled rfl

theorem registered_fail (enrolled : Enrolled id c) (app : Application σ) (e : Failure) :
    Registered id (c.fail app e) := by
  unfold fail
  refine registered_unlessCrashed enrolled (stirs_failing app c e) fun enrolled => ?_
  exact registered_unlessCrashed enrolled (stirs_parting app _ e.closeCode _)
    fun enrolled => registered_leave enrolled rfl

theorem registered_finishShutdown (enrolled : Enrolled id c) (app : Application σ) :
    Registered id (c.finishShutdown app) :=
  registered_finish (enrolled.stirs (stirs_sendClose c.host .goingAway shutdownReason)) app _

theorem registered_enter (enrolled : Enrolled id c) (app : Application σ) :
    Registered id (c.enter app) := by
  rw [enter_eq]
  exact registered_unlessCrashed enrolled (stirs_entering app c)
    fun enrolled => ⟨enrolled.named, enrolled.supervised, enrolled.entries⟩

theorem registered_dispatch (enrolled : Enrolled id c) (app : Application σ) (f : Frame) :
    Registered id (c.dispatch app f) := by
  -- A frame that is handed over is no stir, so it comes before the callback.
  let handed := c.facing.1.note (.handed (.frame f))
  have ready : Enrolled id { c with host := handed } :=
    ⟨enrolled.named, enrolled.supervised, enrolled.entries⟩
  have framed := Host.stirs_frame app c.facing.1 f c.facing.2
  show Registered id (({ c with host := handed } : Connection σ).unlessCrashed _
    ({ · with phase := .serving f }))
  exact registered_unlessCrashed ready framed
    fun enrolled => ⟨enrolled.named, enrolled.supervised, enrolled.entries⟩

theorem registered_conclude (enrolled : Enrolled id c) (app : Application σ) (f : Frame) :
    Registered id (c.conclude app f) := by
  have answered := enrolled.stirs (Host.stirs_of_sends (sends_sendPong c.host f))
  unfold conclude
  split
  · next code _ =>
    exact registered_finish (answered.stirs (stirs_sendClose (sendPong c.host f) code "")) app code
  · exact ⟨answered.named, answered.supervised, answered.entries⟩

/-- Whatever move the driver makes, that is registered which its phase says. -/
theorem registered_of_way (registered : Registered id c) (way : Way app c d) :
    Registered id d := by
  have enrolled := registered.enrolled way.running
  cases way with
  | enters starting => exact registered_enter enrolled app
  | opens opening verdict => exact ⟨enrolled.named, enrolled.supervised, enrolled.entries⟩
  | @concludes f serving verdict =>
    exact registered_conclude (c := { c with patience := c.patience - 1 })
      ⟨enrolled.named, enrolled.supervised, enrolled.entries⟩ app f
  | fails awaits outcome => exact registered_fail enrolled app _
  | stops reading stopping => exact registered_finishShutdown enrolled app
  | aborts reading going reason => exact registered_fail enrolled app _
  | @takes session reading free taken =>
    have took := enrolled.stirs (Host.stirs_take taken)
    exact ⟨took.named, took.supervised, took.entries⟩
  | @hands f rest reading free arrived =>
    exact registered_dispatch (c := { c with inbound := rest })
      ⟨enrolled.named, enrolled.supervised, enrolled.entries⟩ app f
  | runsOut reading free empty ended => exact registered_fail enrolled app _

/-! ### Whole runs -/

theorem Registered.keeps (registered : Registered id c) (keeps : Keeps c d) : Registered id d := by
  refine ⟨keeps.id.trans registered.named, keeps.supervised.trans registered.supervised, ?_⟩
  rw [keeps.entries, registered.entries]
  rcases keeps.phase with same | ⟨idle, starting⟩
  · rw [same]
  · rw [idle, starting]
    rfl

theorem stirs_serve (h : Host σ) (n : Nat) : Host.Stirs h (serve h n) := by
  unfold serve
  split
  · next taken => exact (Host.stirs_take taken).trans (Host.stirs_note _ rfl)
  · exact Host.stirs_aside rfl rfl rfl

theorem stirs_rest (c : Connection σ) (h : Host σ) : Host.Stirs h (c.rest h) := by
  unfold rest
  split
  · exact Host.stirs_aside rfl rfl rfl
  · exact .refl

/-- What every move of the driver preserves, and all that does not touch the registration, is so
    after a whole run. -/
theorem beats_induction {I : Connection σ → Prop}
    (way : ∀ {d e : Connection σ}, I d → Way app d e → I e)
    (keeps : ∀ {d e : Connection σ}, I d → Keeps d e → I e) (first : I c) (bs : List Beat) :
    I (beats app c bs) := by
  have step {d e : Connection σ} (holds : I d) (stepped : d.step app = some e) : I e := by
    cases pace_of_step stepped with
    | @serves n tasks queue =>
      have named := Host.id_of_stirs (stirs_serve { d.host with ready := tasks } n)
      exact keeps holds (keeps_of_eq named rfl rfl rfl)
    | yields queue tired => exact keeps holds (keeps_of_eq rfl rfl rfl rfl)
    | turns awake moved => exact way holds moved
    | @rests tasks queue lacks =>
      have named := Host.id_of_stirs (stirs_rest d { d.host with ready := tasks })
      exact keeps holds (keeps_of_eq named rfl rfl rfl)
  have one {d : Connection σ} (holds : I d) (b : Beat) : I (d.beat app b) := by
    cases b with
    | step =>
      rw [beat]
      cases stepped : d.step app with
      | none => exact holds
      | some e => exact step holds stepped
    | fetch => exact keeps holds (keeps_fetch d)
    | clock now sweepers => exact keeps holds (keeps_of_eq rfl rfl rfl rfl)
    | act x =>
      by_cases waits : ∃ span, x = .wait span
      · obtain ⟨span, rfl⟩ := waits
        exact wait_preserves (fun d e holds stepped => step holds stepped)
          (fun d holds => keeps holds (keeps_sweep d))
          (fun d now sweepers holds => keeps holds (keeps_of_eq rfl rfl rfl rfl)) holds span
      · exact keeps holds (keeps_act app d fun span same => waits ⟨span, same⟩)
  induction bs generalizing c with
  | nil => exact first
  | cons b bs ih => exact ih (one first b)

theorem registered_beats (registered : Registered id c) (bs : List Beat) :
    Registered id (beats app c bs) :=
  beats_induction (fun registered way => registered_of_way registered way)
    (fun registered keeps => registered.keeps keeps) registered bs

/-- What is over stays over, whatever is done. -/
theorem finished_beats (finished : c.phase = .finished ending) (bs : List Beat) :
    (beats app c bs).phase = .finished ending := by
  refine beats_induction (I := fun d => d.phase = .finished ending) ?_ ?_ finished bs
  · intro d e finished way
    have running := way.running
    rw [Connection.running, finished] at running
    cases running
  · intro d e finished keeps
    rcases keeps.phase with same | ⟨idle, -⟩
    · exact same.trans finished
    · cases idle.symm.trans finished

/-! ### Sweeps after the end -/

/-- No sweep hears of the connection, whatever has become of its session. -/
structure Forgotten (c : Connection σ) : Prop where
  entries : c.supervisor.entries = []
  unswept : c.sweep = (c, 0)
  untold : ∀ {β : Type} (check : β → Unit → Option (β × Idle.State)) (trackers : β),
    c.supervisor.inspect check trackers = (c.supervisor, [], trackers)

theorem forgotten_of_unlisted (none : c.supervisor.entries = []) : Forgotten c where
  entries := none
  unswept := by
    refine Prod.ext (sweep_of_unlisted none) ?_
    show (Idle.Supervisor.collect _ c.host c.supervisor.entries).2.1.length = 0
    rw [none]
    rfl
  untold check trackers := by
    have same : ({ c.supervisor with entries := [] } : Idle.Supervisor Unit) = c.supervisor := by
      rw [← none]
    rw [Idle.Supervisor.inspect, none]
    simp only [Idle.Supervisor.collect, same]

/-- A check would find now that the session has been idle for too long. -/
def Overdue (c : Connection σ) : Prop :=
  c.host.session.tracker.expired = false ∧ c.host.session.config.idleTimeout ≠ .zero ∧
    c.host.session.config.idleTimeout.nanos ≤
      (c.host.session.tracker.idleFor c.host.now).nanos

/-- The connection is swept as if it ran, as long as somebody holds its session. -/
structure LeftBehind (c : Connection σ) : Prop where
  entries : c.supervisor.entries = [(c.id, ())]
  told : c.Overdue → c.sweep.2 = 1 ∧ c.sweep.1.host.session.abortReason ≠ none ∧
    c.sweep.1.host.house.metrics = c.host.house.metrics.record .idleTimeout
  untold : ¬c.Overdue → c.sweep = (c, 0)
  dropped : ∀ {β : Type} (check : β → Unit → Option (β × Idle.State)) (trackers : β),
    (∀ trackers e, check trackers e = none) →
      c.supervisor.inspect check trackers = ({ c.supervisor with entries := [] }, [], trackers)

theorem sweep_count_of_listed (listed : c.supervisor.entries = [(c.id, ())]) :
    c.sweep.2 = c.host.checkIdle.2.idleFor?.toList.length := by
  let check : Host σ → Unit → Option (Host σ × Idle.State) := fun h _ => some h.checkIdle
  show (Idle.Supervisor.collect check c.host c.supervisor.entries).2.1.length = _
  have lives : check c.host (c.id, ()).2 = some (c.host.checkIdle.1, c.host.checkIdle.2) := rfl
  rw [listed, Idle.collect_cons_of_some lives, Idle.Supervisor.collect, List.append_nil]
  cases c.host.checkIdle.2.idleFor? <;> rfl

theorem metrics_expire (c : Connection σ) (e : Idle.Expiry Unit) :
    (c.expire e).host.house.metrics = c.host.house.metrics.record .idleTimeout := by
  let told := (c.host.count .idleTimeout).log (Idle.expiryLine e.id e.idleFor)
  show (told.abort (.idleTimeout e.idleFor)).house.metrics = _
  rcases Host.abort_cases told (.idleTimeout e.idleFor) with same | ⟨-, aborted⟩
  · rw [same]
    rfl
  · rw [aborted]
    rfl

theorem leftBehind_of_listed (listed : c.supervisor.entries = [(c.id, ())]) : LeftBehind c := by
  have count := sweep_count_of_listed listed
  have dropped {β : Type} (check : β → Unit → Option (β × Idle.State)) (trackers : β)
      (gone : ∀ trackers e, check trackers e = none) :
      c.supervisor.inspect check trackers = ({ c.supervisor with entries := [] }, [], trackers) := by
    rw [Idle.Supervisor.inspect, Idle.collect_of_gone gone]
  rcases c.host.session.tracker.check_cases c.host.session.config.idleTimeout c.host.now with
    ⟨quiet, same, why⟩ | ⟨found, -, fresh, inForce, long⟩
  · have unfound : c.host.checkIdle.2.idleFor? = none := quiet
    have unchanged : c.host.checkIdle.1 = c.host := by
      rw [Host.checkIdle]
      dsimp only
      rw [same]
    have still : c.sweep = (c, 0) := by
      refine Prod.ext ?_ ?_
      · rw [sweep_of_listed listed, unfound, unchanged]
        rfl
      · rw [count, unfound]
        rfl
    have timely : ¬c.Overdue := by
      rintro ⟨fresh, inForce, long⟩
      rcases why with flagged | off | early
      · cases flagged.symm.trans fresh
      · exact inForce off
      · exact Nat.not_lt.mpr long early
    exact ⟨listed, fun overdue => (timely overdue).elim, fun _ => still, dropped⟩
  · let after := c.host.session.tracker.idleFor c.host.now
    have struck : c.host.checkIdle.2.idleFor? = some after := found
    have swept : c.sweep.1 =
        ({ c with host := c.host.checkIdle.1 } : Connection σ).expire ⟨c.id, (), after⟩ := by
      rw [sweep_of_listed listed, struck]
      rfl
    refine ⟨listed, fun _ => ⟨?_, ?_, ?_⟩, fun timely => ?_, dropped⟩
    · rw [count, struck]
      rfl
    · rw [swept]
      exact abort_ne_none _ _
    · rw [swept, metrics_expire]
      rfl
    · exact (timely ⟨fresh, inForce, long⟩).elim

/-- After every run of a supervised connection that is over, whatever is done later: if it was closed
    or has failed, no sweep hears of it again, held or not.  If the application crashed over it, it is
    still registered; a sweep then reports it, counts an idle timeout and aborts it just if it is
    overdue, as long as somebody holds its session, and drops it when nobody does. -/
theorem registered_until_left (app : Application σ) (memory : σ) (handler : Handler)
    (id : ConnectionId) (config : Config) (interval : Duration) (house : House)
    (bs more : List Beat) :
    let c := beats app (establish true memory handler id config interval house) bs
    let d := beats app c more
    (c.running = true → c.supervisor.entries = [(id, ())]) ∧
      ∀ ending, c.phase = .finished ending → d.phase = .finished ending ∧ d.id = id ∧
        match ending with
        | .closed _ | .failed _ => Forgotten d
        | .crashed _ => LeftBehind d := by
  intro c d
  have registered : Registered id c :=
    registered_beats (registered_establish memory handler id config interval house) bs
  have later : Registered id d := registered_beats registered more
  refine ⟨fun running => (registered.enrolled running).entries, fun ending finished => ?_⟩
  have still : d.phase = .finished ending := finished_beats finished more
  have entries := later.entries
  rw [still] at entries
  refine ⟨still, later.named, ?_⟩
  cases ending with
  | closed code => exact forgotten_of_unlisted entries
  | failed e => exact forgotten_of_unlisted entries
  | crashed p =>
    refine leftBehind_of_listed ?_
    rw [entries, later.named]
    rfl

/-- A CLOSE, and much later a sweep while the session is still held. -/
theorem registered_until_left_of_close :
    let app : Application Unit := ⟨.none, fun s _ => (s, ⟨[], .succeed⟩), fun _ => false⟩
    let bs : List Beat := [.act (.start true), .step, .step,
      .act (.arrive [.close .normal ""]), .step, .step]
    let c := beats app (establish true () .direct ⟨1⟩ .standard (.ofSeconds 1 0) .empty) bs
    let d := beats app c [.clock 31000000000 .none]
    c.phase = .finished (.closed .normal) ∧ d.Overdue ∧ d.supervisor.entries = [] ∧
      d.sweep = (d, 0) := by
  intro app bs c d
  have finished : c.phase = .finished (.closed .normal) := by decide
  have overdue : d.Overdue := by
    unfold Overdue
    decide
  have whole := (registered_until_left app () .direct ⟨1⟩ .standard (.ofSeconds 1 0) .empty bs
    [.clock 31000000000 .none]).2 _ finished
  have forgotten : Forgotten d := whole.2.2
  exact ⟨finished, overdue, forgotten.entries, forgotten.unswept⟩

/-- A crash over a PING instead: the connection is over, and the sweep reports it, counts an idle
    timeout and aborts it. -/
theorem told_after_crash :
    let p : Panic := .text "out of order"
    let app : Application Unit :=
      ⟨.none, fun s e => (s, ⟨[], if e = .opened then .succeed else .panic p⟩), fun _ => false⟩
    let c := beats app (establish true () .direct ⟨1⟩ .standard (.ofSeconds 1 0) .empty)
      [.act (.start true), .step, .step, .act (.arrive [.ping []]), .step]
    let d := beats app c [.clock 31000000000 .none]
    c.phase = .finished (.crashed p) ∧ c.supervisor.entries = [(⟨1⟩, ())] ∧ d.sweep.2 = 1 ∧
      d.sweep.1.host.house.metrics.idleTimeouts = d.host.house.metrics.idleTimeouts + 1 ∧
      d.sweep.1.host.session.abortReason = some (.idleTimeout (.ofSeconds 31 0)) := by
  decide

end Connection

end WebSocketEngine
