import WebSocketEngine.Proofs.Connection.Abreast
import WebSocketEngine.Proofs.Connection.Awake

/-!
What the driver makes of its stream does not depend on when the frames arrive.

While nothing is done from outside but that frames arrive and are written, the driver makes the
moves of a connection at which all of them have arrived before (`course_beats`).  Such a course of
moves is marked with what is sent: a frame that is sent as the driver goes on to read answers a PING
(`pong_of_marked`).
-/

namespace WebSocketEngine.Connection

variable {σ : Type} {app : Application σ} {w : Watch} {c d e c' d' : Connection σ}
  {fs gs : List Frame}

open Host (Aloof Gist)

/-! ### What is sent -/

/-- The frames that are accepted in between, with a mark where the driver goes on to read. -/
def sentBetween (c d : Connection σ) : List (Frame × Bool) :=
  (d.host.accepted.drop c.host.accepted.length).map (·, d.isReading && !c.isReading)

/-- The frames that are accepted from beat to beat, with a mark at the driver's answers to PING
    frames. -/
def sendings (app : Application σ) : Connection σ → List Beat → List (Frame × Bool)
  | _, [] => []
  | c, b :: bs => sentBetween c (c.beat app b) ++ sendings app (c.beat app b) bs

theorem sentBetween_of_accepted (same : d.host.accepted = c.host.accepted) :
    sentBetween c d = [] := by
  rw [sentBetween, same, List.drop_length]
  rfl

/-! ### Beats from inside -/

/-- Nothing is done from outside but that frames arrive and are written. -/
def Beat.inward : Beat → Bool
  | .step | .fetch | .clock _ _ | .act (.arrive _) | .act .endInbound | .act (.write _) => true
  | .act _ => false

theorem atOnce_of_inward {b : Beat} (inward : b.inward = true) : b.atOnce = true := by
  cases b with
  | act x =>
    cases x with
    | arrive _ | endInbound | write _ => rfl
    | _ => cases inward
  | step | fetch | clock _ _ => rfl

/-- No more frames will arrive. -/
def Beat.isEnd : Beat → Bool
  | .act .endInbound => true
  | .act _ | .step | .fetch | .clock _ _ => false

/-- What will have arrived when the beats are over. -/
def whole (bs : List Beat) (s : Stream) : Stream :=
  if s.2 then s else (s.1 ++ arrivals bs, bs.any Beat.isEnd)

theorem whole_nil (s : Stream) : whole [] s = s := by
  obtain ⟨frames, ended⟩ := s
  cases ended with
  | true => rfl
  | false => exact Prod.ext (List.append_nil _) rfl

/-- The driver makes no move, and nothing has changed that matters. -/
structure Lull (c d : Connection σ) : Prop where
  aloof : Aloof c.host d.host
  phase : d.phase = c.phase

theorem lull_refl (c : Connection σ) : Lull c c := ⟨Host.aloof_refl _, rfl⟩

theorem lull_fetch (c : Connection σ) : Lull c c.fetch := by
  have noted (queue : List Outbound) (h : Host σ) :
      Aloof h (queue.foldl (fun h o => h.note (.fetched o.frame o.batch)) h) := by
    induction queue generalizing h with
    | nil => exact Host.aloof_refl h
    | cons o queue ih => exact (Host.aloof_note h rfl rfl).trans (ih _)
  unfold fetch
  split
  · exact lull_refl c
  · next queue writer =>
    let emptied := { c.host with session := { c.host.session with outbox := some [] } }
    have emptying : Aloof c.host emptied := by
      refine ⟨?_, rfl, fun tidy => ⟨tidy.ready, tidy.parked, fun queue eq o mem => ?_⟩⟩
      · rw [Host.gist, Host.gist, writer]
        rfl
      · cases eq
        cases mem
    exact ⟨emptying.trans (noted queue emptied), rfl⟩

theorem lull_write (outside : ∀ o ∈ c.fetched, o.ticket.sink.Outside) (how : Completion.Release) :
    Lull c (c.write how).1 ∧ (c.write how).1.inbound = c.inbound ∧
      (c.write how).1.ended = c.ended := by
  unfold write
  split
  · next o rest fetched =>
    have mine : o.ticket.sink.Outside := outside o (fetched ▸ List.mem_cons_self)
    exact ⟨⟨Host.aloof_resolve c.host mine _, rfl⟩, rfl, rfl⟩
  · exact ⟨lull_refl c, rfl, rfl⟩

/-- A step is a move of the driver, or nothing that matters. -/
theorem lull_of_step (tidy : c.host.Tidy) (stepped : c.step app = some d) :
    Way app c d ∨ Lull c d ∧ d.inbound = c.inbound ∧ d.ended = c.ended := by
  have shorter {tasks : List Task} (queue : c.host.ready = .driver :: tasks) :
      Aloof c.host { c.host with ready := tasks } :=
    ⟨rfl, rfl, fun tidy => ⟨fun t mem => tidy.ready t (queue ▸ List.mem_cons_of_mem _ mem),
      tidy.parked, tidy.outbox⟩⟩
  cases pace_of_step stepped with
  | @serves n tasks queue => exact nomatch tidy.ready (.waiter n) (queue ▸ List.mem_cons_self)
  | turns awake way => exact .inl way
  | yields queue tired => exact .inr ⟨⟨(shorter queue).trans (Host.aloof_wake _), rfl⟩, rfl, rfl⟩
  | @rests tasks queue lacks =>
    refine .inr ⟨⟨(shorter queue).trans ?_, rfl⟩, rfl, rfl⟩
    unfold rest
    split
    · refine ⟨rfl, rfl, fun tidy => ⟨tidy.ready, fun t mem => ?_, tidy.outbox⟩⟩
      rcases Host.mem_enqueue.mp mem with old | new
      · exact tidy.parked t old
      · exact new
    · exact Host.aloof_refl _

theorem lull_arrive (c : Connection σ) (frames : List Frame) (bs : List Beat) :
    Lull c (c.arrive frames).1 ∧ (c.Done ∨
      whole bs ((c.arrive frames).1.inbound, (c.arrive frames).1.ended) =
        whole (.act (.arrive frames) :: bs) (c.inbound, c.ended)) := by
  have late (ended : c.ended = true) : whole bs (c.inbound, c.ended) =
      whole (.act (.arrive frames) :: bs) (c.inbound, c.ended) := by
    rw [whole, whole, if_pos ended, if_pos ended]
  unfold arrive
  split
  · next none =>
    obtain rfl := List.isEmpty_iff.mp none
    exact ⟨lull_refl c, .inr rfl⟩
  · split
    · next ending finished => exact ⟨lull_refl c, .inl ⟨ending, finished⟩⟩
    all_goals
      split
      · next ended => exact ⟨lull_refl c, .inr (late ended)⟩
      · next going =>
        refine ⟨⟨Host.aloof_wake _, rfl⟩, .inr ?_⟩
        rw [whole, whole, if_neg going, if_neg going]
        exact Prod.ext (List.append_assoc _ _ _) rfl

/-- A beat from inside is a move of the driver, or more of the stream arrives at most. -/
theorem lull_of_inward (app : Application σ) (tidy : c.host.Tidy)
    (outside : ∀ o ∈ c.fetched, o.ticket.sink.Outside) {b : Beat} (inward : b.inward = true) :
    b = .step ∧ Way app c (c.beat app b) ∨ Lull c (c.beat app b) ∧ ∀ bs, c.Done ∨
      whole bs ((c.beat app b).inbound, (c.beat app b).ended) =
        whole (b :: bs) (c.inbound, c.ended) := by
  have still {d : Connection σ} {b : Beat} (same : ∀ bs, whole (b :: bs) = whole bs)
      (lull : Lull c d ∧ d.inbound = c.inbound ∧ d.ended = c.ended) : Lull c d ∧ ∀ bs, c.Done ∨
        whole bs (d.inbound, d.ended) = whole (b :: bs) (c.inbound, c.ended) := by
    obtain ⟨lull, inbound, ended⟩ := lull
    refine ⟨lull, fun bs => .inr ?_⟩
    rw [inbound, ended, same]
  cases b with
  | step =>
    rw [beat]
    cases stepped : c.step app with
    | none => exact .inr (still (fun _ => rfl) ⟨lull_refl c, rfl, rfl⟩)
    | some d =>
      rcases lull_of_step tidy stepped with way | lull
      · exact .inl ⟨rfl, way⟩
      · exact .inr (still (fun _ => rfl) lull)
  | fetch =>
    refine .inr (still (fun _ => rfl) ⟨lull_fetch c, ?_⟩)
    show c.fetch.inbound = c.inbound ∧ c.fetch.ended = c.ended
    unfold fetch
    split <;> exact ⟨rfl, rfl⟩
  | clock now sweepers =>
    have later : Aloof c.host { c.host with now } :=
      ⟨rfl, rfl, fun tidy => ⟨tidy.ready, tidy.parked, tidy.outbox⟩⟩
    exact .inr (still (fun _ => rfl) ⟨⟨later, rfl⟩, rfl, rfl⟩)
  | act x =>
    cases x with
    | arrive frames =>
      exact .inr ⟨(lull_arrive c frames []).1, fun bs => (lull_arrive c frames bs).2⟩
    | endInbound =>
      refine .inr ⟨⟨Host.aloof_wake c.host, rfl⟩, fun bs => .inr ?_⟩
      show whole bs (c.inbound, true) = whole (.act .endInbound :: bs) (c.inbound, c.ended)
      cases c.ended with
      | true => rfl
      | false => exact Prod.ext (List.append_nil _).symm rfl
    | write how => exact .inr (still (fun _ => rfl) (lull_write outside how))
    | _ => cases inward

/-! ### Courses -/

/-- Moves of the driver one after another, with what is sent; each connection on the way satisfies
    `Fit`. -/
inductive Course (app : Application σ) (Fit : Phase → Gist σ → Prop) :
    Connection σ → List (Frame × Bool) → Connection σ → Prop
  | rest {c : Connection σ} (fit : Fit c.phase c.host.gist) : Course app Fit c [] c
  | move {c d e : Connection σ} {sent : List (Frame × Bool)} (fit : Fit c.phase c.host.gist)
      (way : Way app c d) (onward : Course app Fit d sent e) :
      Course app Fit c (sentBetween c d ++ sent) e

/-- The two are compared from now on. -/
theorem Abreast.rebase {R : Stream → Stream → Prop} (abreast : Abreast R fs gs c d) :
    Abreast R c.host.accepted d.host.accepted c d :=
  ⟨abreast.phase, Host.alike_of_gist abreast.host.gist abreast.host.tidy, abreast.stream⟩

/-- Both have sent the same. -/
theorem Abreast.sent {R : Stream → Stream → Prop}
    (abreast : Abreast R c.host.accepted d.host.accepted c' d') (before : d.phase = c.phase) :
    sentBetween c c' = sentBetween d d' := by
  obtain ⟨new, first, second⟩ := abreast.host.accepted
  have reading {a b : Connection σ} (same : b.phase = a.phase) : b.isReading = a.isReading := by
    rw [isReading, isReading, same]
  rw [sentBetween, sentBetween, first, second, List.drop_left, List.drop_left,
    reading abreast.phase, reading before]

theorem meets_whole {bs : List Beat} (same : (d.inbound, d.ended) = whole bs (c.inbound, c.ended)) :
    Meets (fun s t => t = whole bs s) c d := by
  obtain ⟨inbound, finished⟩ := Prod.ext_iff.mp same
  dsimp only at inbound finished
  refine ⟨fun f rest arrived => ⟨(whole bs (rest, c.ended)).1, ?_, ?_⟩, fun empty ended => ?_⟩
  · rw [inbound, arrived]
    cases c.ended <;> rfl
  · rw [finished, arrived]
    cases c.ended <;> rfl
  · rw [inbound, finished, empty, ended]
    exact ⟨rfl, rfl⟩

/-- Whatever the beats in between, the driver makes the moves that it makes where everything has
    arrived before. -/
theorem course_beats (app : Application σ) (Fit : Phase → Gist σ → Prop) {bs : List Beat}
    (inward : ∀ b ∈ bs, b.inward = true) (follows : Follows w c)
    (abreast : Abreast (fun s t => t = whole bs s) fs gs c d)
    (fit : ∀ pre, pre <+: bs → Fit (beats app c pre).phase (beats app c pre).host.gist) :
    ∃ e, Course app Fit d (sendings app c bs) e ∧ Abreast (fun s t => t = s)
      (beats app c bs).host.accepted e.host.accepted (beats app c bs) e := by
  have fits {fs gs : List Frame} {R : Stream → Stream → Prop} {c d : Connection σ}
      (abreast : Abreast R fs gs c d) (fit : Fit c.phase c.host.gist) :
      Fit d.phase d.host.gist := by
    rwa [abreast.phase, abreast.host.gist]
  induction bs generalizing c d w fs gs with
  | nil =>
    have start := fits abreast (fit [] List.nil_prefix)
    obtain ⟨phase, host, stream⟩ := abreast.rebase
    exact ⟨d, .rest start, phase, host, stream.imp_right fun same => same.trans (whole_nil _)⟩
  | cons b bs ih =>
    have start := fits abreast (fit [] List.nil_prefix)
    have mine := inward b List.mem_cons_self
    have next := (kept_beat app follows (atOnce_of_inward mine)).follows
    have inward' (b' : Beat) (mem : b' ∈ bs) := inward b' (List.mem_cons_of_mem b mem)
    have fit' (pre : List Beat) (before : pre <+: bs) :=
      fit (b :: pre) ((List.prefix_cons_inj b).mpr before)
    rcases lull_of_inward app abreast.host.tidy follows.fetched mine with
      ⟨rfl, way⟩ | ⟨lull, stream⟩
    · -- A move finds in the whole stream what has arrived by now.
      have meets (reading : c.phase = .reading false) :
          Meets (fun s t => t = whole bs s) c d := by
        refine meets_whole (abreast.stream.resolve_left fun ⟨_, finished⟩ => ?_)
        cases reading.symm.trans finished
      obtain ⟨d', way', abreast'⟩ := abreast_way (R := fun s t => t = whole bs s) abreast.rebase way
        fun reading _ => meets reading
      obtain ⟨e, course, final⟩ := ih inward' next abreast' fit'
      rw [sendings, abreast'.sent abreast.phase]
      exact ⟨e, .move start way' course, final⟩
    · have quiet : sentBetween c (c.beat app b) = [] := sentBetween_of_accepted lull.aloof.accepted
      have abreast' : Abreast (fun s t => t = whole bs s) fs gs (c.beat app b) d := by
        refine ⟨abreast.phase.trans lull.phase.symm,
          abreast.host.aloof lull.aloof (Host.aloof_refl _), ?_⟩
        rcases abreast.stream with ⟨ending, finished⟩ | arrived
        · exact .inl ⟨ending, lull.phase.trans finished⟩
        · rcases stream bs with ⟨ending, finished⟩ | same
          · exact .inl ⟨ending, lull.phase.trans finished⟩
          · exact .inr (arrived.trans same.symm)
      obtain ⟨e, course, final⟩ := ih inward' next abreast' fit'
      rw [sendings, quiet]
      exact ⟨e, course, final⟩

/-! ### Answers to PING frames -/

theorem gist_sendPong (h : Host σ) (f : Frame) : (sendPong h f).gist = h.gist := by
  unfold sendPong
  split
  · next due =>
    have unsent : h.session.closeSent = false := by
      simpa using ((Bool.and_eq_true _ _).mp due).2
    cases writer : h.session.outbox with
    | none =>
      rw [Host.send_of_gone h unsent writer]
      refine (Host.aloof_resolve _ (t := .root .silent) trivial _).gist.trans ?_
      rw [Host.gist, Host.gist, unsent]
      rfl
    | some queue =>
      rw [Host.send_of_open h unsent writer, Host.gist, Host.gist, unsent, writer]
      rfl
  · rfl

theorem accepted_sendPong (h : Host σ) (f : Frame) :
    (sendPong h f).accepted = h.accepted ∨
      f.op = .ping ∧ (sendPong h f).accepted = h.accepted ++ [.pong f.payload] := by
  unfold sendPong
  split
  · next due =>
    obtain ⟨ping, unsent⟩ := (Bool.and_eq_true _ _).mp due
    have unsent : h.session.closeSent = false := by simpa using unsent
    cases writer : h.session.outbox with
    | none =>
      rw [Host.send_of_gone h unsent writer]
      exact .inl (Host.aloof_resolve _ (t := .root .silent) trivial _).accepted
    | some queue =>
      rw [Host.send_of_open h unsent writer]
      exact .inr ⟨of_decide_eq_true ping, Host.record_note _ _ _⟩
  · exact .inl rfl

/-- What is sent by a move with which the driver goes on to read answers the PING that it has
    served. -/
theorem pong_of_way (way : Way app c d) (busy : c.isReading = false) (reads : d.isReading = true)
    {g : Frame} (sent : g ∈ d.host.accepted.drop c.host.accepted.length) :
    ∃ f, c.phase = .serving f ∧ f.op = .ping ∧ g = .pong f.payload := by
  have silent {h : Host σ} (same : h.accepted = c.host.accepted)
      (sent : g ∈ h.accepted.drop c.host.accepted.length) : False := by
    rw [same, List.drop_length] at sent
    cases sent
  have still {d : Connection σ} (done : d.Done) (reads : d.isReading = true) : False := by
    obtain ⟨ending, finished⟩ := done
    rw [isReading_of_finished finished] at reads
    cases reads
  cases way with
  | enters =>
    have opening : (c.enter app).isReading = false :=
      isReading_unlessCrashed fun _ (eq : Phase.opening = _) => Phase.noConfusion eq
    exact (Bool.false_ne_true (opening.symm.trans reads)).elim
  | opens => exact (silent rfl sent).elim
  | @concludes f serving ok =>
    unfold conclude at sent reads
    split at sent
    · next code close =>
      rw [close] at reads
      exact (still (ends_finish app _ code).finished reads).elim
    · have sent : g ∈ (sendPong c.host f).accepted.drop c.host.accepted.length := sent
      rcases accepted_sendPong c.host f with same | ⟨ping, answered⟩
      · exact (silent same sent).elim
      · rw [answered, List.drop_left] at sent
        exact ⟨f, serving, ping, List.mem_singleton.mp sent⟩
  | fails | aborts | runsOut => exact (still (ends_fail app c _).finished reads).elim
  | stops => exact (still (ends_finishShutdown app c).finished reads).elim
  | takes reading | hands reading =>
    rw [isReading_of_reading reading] at busy
    cases busy

/-- A frame that has a mark answers the PING that the driver has served. -/
theorem pong_of_marked {b : Beat} (atOnce : b.atOnce = true) {g : Frame}
    (marked : (g, true) ∈ sentBetween c (c.beat app b)) :
    ∃ f, c.phase = .serving f ∧ f.op = .ping ∧ g = .pong f.payload := by
  obtain ⟨g', sent, eq⟩ := List.mem_map.mp marked
  obtain ⟨rfl, goesOn⟩ := Prod.ext_iff.mp eq
  obtain ⟨reads, busy⟩ := (Bool.and_eq_true _ _).mp goesOn
  have busy : c.isReading = false := by simpa using busy
  have nudged {d : Connection σ} (nudges : Nudges c d) (reads : d.isReading = true) : False := by
    unfold isReading at busy reads
    rcases nudges.phase with same | ⟨-, starting⟩
    · rw [same, busy] at reads
      cases reads
    · rw [starting] at reads
      cases reads
  cases b with
  | act x => exact (nudged (nudges_act app c atOnce) reads).elim
  | fetch => exact (nudged (nudges_fetch c) reads).elim
  | clock now sweepers => exact (nudged (nudges_clock c now sweepers) reads).elim
  | step =>
    rw [beat] at sent reads
    cases stepped : c.step app with
    | none =>
      rw [stepped] at reads
      exact (nudged (nudges_refl c) reads).elim
    | some d =>
      rw [stepped] at sent reads
      cases pace_of_step stepped with
      | turns awake way => exact pong_of_way way busy reads sent
      | serves queue | yields queue tired | rests queue lacks =>
        exact (Bool.false_ne_true (busy.symm.trans reads)).elim

/-! ### The session of an assembler -/

/-- The handler is an assembler, and its session was opened before anything is read. -/
def Staffed (c : Connection σ) : Prop :=
  match c.phase with
  | .idle | .starting => ∃ a, c.host.handler = .assembling a
  | .opening | .reading _ | .serving _ => c.host.attached = true
  | .finished _ => True

theorem staffed_of_done (done : c.Done) : c.Staffed := by
  obtain ⟨ending, finished⟩ := done
  rw [Staffed, finished]
  trivial

theorem Staffed.same (staffed : c.Staffed) (handler : d.host.handler = c.host.handler)
    (phase : d.phase = c.phase ∨ c.phase = .idle ∧ d.phase = .starting) : d.Staffed := by
  have attached : d.host.attached = c.host.attached := by
    rw [Host.attached, Host.attached, handler]
  unfold Staffed at staffed ⊢
  rw [handler, attached]
  rcases phase with same | ⟨idle, starting⟩
  · rwa [same]
  · rw [idle] at staffed
    rwa [starting]

theorem staffed_unlessCrashed {r : Host σ × Option Panic} {phase : Phase}
    (onward : r.2 = none → ({ c with host := r.1, phase } : Connection σ).Staffed) :
    (c.unlessCrashed r ({ · with phase })).Staffed := by
  unfold unlessCrashed
  dsimp only
  split
  · exact staffed_of_done ⟨_, (quits_crash _ _).finished⟩
  · next calm => exact onward calm

theorem staffed_way (staffed : c.Staffed) (way : Way app c d) : d.Staffed := by
  unfold Staffed at staffed
  cases way with
  | enters starting =>
    rw [starting] at staffed
    obtain ⟨a, handler⟩ := staffed
    unfold enter
    refine staffed_unlessCrashed fun calm => ?_
    refine Host.attached_opened app _ (a := a) ?_ _ calm
    exact handler
  | opens opening ok =>
    rw [opening] at staffed
    exact staffed
  | @concludes f serving ok =>
    rw [serving] at staffed
    unfold conclude
    split
    · exact staffed_of_done (ends_finish app _ _).finished
    · exact (Host.attached_of_gist (gist_sendPong c.host f)).trans staffed
  | takes reading free taken =>
    rw [reading] at staffed
    exact staffed
  | hands reading free arrived =>
    rw [reading] at staffed
    unfold dispatch
    refine staffed_unlessCrashed fun _ => ?_
    unfold Staffed
    rw [Host.attached_frame]
    exact staffed
  | fails | aborts | runsOut => exact staffed_of_done (ends_fail app c _).finished
  | stops => exact staffed_of_done (ends_finishShutdown app c).finished

end WebSocketEngine.Connection
