import WebSocketEngine.Proofs.Connection.Course

/-!
Keep-alive traffic makes no difference.

A PING or PONG frame is a detour of the driver: it hands the frame over, answers it, takes back the
unit of demand that it had spent, and reads on as if nothing had happened (`Beside`).

    reading false ── hands over ──▶ serving ──▶ reading true ── takes ──▶ reading false
                                       └────────────────────────────────────────▲

So of two courses that differ only in such frames, the one with more of them does what the other
does and sends further PONG frames at most (`beside_course`), as long as no unit of demand is lost
on the detour: there the counter must not stand at its highest value (`Roomy`).
-/

namespace WebSocketEngine

variable {σ : Type} {α : Type}

/-! ### Padding -/

/-- The second list is the first with some further elements, which have the property `P`. -/
inductive Padded (P : α → Prop) : List α → List α → Prop
  | nil : Padded P [] []
  | same (a : α) {xs ys : List α} : Padded P xs ys → Padded P (a :: xs) (a :: ys)
  | extra {a : α} {xs ys : List α} : P a → Padded P xs ys → Padded P xs (a :: ys)

namespace Padded

variable {P : α → Prop} {ws xs ys zs : List α}

theorem refl (P : α → Prop) (xs : List α) : Padded P xs xs := by
  induction xs with
  | nil => exact .nil
  | cons a xs ih => exact .same a ih

theorem append (first : Padded P ws xs) (second : Padded P ys zs) :
    Padded P (ws ++ ys) (xs ++ zs) := by
  induction first with
  | nil => exact second
  | same a _ ih => exact .same a ih
  | extra holds _ ih => exact .extra holds ih

theorem extras (all : ∀ a ∈ xs, P a) (padded : Padded P ys zs) : Padded P ys (xs ++ zs) := by
  induction xs with
  | nil => exact padded
  | cons a xs ih =>
    exact .extra (all a List.mem_cons_self) (ih fun b mem => all b (List.mem_cons_of_mem a mem))

theorem eq_nil (padded : Padded P xs []) : xs = [] := by
  cases padded
  rfl

end Padded

/-- A PING or PONG frame. -/
def Frame.KeepsAlive (f : Frame) : Prop := f.op = .ping ∨ f.op = .pong

/-- Where the application is told of PING and PONG frames, it remembers nothing of them, does
    nothing and does not crash. -/
def Application.Heedless (app : Application σ) : Prop :=
  app.hooks.onControl = true → ∀ s f, (app.react s (.control f)).1 = s ∧
    (app.react s (.control f)).2.acts = [] ∧ ∀ p, (app.react s (.control f)).2.reply ≠ .panic p

/-! ### The detour -/

namespace Host

variable {app : Application σ} {h : Host σ}

/-- Nobody takes notice of a PING or PONG frame. -/
theorem aloof_callIf_control (heedless : app.Heedless) (h : Host σ) (f : Frame) :
    Aloof h (h.callIf app app.hooks.onControl (.control f)).1 ∧
      ∀ p, (h.callIf app app.hooks.onControl (.control f)).2 ≠ .panic p := by
  cases installed : app.hooks.onControl with
  | false => exact ⟨aloof_refl h, fun p => Reply.noConfusion⟩
  | true =>
    obtain ⟨memory, idle, calm⟩ := heedless installed h.memory f
    refine ⟨?_, calm⟩
    rw [callIf, if_pos rfl, call]
    dsimp only
    rw [memory, idle]
    exact aloof_note h rfl rfl

/-- A PING or PONG frame goes by. -/
theorem settleFrame_control_heedless (heedless : app.Heedless) (h : Host σ) (f : Frame)
    (t : Ticket) : ∃ k, Aloof h k ∧ k.callbacks = h.callbacks ∧
      h.settleFrame app f t .control = ((k.resolve t (.ok ())).giveBack, none) := by
  obtain ⟨aloof, calm⟩ := aloof_callIf_control heedless h f
  refine ⟨_, aloof, callbacks_callIf app h _ _, ?_⟩
  cases called : h.callIf app app.hooks.onControl (.control f) with
  | mk k reply =>
    rw [called] at calm
    cases reply with
    | panic p => exact (calm p rfl).elim
    | succeed | fail _ | drop | hold => simp only [settleFrame, called]

/-- The last callback has succeeded, and some units of demand were given back. -/
structure Repays (units : UInt64) (h k : Host σ) : Prop where
  gist : k.gist = { h.gist with demand := h.gist.demand + units, verdict := some (.ok ()) }
  accepted : k.accepted = h.accepted
  tidy : h.Tidy → k.Tidy

/-- What a PING or PONG frame has cost is given back. -/
theorem repays_frame (heedless : app.Heedless) {a : Assembly.Assembler}
    (handler : h.handler = .assembling a) (attached : a.attached = true) {f : Frame}
    (keepsAlive : f.KeepsAlive) {t : Ticket} (mine : h.Mine t) :
    (h.frame app f t).2 = none ∧
      Repays (if h.session.config.demanding then 1 else 0) h (h.frame app f t).1 := by
  have noted := aloof_note h (n := .handed (.frame f)) rfl rfl
  have handling : (h.note (.handed (.frame f))).handler = .assembling a := handler
  have stepped : a.step app.hooks (h.note (.handed (.frame f))).session.config f =
      (a, [], .control) := by
    unfold Assembly.Assembler.step
    rcases keepsAlive with op | op <;> rw [op]
  have mine : (h.note (.handed (.frame f))).Mine t := mine.of_callbacks rfl
  unfold frame
  dsimp only
  generalize h.note (.handed (.frame f)) = h' at *
  have same : { h' with handler := .assembling a } = h' := by rw [← handling]
  rw [handling]
  dsimp only
  rw [stepped, List.foldl_nil, same]
  obtain ⟨k, aloof, callbacks, settled⟩ := settleFrame_control_heedless heedless h' f t
  rw [settled, resolve_mine (mine.of_callbacks callbacks)]
  have went : Aloof h k := noted.trans aloof
  have config : k.session.config = h.session.config := congrArg Gist.config went.gist
  have attending : k.attached = true := by
    rw [attached_of_gist went.gist, Host.attached, handler]
    exact attached
  let w := { k with verdict := some (.ok ()) }.wake .driver
  have given : w.giveBack = if h.session.config.demanding then w.grant 1 else w := by
    unfold giveBack
    rw [show w.session.config = h.session.config from config, show w.attached = true from attending,
      Bool.and_true]
  have tidy (before : h.Tidy) : w.Tidy := by
    have after := went.tidy before
    exact Tidy.wake ⟨after.ready, after.parked, after.outbox⟩
  refine ⟨rfl, ?_⟩
  show Repays _ h w.giveBack
  rw [given]
  split
  · refine ⟨?_, went.accepted, fun before => (tidy before).grant 1⟩
    rw [← went.gist]
    rfl
  · refine ⟨?_, went.accepted, tidy⟩
    rw [← went.gist, UInt64.add_zero]
    rfl

end Host

namespace Connection

variable {app : Application σ} {s t s' t' : Connection σ} {units : UInt64}

open Host (Gist)

/-- The first stream is the second with further PING and PONG frames. -/
def Thinned (s t : Stream) : Prop := Padded Frame.KeepsAlive t.1 s.1 ∧ t.2 = s.2

/-- The driver of `s` is on a detour, and `t` waits for a frame meanwhile; on the way, `s` has some
    units more. -/
structure Away (units : UInt64) (s t : Connection σ) : Prop where
  reading : t.phase = .reading false
  free : t.host.signalled = false
  gist : s.host.gist = { t.host.gist with demand := t.host.gist.demand + units }
  tidy : s.host.Tidy
  stream : Thinned (s.inbound, s.ended) (t.inbound, t.ended)

/-- The run of `s` has come as far as the run of `t`, or is on a detour from there. -/
inductive Beside (app : Application σ) (s t : Connection σ) : Prop
  | level (abreast : Abreast Thinned s.host.accepted t.host.accepted s t)
  /-- A further PING or PONG frame is served. -/
  | serves {f : Frame} (keepsAlive : f.KeepsAlive) (serving : s.phase = .serving f)
    (away : Away (if t.host.demanding app then 1 else 0) s t)
  /-- The unit that was given back is taken again. -/
  | asks (reading : s.phase = .reading true) (demanding : t.host.demanding app = true)
    (away : Away 1 s t)

/-- A driver that waits for a frame has heard of the success of its last callback, its handler is an
    assembler with a session, and if that asks for frames, one more unit of demand can be
    counted. -/
def Roomy (phase : Phase) (g : Gist σ) : Prop :=
  phase = .reading false → g.verdict = some (.ok ()) ∧
    (∃ a, g.handler = .assembling a ∧ a.attached = true) ∧
      (g.config.demanding = true → g.demand + 1 ≠ 0)

theorem Roomy.room (roomy : Roomy t.phase t.host.gist) (reading : t.phase = .reading false)
    (demanding : t.host.demanding app = true) : t.host.session.demand + 1 ≠ 0 := by
  obtain ⟨-, ⟨a, handler, -⟩, room⟩ := roomy reading
  have handler : t.host.handler = .assembling a := handler
  rw [Host.demanding, handler] at demanding
  exact room demanding

/-- A PONG frame with a mark: it answers a PING. -/
def Marked (x : Frame × Bool) : Prop := x.1.op = .pong ∧ x.2 = true

/-- The detour is over. -/
theorem Away.back (away : Away 0 s t) (reading : s.phase = .reading false) : Beside app s t := by
  have gist : t.host.gist = s.host.gist := by
    rw [away.gist, UInt64.add_zero]
  exact .level ⟨away.reading.trans reading.symm, Host.alike_of_gist gist away.tidy,
    .inr away.stream⟩

theorem demanding_of_away (away : Away units s t) :
    s.host.demanding app = t.host.demanding app := by
  have handler : s.host.handler = t.host.handler := congrArg Gist.handler away.gist
  have config : s.host.session.config = t.host.session.config := congrArg Gist.config away.gist
  have memory : s.host.memory = t.host.memory := congrArg Gist.memory away.gist
  rw [Host.demanding, Host.demanding, handler, config, memory]

theorem signalled_of_away (away : Away units s t) : s.host.signalled = t.host.signalled := by
  have reason : s.host.session.abortReason = t.host.session.abortReason :=
    congrArg Gist.abortReason away.gist
  have stopping : s.host.shutdown = t.host.shutdown := congrArg Gist.shutdown away.gist
  rw [Host.signalled, Host.signalled, reason, stopping]

/-- The driver hands over a PING or PONG frame that the other run does not have. -/
theorem beside_dispatch (heedless : app.Heedless) (gist : t.host.gist = s.host.gist)
    (tidy : s.host.Tidy) (roomy : Roomy t.phase t.host.gist) (reading : t.phase = .reading false)
    (free : t.host.signalled = false) {f : Frame} {rest : List Frame}
    (keepsAlive : f.KeepsAlive) (stream : Thinned (rest, s.ended) (t.inbound, t.ended)) :
    let s' := { s with inbound := rest }.dispatch app f
    Beside app s' t ∧ s'.host.accepted = s.host.accepted := by
  obtain ⟨verdict, ⟨a, handler, attached⟩, -⟩ := roomy reading
  have handler : t.host.handler = .assembling a := handler
  have same : t.host.handler = s.host.handler := congrArg Gist.handler gist
  have config : t.host.session.config = s.host.session.config := congrArg Gist.config gist
  let waiting := (handOver (s.host.touch.count .inbound)).1
  let ticket := (handOver (s.host.touch.count .inbound)).2
  have attending : waiting.handler = .assembling a := same.symm.trans handler
  have mine : waiting.Mine ticket := rfl
  obtain ⟨calm, repays⟩ := Host.repays_frame heedless attending attached keepsAlive mine
  have dispatched : { s with inbound := rest }.dispatch app f =
      { s with
        inbound := rest, host := (waiting.frame app f ticket).1, phase := .serving f } := by
    unfold dispatch
    exact unlessCrashed_of_none calm _
  dsimp only
  rw [dispatched]
  refine ⟨.serves keepsAlive rfl ⟨reading, free, ?_, ?_, stream⟩, repays.accepted⟩
  · have asks : t.host.demanding app = waiting.session.config.demanding := by
      rw [Host.demanding, handler, config]
      rfl
    have begun : waiting.gist = { t.host.gist with verdict := none } := by
      rw [gist]
      rfl
    rw [asks]
    show (waiting.frame app f ticket).1.gist = _
    rw [repays.gist, begun, ← verdict]
  · exact repays.tidy ⟨tidy.ready, tidy.parked, tidy.outbox⟩

/-- The driver has served a PING or PONG frame. -/
theorem beside_conclude {f : Frame} (keepsAlive : f.KeepsAlive)
    (away : Away (if t.host.demanding app then 1 else 0) s t) (patience : Nat) :
    Beside app ({ s with patience }.conclude app f) t ∧
      ({ s with patience }.conclude app f).isReading = true := by
  have going : f.closeCode = none := by
    unfold Frame.closeCode
    rcases keepsAlive with op | op <;> rw [op] <;> rfl
  have gist : (sendPong s.host f).gist = s.host.gist := gist_sendPong s.host f
  have asks : (sendPong s.host f).demanding app = t.host.demanding app :=
    (Host.demanding_of_gist gist).trans (demanding_of_away away)
  let d : Connection σ := { s with
    patience, host := sendPong s.host f, phase := .reading (t.host.demanding app) }
  have concluded : { s with patience }.conclude app f = d := by
    unfold conclude read
    rw [going]
    dsimp only
    rw [asks]
  rw [concluded]
  have tidy : d.host.Tidy := (sends_sendPong s.host f).tidy away.tidy
  have away : Away (if t.host.demanding app then 1 else 0) d t :=
    ⟨away.reading, away.free, gist.trans away.gist, tidy, away.stream⟩
  refine ⟨?_, rfl⟩
  cases demanding : t.host.demanding app with
  | true =>
    rw [demanding] at away
    exact .asks (congrArg Phase.reading demanding) demanding away
  | false =>
    rw [demanding] at away
    exact away.back (congrArg Phase.reading demanding)

/-- A unit is taken again. -/
theorem beside_take (away : Away 1 s t) {session : Session}
    (taken : s.host.session.take? = some session) :
    Beside app { s with
      host := { s.host with session }.note .took, phase := .reading false } t := by
  obtain ⟨-, rfl⟩ := Session.eq_of_take? taken
  refine Away.back ⟨away.reading, away.free, ?_, ?_, away.stream⟩ rfl
  · have less : ({ s.host with session := { s.host.session with
        demand := s.host.session.demand - 1 } }.note .took).gist =
          { s.host.gist with demand := s.host.gist.demand - 1 } :=
      (Host.aloof_note _ rfl rfl).gist
    refine Eq.trans less ?_
    rw [away.gist]
    dsimp only
    rw [UInt64.add_sub_cancel, UInt64.add_zero]
  · exact ⟨away.tidy.ready, away.tidy.parked, away.tidy.outbox⟩

/-- A move of the one run is one of the other, or part of a detour, on which PING frames are
    answered and nothing else is sent. -/
theorem beside_way (heedless : app.Heedless) (roomy : Roomy t.phase t.host.gist)
    (beside : Beside app s t) (way : Way app s s') :
    Beside app s' t ∧ (∀ x ∈ sentBetween s s', Marked x) ∨
      ∃ t', Way app t t' ∧ Beside app s' t' ∧ sentBetween s s' = sentBetween t t' := by
  have silent {s' : Connection σ} (same : s'.host.accepted = s.host.accepted) :
      ∀ x ∈ sentBetween s s', Marked x := by
    rw [sentBetween_of_accepted same]
    exact fun x mem => nomatch mem
  cases beside with
  | level abreast =>
    by_cases detour : s.phase = .reading false ∧ s.host.signalled = false ∧ ∃ f rest,
        s.inbound = f :: rest ∧ f.KeepsAlive ∧ Thinned (rest, s.ended) (t.inbound, t.ended)
    · obtain ⟨reading, free, f, rest, arrived, keepsAlive, stream⟩ := detour
      obtain rfl := way.unique (.hands reading free arrived)
      obtain ⟨beside, same⟩ := beside_dispatch heedless abreast.host.gist abreast.host.tidy roomy
        (abreast.phase.trans reading) ((signalled_of_gist abreast.host.gist).trans free) keepsAlive
        stream
      exact .inl ⟨beside, silent same⟩
    · -- Without a detour, the next frame is the same in both runs.
      have meets (reading : s.phase = .reading false) (free : s.host.signalled = false) :
          Meets Thinned s t := by
        obtain ⟨padded, ended⟩ : Thinned (s.inbound, s.ended) (t.inbound, t.ended) := by
          refine abreast.stream.resolve_left fun ⟨_, finished⟩ => ?_
          cases reading.symm.trans finished
        dsimp only at padded ended
        refine ⟨fun f rest arrived => ?_, fun empty last => ?_⟩
        · rw [arrived] at padded
          generalize inbound : t.inbound = xs at padded
          cases padded with
          | same _ onward => exact ⟨_, rfl, onward, ended⟩
          | extra alive onward =>
            exact (detour ⟨reading, free, f, rest, arrived, alive, inbound ▸ onward, ended⟩).elim
        · rw [empty] at padded
          exact ⟨padded.eq_nil, ended.trans last⟩
      obtain ⟨t', way', abreast'⟩ := abreast_way abreast way meets
      exact .inr ⟨t', way', .level abreast'.rebase, abreast'.sent abreast.phase⟩
  | serves keepsAlive serving away =>
    have ok : s.host.verdict = some (.ok ()) :=
      (congrArg Gist.verdict away.gist).trans (roomy away.reading).1
    obtain rfl := way.unique (.concludes serving ok)
    obtain ⟨beside, reads⟩ := beside_conclude keepsAlive away (s.patience - 1)
    have busy : s.isReading = false := by rw [isReading, serving]
    refine .inl ⟨beside, fun x mem => ?_⟩
    obtain ⟨g, sent, rfl⟩ := List.mem_map.mp mem
    obtain ⟨_, -, -, rfl⟩ := pong_of_way way busy reads sent
    exact ⟨rfl, (Bool.and_eq_true _ _).mpr ⟨reads, by rw [busy]; rfl⟩⟩
  | asks reading demanding away =>
    have free : s.host.signalled = false := (signalled_of_away away).trans away.free
    have demand : s.host.session.demand ≠ 0 := by
      rw [show s.host.session.demand = _ from congrArg Gist.demand away.gist]
      exact roomy.room away.reading demanding
    have taken : s.host.session.take? = some { s.host.session with
        demand := s.host.session.demand - 1 } := if_neg demand
    obtain rfl := way.unique (.takes reading free taken)
    exact .inl ⟨beside_take away taken, silent (Host.aloof_note _ rfl rfl).accepted⟩

/-! ### Courses -/

theorem Course.fit {Fit : Phase → Gist σ → Prop} {sent : List (Frame × Bool)}
    (course : Course app Fit s sent t) : Fit s.phase s.host.gist := by
  cases course with
  | rest fit => exact fit
  | move fit _ _ => exact fit

/-- A driver that has to wait goes nowhere. -/
theorem Course.stays {Fit : Phase → Gist σ → Prop} {sent : List (Frame × Bool)}
    (course : Course app Fit s sent t) (lacks : s.Lacks) : sent = [] ∧ t = s := by
  cases course with
  | rest fit => exact ⟨rfl, rfl⟩
  | move fit way onward => cases (turn_eq_none_iff.mpr lacks).symm.trans (turn_of_way way)

/-- A driver has nothing to wait for on a detour. -/
theorem beside_lacks (roomy : Roomy t.phase t.host.gist) (beside : Beside app s t)
    (lacks : s.Lacks) : Abreast Thinned s.host.accepted t.host.accepted s t ∧ t.Lacks := by
  cases beside with
  | level abreast =>
    exact ⟨abreast, abreast.lacks lacks fun stream => ⟨stream.1.eq_nil, stream.2⟩⟩
  | serves keepsAlive serving away =>
    unfold Lacks at lacks
    rw [serving] at lacks
    have ok : s.host.verdict = some (.ok ()) :=
      (congrArg Gist.verdict away.gist).trans (roomy away.reading).1
    cases ok.symm.trans lacks.1
  | asks reading demanding away =>
    unfold Lacks at lacks
    rw [reading] at lacks
    have demand : s.host.session.demand = t.host.session.demand + 1 :=
      congrArg Gist.demand away.gist
    exact (roomy.room away.reading demanding (demand.symm.trans lacks.2)).elim

/-- Two courses up to where the drivers have to wait. -/
theorem beside_course (heedless : app.Heedless) {long short : List (Frame × Bool)}
    {Fit : Phase → Gist σ → Prop} (course : Course app Fit s long s') (lacks : s'.Lacks)
    (beside : Beside app s t) (other : Course app Roomy t short t') (lacks' : t'.Lacks) :
    Abreast Thinned s'.host.accepted t'.host.accepted s' t' ∧ Padded Marked short long := by
  induction course generalizing t short with
  | rest fit =>
    obtain ⟨abreast, waits⟩ := beside_lacks other.fit beside lacks
    obtain ⟨rfl, rfl⟩ := other.stays waits
    exact ⟨abreast, .nil⟩
  | move fit way onward ih =>
    rcases beside_way heedless other.fit beside way with ⟨detour, marked⟩ | ⟨u, way', level, same⟩
    · obtain ⟨abreast, padded⟩ := ih lacks detour other
      exact ⟨abreast, padded.extras marked⟩
    · cases other with
      | rest fit' => cases (turn_eq_none_iff.mpr lacks').symm.trans (turn_of_way way')
      | move fit' taken onward' =>
        obtain rfl := taken.unique way'
        obtain ⟨abreast, padded⟩ := ih lacks level onward'
        rw [same]
        exact ⟨abreast, (Padded.refl Marked _).append padded⟩

end Connection

end WebSocketEngine
