import WebSocketEngine.Proofs.Connection.Ways
import WebSocketEngine.Proofs.Host.Alike

/-!
Two connections whose drivers make the same moves.

They are in the same phase, with hosts of the same gist.  What has arrived at the one stands in some
relation to what has arrived at the other (`Abreast`).  Then each move of the one is a move of the
other, if it finds the same frame there to hand over, or the same end; afterwards they are abreast
again, and have sent the same frames meanwhile (`abreast_way`).
-/

namespace WebSocketEngine.Connection

variable {σ : Type} {app : Application σ} {c d c' d' : Connection σ} {fs gs : List Frame}

open Host (Alike Alikes Aloof Gist)

/-- What has arrived and was not read, and whether that is all. -/
abbrev Stream := List Frame × Bool

/-- Nothing is read from the stream of a connection that is over. -/
structure Abreast (R : Stream → Stream → Prop) (fs gs : List Frame) (c d : Connection σ) :
    Prop where
  phase : d.phase = c.phase
  host : Alike fs gs c.host d.host
  stream : c.Done ∨ R (c.inbound, c.ended) (d.inbound, d.ended)

variable {R : Stream → Stream → Prop}

/-! ### Sending -/

theorem alike_sendClose {h k : Host σ} (alike : Alike fs gs h k) (code : CloseCode)
    (reason : String) : Alike fs gs (sendClose h code reason) (sendClose k code reason) := by
  have closed : k.session.closeSent = h.session.closeSent := congrArg Gist.closeSent alike.gist
  unfold sendClose
  rw [closed]
  split
  · exact alike
  · refine Host.alike_send alike _ ?_ ?_ false <;> exact trivial

theorem alike_sendPong {h k : Host σ} (alike : Alike fs gs h k) (f : Frame) :
    Alike fs gs (sendPong h f) (sendPong k f) := by
  have closed : k.session.closeSent = h.session.closeSent := congrArg Gist.closeSent alike.gist
  unfold sendPong
  rw [closed]
  split
  · refine Host.alike_send alike _ ?_ ?_ false <;> exact trivial
  · exact alike

/-! ### Ways out -/

/-- The connection is over, and nothing else has changed that matters. -/
structure Quits (c d : Connection σ) (ending : Ending) : Prop where
  aloof : Aloof c.host d.host
  finished : d.phase = .finished ending

theorem quits_release (c : Connection σ) (ending : Ending) : Quits c (c.release ending) ending := by
  let freed := { c.host with
    house := { c.host.house with running := c.host.house.running - 1 }
    parked := c.host.parked.erase .driver }
  have begun : Aloof c.host freed :=
    ⟨rfl, rfl, fun tidy => ⟨tidy.ready, fun t mem => tidy.parked t (List.mem_of_mem_erase mem),
      tidy.outbox⟩⟩
  exact ⟨(begun.trans (Host.aloof_count _ _)).trans (Host.aloof_log _ _), rfl⟩

theorem quits_leave (c : Connection σ) (ending : Ending) : Quits c (c.leave ending) ending := by
  unfold leave
  dsimp only
  split
  · obtain ⟨aloof, finished⟩ :=
      quits_release { c with supervisor := c.supervisor.deregister c.id } ending
    exact ⟨aloof, finished⟩
  · exact quits_release c ending

theorem quits_crash (c : Connection σ) (p : Panic) : Quits c (c.crash p) (.crashed p) := by
  obtain ⟨aloof, finished⟩ := quits_release c (.crashed p)
  unfold crash
  dsimp only
  split
  · exact ⟨(aloof.trans (Host.aloof_count _ _)).trans (Host.aloof_foldl_log _ _), finished⟩
  · exact ⟨aloof, finished⟩

/-- Both are over in the same way. -/
theorem Quits.abreast {ending : Ending} (first : Quits c c' ending) (second : Quits d d' ending)
    (alike : Alike fs gs c.host d.host) : Abreast R fs gs c' d' where
  phase := second.finished.trans first.finished.symm
  host := alike.aloof first.aloof second.aloof
  stream := .inl ⟨ending, first.finished⟩

/-- After a callback, and after the crash of one. -/
theorem abreast_unlessCrashed {r s : Host σ × Option Panic} (alikes : Alikes fs gs r s)
    {next next' : Connection σ → Connection σ}
    (onward : Abreast R fs gs (next { c with host := r.1 }) (next' { d with host := s.1 })) :
    Abreast R fs gs (c.unlessCrashed r next) (d.unlessCrashed s next') := by
  unfold unlessCrashed
  rw [alikes.answer]
  dsimp only
  split
  · exact (quits_crash _ _).abreast (quits_crash _ _) alikes.host
  · exact onward

theorem abreast_leave (alike : Alike fs gs c.host d.host) (ending : Ending) :
    Abreast R fs gs (c.leave ending) (d.leave ending) :=
  (quits_leave c ending).abreast (quits_leave d ending) alike

theorem abreast_finish (app : Application σ) (alike : Alike fs gs c.host d.host)
    (code : CloseCode) : Abreast R fs gs (c.finish app code) (d.finish app code) := by
  have logged := alike.aloof (Host.aloof_log c.host (closedLine c.id code))
    (Host.aloof_log d.host (closedLine d.id code))
  have closed := Host.alike_closed app logged code
  unfold finish
  exact abreast_unlessCrashed closed (abreast_leave closed.host _)

theorem abreast_fail (app : Application σ) (alike : Alike fs gs c.host d.host) (e : Failure) :
    Abreast R fs gs (c.fail app e) (d.fail app e) := by
  have begun (c : Connection σ) :
      Aloof c.host ((c.host.log (failedLine c.id e)).count (.failed e.label)) :=
    (Host.aloof_log _ _).trans (Host.aloof_count _ _)
  have failed := Host.alike_failed app (alike.aloof (begun c) (begun d)) e
  have closed := Host.alike_closed app
    (alike_sendClose failed.host e.closeCode (CloseReason.ofFailure e)) e.closeCode
  unfold fail
  exact abreast_unlessCrashed failed (abreast_unlessCrashed closed (abreast_leave closed.host _))

theorem abreast_finishShutdown (app : Application σ) (alike : Alike fs gs c.host d.host) :
    Abreast R fs gs (c.finishShutdown app) (d.finishShutdown app) :=
  abreast_finish app (alike_sendClose alike .goingAway shutdownReason) .goingAway

/-! ### From frame to frame -/

/-- A new callback, that both wait for. -/
theorem alike_handOver {h k : Host σ} (alike : Alike fs gs h k) :
    Alike fs gs (handOver h).1 (handOver k).1 ∧
      (handOver h).1.Mine (handOver h).2 ∧ (handOver k).1.Mine (handOver k).2 :=
  ⟨alike.onward (fun g => { g with verdict := none }) rfl rfl rfl rfl
    ⟨alike.tidy.ready, alike.tidy.parked, alike.tidy.outbox⟩, rfl, rfl⟩

section Onward

variable (app : Application σ) (alike : Alike fs gs c.host d.host)
  (stream : R (c.inbound, c.ended) (d.inbound, d.ended))
include alike stream

theorem abreast_enter : Abreast R fs gs (c.enter app) (d.enter app) := by
  let begin (c : Connection σ) : Host σ :=
    { c.host with house := { c.host.house with running := c.host.house.running + 1 } }
  have begun (c : Connection σ) : Aloof c.host ((begin c).count .connected |>.log
      (openedLine c.id (c.host.house.running + 1))) :=
    ((⟨rfl, rfl, fun tidy => ⟨tidy.ready, tidy.parked, tidy.outbox⟩⟩ : Aloof c.host (begin c)).trans
      (Host.aloof_count _ _)).trans (Host.aloof_log _ _)
  obtain ⟨waiting, mine, theirs⟩ := alike_handOver (alike.aloof (begun c) (begun d))
  have opened := Host.alike_opened mine theirs app waiting
  unfold enter
  exact abreast_unlessCrashed opened ⟨rfl, opened.host, .inr stream⟩

theorem abreast_read : Abreast R fs gs (c.read app) (d.read app) := by
  refine ⟨?_, alike, .inr stream⟩
  unfold read
  rw [Host.demanding_of_gist alike.gist]

theorem abreast_dispatch (f : Frame) : Abreast R fs gs (c.dispatch app f) (d.dispatch app f) := by
  have begun (c : Connection σ) : Aloof c.host (c.host.touch.count .inbound) :=
    ⟨rfl, rfl, fun tidy => ⟨tidy.ready, tidy.parked, tidy.outbox⟩⟩
  obtain ⟨waiting, mine, theirs⟩ := alike_handOver (alike.aloof (begun c) (begun d))
  have handed := Host.alike_frame mine theirs app waiting f
  unfold dispatch
  exact abreast_unlessCrashed handed ⟨rfl, handed.host, .inr stream⟩

theorem abreast_conclude (f : Frame) : Abreast R fs gs (c.conclude app f) (d.conclude app f) := by
  have answered := alike_sendPong alike f
  unfold conclude
  split
  · next code _ =>
    exact abreast_finish (c := { c with host := _ }) (d := { d with host := _ }) app
      (alike_sendClose answered code "") code
  · exact abreast_read (c := { c with host := _ }) (d := { d with host := _ }) app answered stream

end Onward

/-! ### Moves -/

/-- The other connection has the same frame to hand over, or the same end. -/
structure Meets (R : Stream → Stream → Prop) (c d : Connection σ) : Prop where
  next : ∀ f rest, c.inbound = f :: rest →
    ∃ rest', d.inbound = f :: rest' ∧ R (rest, c.ended) (rest', d.ended)
  last : c.inbound = [] → c.ended = true → d.inbound = [] ∧ d.ended = true

theorem signalled_of_gist {h k : Host σ} (same : k.gist = h.gist) : k.signalled = h.signalled := by
  have reason : k.session.abortReason = h.session.abortReason := congrArg Gist.abortReason same
  have stopping : k.shutdown = h.shutdown := congrArg Gist.shutdown same
  rw [Host.signalled, Host.signalled, reason, stopping]

/-- A unit is taken on either side. -/
theorem alike_take {h k : Host σ} (alike : Alike fs gs h k) {session : Session}
    (taken : h.session.take? = some session) :
    ∃ session', k.session.take? = some session' ∧
      Alike fs gs ({ h with session }.note .took) ({ k with session := session' }.note .took) := by
  have demand : k.session.demand = h.session.demand := congrArg Gist.demand alike.gist
  obtain ⟨some, rfl⟩ := Session.eq_of_take? taken
  refine ⟨{ k.session with demand := k.session.demand - 1 }, ?_, ?_⟩
  · rw [Session.take?, if_neg (demand ▸ some)]
  · have less : Alike fs gs
        { h with session := { h.session with demand := h.session.demand - 1 } }
        { k with session := { k.session with demand := k.session.demand - 1 } } :=
      alike.onward (fun g => { g with demand := g.demand - 1 }) rfl rfl rfl rfl
        ⟨alike.tidy.ready, alike.tidy.parked, alike.tidy.outbox⟩
    exact less.aloof (Host.aloof_note _ rfl rfl) (Host.aloof_note _ rfl rfl)

/-- The moves of the one are moves of the other. -/
theorem abreast_way (abreast : Abreast R fs gs c d) (way : Way app c c')
    (meets : c.phase = .reading false → c.host.signalled = false → Meets R c d) :
    ∃ d', Way app d d' ∧ Abreast R fs gs c' d' := by
  obtain ⟨phase, alike, stream⟩ := abreast
  have verdict : d.host.verdict = c.host.verdict := congrArg Gist.verdict alike.gist
  have reason : d.host.session.abortReason = c.host.session.abortReason :=
    congrArg Gist.abortReason alike.gist
  have stopping : d.host.shutdown = c.host.shutdown := congrArg Gist.shutdown alike.gist
  have signalled : d.host.signalled = c.host.signalled := signalled_of_gist alike.gist
  have stream : R (c.inbound, c.ended) (d.inbound, d.ended) := by
    refine stream.resolve_left fun ⟨_, finished⟩ => ?_
    have running := way.running
    rw [Connection.running, finished] at running
    cases running
  cases way with
  | enters starting => exact ⟨_, .enters (phase.trans starting), abreast_enter app alike stream⟩
  | opens opening ok =>
    refine ⟨_, .opens (phase.trans opening) (verdict.trans ok), ?_⟩
    exact abreast_read (c := { c with patience := c.patience - 1 }) app alike stream
  | @concludes f serving ok =>
    refine ⟨_, .concludes (phase.trans serving) (verdict.trans ok), ?_⟩
    exact abreast_conclude (c := { c with patience := c.patience - 1 })
      (d := { d with patience := d.patience - 1 }) app alike stream f
  | fails awaits outcome =>
    refine ⟨_, .fails (phase ▸ awaits) ?_, abreast_fail app alike _⟩
    rwa [awaited, verdict, reason, stopping]
  | stops reading asked =>
    exact ⟨_, .stops (phase.trans reading) (stopping.trans asked), abreast_finishShutdown app alike⟩
  | aborts reading going given =>
    exact ⟨_, .aborts (phase.trans reading) (stopping.trans going) (reason.trans given),
      abreast_fail app alike _⟩
  | takes reading free taken =>
    obtain ⟨session, taken', less⟩ := alike_take alike taken
    exact ⟨_, .takes (phase.trans reading) (signalled.trans free) taken', rfl, less, .inr stream⟩
  | @hands f rest reading free arrived =>
    obtain ⟨rest', arrived', onward⟩ := (meets reading free).next f rest arrived
    refine ⟨_, .hands (phase.trans reading) (signalled.trans free) arrived', ?_⟩
    exact abreast_dispatch (c := { c with inbound := rest }) (d := { d with inbound := rest' }) app
      alike onward f
  | runsOut reading free empty ended =>
    obtain ⟨empty', ended'⟩ := (meets reading free).last empty ended
    exact ⟨_, .runsOut (phase.trans reading) (signalled.trans free) empty' ended',
      abreast_fail app alike _⟩

/-- Where the one driver has to wait, the other one has to wait as well. -/
theorem Abreast.lacks (abreast : Abreast R fs gs c d) (lacks : c.Lacks)
    (empties : R ([], false) (d.inbound, d.ended) → d.inbound = [] ∧ d.ended = false) :
    d.Lacks := by
  obtain ⟨phase, alike, stream⟩ := abreast
  have verdict : d.host.verdict = c.host.verdict := congrArg Gist.verdict alike.gist
  have demand : d.host.session.demand = c.host.session.demand := congrArg Gist.demand alike.gist
  unfold Lacks at lacks ⊢
  rw [phase, verdict, demand, signalled_of_gist alike.gist]
  cases now : c.phase with
  | idle | starting | opening | serving _ | finished _ =>
    rw [now] at lacks
    exact lacks
  | reading needsUnit =>
    rw [now] at lacks
    cases needsUnit with
    | true => exact lacks
    | false =>
      obtain ⟨free, empty, going⟩ := lacks
      refine ⟨free, empties ?_⟩
      rw [empty, going] at stream
      refine stream.resolve_left fun ⟨_, finished⟩ => ?_
      cases now.symm.trans finished

end WebSocketEngine.Connection
