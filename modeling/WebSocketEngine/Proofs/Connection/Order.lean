import WebSocketEngine.Proofs.Connection.Following

/-!
One thing after another.

Every turn of the driver keeps the watcher in step, and the frames that it hands over are the next
ones that have arrived (`onward_turn`).  So whatever is done from outside, frames are handed over
one by one, in the order in which they came, and every PING is answered before the driver goes on
to the next frame (`frames_in_turn`).
-/

namespace WebSocketEngine.Connection

variable {σ : Type} {app : Application σ} {w : Watch} {c d : Connection σ} {h k : Host σ}

open Host (Docket)

/-! ### The driver -/

/-- The frames that can still be handed over, where others are to come. -/
def left (c : Connection σ) (coming : List Frame) : List Frame :=
  match c.phase with
  | .finished _ => []
  | .idle | .starting | .opening | .reading _ | .serving _ =>
    c.inbound ++ if c.ended then [] else coming

/-- The watcher keeps in step, the handler was given further events at most, and the frames that
    were handed over were the next ones. -/
structure Onward (app : Application σ) (w : Watch) (c d : Connection σ) : Prop where
  follows : Follows (w.run (Host.signs c.host d.host ++ turnSigns app c d)) d
  events : ∃ es, d.host.events = c.host.events ++ es
  frames : ∀ coming,
    (Host.signs c.host d.host).filterMap Sign.frame? ++ d.left coming <+: c.left coming

theorem frames_hushed (h k : Host σ) : (Host.hushed h k).filterMap Sign.frame? = [] := by
  unfold Host.hushed
  split <;> rfl

theorem frames_decided (h k : Host σ) : (Host.decided h k).filterMap Sign.frame? = [] := by
  unfold Host.decided
  split
  · rfl
  · cases k.verdict <;> rfl

/-- The driver does not go on to read. -/
theorem goesOn_of_reading (reading : d.isReading = true → c.isReading = true) :
    goesOn c d = [] := by
  unfold goesOn
  cases reads : d.isReading with
  | false => rfl
  | true =>
    rw [reading reads]
    rfl

theorem Onward.of_attends (attends : Host.Attends .pong app c.host d.host)
    (reading : d.isReading = true → c.isReading = true)
    (follows : Follows (w.run (Host.signs c.host d.host)) d)
    (events : ∃ es, d.host.events = c.host.events ++ es)
    (frames : ∀ coming,
      (Host.signs c.host d.host).filterMap Sign.frame? ++ d.left coming <+: c.left coming) :
    Onward app w c d := by
  refine ⟨?_, events, frames⟩
  rwa [turnSigns, Host.replies_of_attends attends, goesOn_of_reading reading, List.map_nil,
    List.append_nil, List.append_nil]

theorem isReading_of_finished {ending : Ending} (finished : d.phase = .finished ending) :
    d.isReading = false := by
  rw [isReading, finished]

/-- The driver is busy with other things. -/
theorem Follows.onward (follows : Follows w c) (attends : Host.Attends .pong app c.host d.host)
    (aside : Aside c d) (phase : d.phase = c.phase) (inbound : d.inbound = c.inbound)
    (ended : d.ended = c.ended) : Onward app w c d := by
  have events : d.host.events = c.host.events := congrArg Docket.events aside.docket
  refine .of_attends attends (fun reads => ?_) (follows.aside aside)
    ⟨[], events.trans (List.append_nil _).symm⟩ fun coming => ?_
  · rwa [isReading, ← phase]
  rw [Host.signs_of_docket aside.docket, frames_hushed, left, left, phase, inbound, ended]
  exact List.prefix_rfl

/-- The connection has come to its end. -/
theorem Follows.ends (follows : Follows w c) (ends : Ends app c d) (begun : c.phase ≠ .idle)
    (entered : c.phase ≠ .starting) : Onward app w c d := by
  obtain ⟨es, silent, docket⟩ := ends.spares.docket
  obtain ⟨ending, finished⟩ := ends.finished
  have events : d.host.events = c.host.events ++ es := congrArg Docket.events docket
  have verdict : d.host.verdict = c.host.verdict := congrArg Docket.verdict docket
  have callbacks : d.host.callbacks = c.host.callbacks := congrArg Docket.callbacks docket
  have signs : Host.signs c.host d.host = Host.hushed c.host d.host := by
    have undecided : Host.decided c.host d.host = [] := if_pos ⟨callbacks, verdict⟩
    rw [Host.signs_of_events events, silent, undecided, List.append_nil]
    rfl
  have keeps := ends.spares.attends.keeps
  obtain ⟨stands, shut⟩ := follows.stands.hushed follows.shut keeps.shut
  refine .of_attends ends.spares.attends (fun reads => ?_) ?_ ⟨es, events⟩ fun coming => ?_
  · rw [isReading_of_finished finished] at reads
    cases reads
  · rw [signs]
    refine ⟨shut, ?_, ?_, keeps.outward follows.outward, ends.fetched ▸ follows.fetched,
      fun awaits => ?_⟩
    · rw [finished]
      exact (stands.closed begun entered ending).of_docket callbacks verdict
    · rw [docket]
      exact ⟨follows.linear.known, follows.linear.once⟩
    · rw [finished] at awaits
      cases awaits
  · rw [signs, frames_hushed, left, finished]
    exact List.nil_prefix

theorem run_hushed (stays : h.isShut = true → k.isShut = true) (x : Option Frame) :
    Watch.run ⟨.waiting x, h.isShut⟩ (Host.hushed h k) = ⟨.waiting x, k.isShut⟩ := by
  unfold Host.hushed
  cases before : h.isShut with
  | true =>
    rw [stays before]
    rfl
  | false => cases k.isShut <;> rfl

theorem run_decided (shut : Bool) (x : Option Frame) (verdict : Option Outcome) :
    Watch.run ⟨.waiting x, shut⟩ (verdict.map Sign.resolved).toList =
      ⟨Watch.heard shut x verdict, shut⟩ := by
  cases verdict <;> rfl

/-- A new callback, of which something may be heard at once; the application may also crash. -/
theorem follows_callback (follows : Follows w c) {e : Call} {s : Sign} {x : Option Frame}
    {k : Host σ} (sign : Sign.ofCall? e = some s) (next : w.trans s = ⟨.waiting x, w.shut⟩)
    (attends : Host.Attends .pong app c.host k) (heard : (c.host.docket.next.add e).Heard k.docket)
    (spares : Host.Spares app k d.host) (fetched : d.fetched = c.fetched)
    (awake : .driver ∈ c.host.ready)
    (stands : ∀ v : Watch, v.stand = Watch.heard v.shut x d.host.verdict →
      Stands v d.host.docket d.phase) :
    Host.Attends .pong app c.host d.host ∧ Follows (w.run (Host.signs c.host d.host)) d ∧
      (∃ es, d.host.events = c.host.events ++ es) ∧
        (Host.signs c.host d.host).filterMap Sign.frame? = s.frame?.toList := by
  obtain ⟨es, silent, docket⟩ := spares.docket
  have attends := attends.trans spares.attends
  have keeps := attends.keeps
  have linear : k.docket.Linear := follows.linear.heard heard
  have given : k.events = c.host.events ++ [e] ∧ k.callbacks = c.host.callbacks + 1 := by
    have events : k.docket.events = c.host.events ++ [e] ∧
        k.docket.callbacks = c.host.callbacks + 1 := by
      generalize k.docket = after at heard
      cases heard <;> exact ⟨rfl, rfl⟩
    exact events
  have events : d.host.events = c.host.events ++ (e :: es) := by
    rw [show d.host.events = k.events ++ es from congrArg Docket.events docket, given.1,
      List.append_assoc]
    rfl
  have callbacks : d.host.callbacks ≠ c.host.callbacks := by
    rw [show d.host.callbacks = k.callbacks from congrArg Docket.callbacks docket, given.2]
    exact Nat.succ_ne_self _
  have decided : Host.decided c.host d.host = (d.host.verdict.map Sign.resolved).toList :=
    if_neg fun both => callbacks both.1
  have signs : Host.signs c.host d.host =
      s :: (Host.hushed c.host d.host ++ (d.host.verdict.map Sign.resolved).toList) := by
    rw [Host.signs_of_events events, List.filterMap_cons_some sign, silent, decided]
    rfl
  refine ⟨attends, ?_, ⟨_, events⟩, ?_⟩
  · have watched : w.run (Host.signs c.host d.host) =
        ⟨Watch.heard d.host.isShut x d.host.verdict, d.host.isShut⟩ := by
      rw [signs, ← List.singleton_append, Watch.run_append, Watch.run_append]
      show ((w.trans s).run _).run _ = _
      rw [next, follows.shut, run_hushed keeps.shut, run_decided]
    rw [watched]
    refine ⟨rfl, stands _ rfl, ?_, keeps.outward follows.outward, fetched ▸ follows.fetched,
      fun _ _ => keeps.awake awake⟩
    rw [docket]
    exact ⟨linear.known, linear.once⟩
  · rw [signs, ← List.singleton_append, List.filterMap_append, List.filterMap_append, frames_hushed]
    cases d.host.verdict <;> cases s <;> rfl

/-- The driver hands something over and waits for what is heard of it, unless that crashes. -/
theorem onward_callback (follows : Follows w c) {e : Call} {s : Sign} {x : Option Frame}
    {b : Connection σ} {r : Host σ × Option Panic} {p : Phase} (sign : Sign.ofCall? e = some s)
    (next : w.trans s = ⟨.waiting x, w.shut⟩) (attends : Host.Attends .pong app c.host r.1)
    (heard : (c.host.docket.next.add e).Heard r.1.docket) (awake : .driver ∈ c.host.ready)
    (fetched : b.fetched = c.fetched)
    (stands : ∀ (v : Watch) (docket : Docket), v.stand = Watch.heard v.shut x docket.verdict →
      Stands v docket p)
    (busy : ∀ needsUnit, p ≠ .reading needsUnit)
    (frames : ∀ coming, s.frame?.toList <+: c.left coming ∧
      s.frame?.toList ++ ({ b with host := r.1, phase := p } : Connection σ).left coming <+:
        c.left coming) :
    Onward app w c (b.unlessCrashed r ({ · with phase := p })) := by
  unfold unlessCrashed
  dsimp only
  split
  · next panic _ =>
    have ends := ends_crash app { b with host := r.1 } panic
    obtain ⟨ending, finished⟩ := ends.finished
    obtain ⟨attends, watched, events, handed⟩ := follows_callback follows sign next attends heard
      ends.spares (ends.fetched.trans fetched) awake
      fun v stand => finished ▸ stands_closed stand
    refine .of_attends attends (fun reads => ?_) watched events fun coming => ?_
    · rw [isReading_of_finished finished] at reads
      cases reads
    · rw [handed, left, finished, List.append_nil]
      exact (frames coming).1
  · obtain ⟨attends, watched, events, handed⟩ := follows_callback
      (d := { b with host := r.1, phase := p }) follows sign next attends heard
      (Host.spares_of_eq rfl rfl rfl rfl rfl) fetched awake fun v stand => stands v _ stand
    refine .of_attends attends (fun reads => ?_) watched events fun coming => ?_
    · cases p with
      | reading needsUnit => exact (busy needsUnit rfl).elim
      | idle | starting | opening | serving _ | finished _ => cases reads
    · rw [handed]
      exact (frames coming).2

theorem onward_enter (app : Application σ) (follows : Follows w c) (starting : c.phase = .starting)
    (awake : .driver ∈ c.host.ready) : Onward app w c (c.enter app) := by
  have stands := follows.stands
  rw [starting] at stands
  have unopened : w.trans .opened = ⟨.waiting none, w.shut⟩ := by
    obtain ⟨_, shut⟩ := w
    obtain rfl := stands.2
    rfl
  let counted := { c.host with
    house := { c.host.house with running := c.host.house.running + 1 } }.count .connected
  let line := openedLine c.id (c.host.house.running + 1)
  have logged : (counted.log line).docket = c.host.docket := Host.docket_note counted rfl
  have began : Host.Attends .pong app c.host counted := Host.attends_of_eq rfl rfl rfl rfl
  have waits : Host.Attends .pong app (counted.log line) (handOver (counted.log line)).1 :=
    Host.attends_of_eq rfl rfl rfl rfl
  have heard := Host.heard_opened app (handOver (counted.log line)).1
    (t := (handOver (counted.log line)).2) rfl
  rw [show (handOver (counted.log line)).1.docket = c.host.docket.next from
    congrArg Docket.next logged] at heard
  refine onward_callback follows rfl unopened
    (((began.trans (Host.attends_note counted rfl rfl)).trans waits).trans
      (Host.attends_opened _ _)) heard awake rfl (fun _ _ stand => stand) nofun fun coming => ?_
  rw [left, left, starting]
  constructor
  · exact List.nil_prefix
  · exact List.prefix_rfl

theorem onward_dispatch (app : Application σ) (follows : Follows w c)
    (reading : c.phase = .reading false) (awake : .driver ∈ c.host.ready) {f : Frame}
    {rest : List Frame} (next : c.inbound = f :: rest) :
    Onward app w c ({ c with inbound := rest }.dispatch app f) := by
  have stands := follows.stands
  rw [reading] at stands
  have free : w.trans (.handed f) = ⟨.waiting (some f), w.shut⟩ := by
    obtain ⟨_, shut⟩ := w
    obtain rfl := stands.2
    rfl
  let touched := c.host.touch.count .inbound
  have touching : Host.Offers .pong [] c.host (handOver touched).1 :=
    Host.offers_of_eq rfl rfl rfl fun awake => awake
  have began : Host.Attends .pong app c.host (handOver touched).1 := touching.attends rfl rfl
  have heard := Host.heard_frame app (handOver touched).1 f (t := (handOver touched).2) rfl
  refine onward_callback follows rfl free (began.trans (Host.attends_frame _ f _)) heard awake rfl
    (fun _ _ stand => stand) nofun fun coming => ?_
  rw [left, left, reading]
  dsimp only [Sign.frame?]
  rw [next]
  exact ⟨⟨_, rfl⟩, List.prefix_rfl⟩

/-- A PING is answered unless the session is shut. -/
theorem sendPong_cases (app : Application σ) (h : Host σ) (f : Frame) :
    (f.op = .ping → h.isShut = true) ∧ Host.Spares app h (sendPong h f) ∧
        (sendPong h f).isShut = h.isShut ∨
      f.op = .ping ∧ h.isShut = false ∧ ∃ queue, h.session.outbox = some queue ∧
        sendPong h f = h.accept ⟨.pong f.payload, .root .silent, false⟩ queue := by
  by_cases due : (f.op = .ping && !h.session.closeSent) = true
  · obtain ⟨ping, unsent⟩ := (Bool.and_eq_true _ _).mp due
    have unsent : h.session.closeSent = false := by simpa using unsent
    rw [sendPong, if_pos due]
    cases writer : h.session.outbox with
    | some queue =>
      refine .inr ⟨of_decide_eq_true ping, ?_, queue, rfl, Host.send_of_open h unsent writer⟩
      rw [Host.isShut, unsent, writer]
      rfl
    | none =>
      have shut : h.isShut = true := by rw [Host.isShut, writer]; exact Bool.or_true _
      have lost : Host.Offers .pong [] h (h.lose (.pong f.payload)) :=
        Host.offers_of_eq rfl unsent.symm rfl fun awake => awake
      have attends : Host.Attends .pong app h (h.lose (.pong f.payload)) := lost.attends rfl rfl
      rw [Host.send_of_gone h unsent writer]
      exact .inl ⟨fun _ => shut, attends.spares rfl, (lost.shut shut).trans shut.symm⟩
  · rw [sendPong, if_neg due]
    refine .inl ⟨fun ping => ?_, Host.spares_of_eq rfl rfl rfl rfl rfl, rfl⟩
    have sent : h.session.closeSent = true := by simpa [ping] using due
    rw [Host.isShut, sent]
    rfl

/-- Of the host nothing is seen. -/
theorem signs_of_still (docket : k.docket = h.docket) (shut : k.isShut = h.isShut) :
    Host.signs h k = [] :=
  (Host.signs_of_docket docket).trans (Host.hushed_of_isShut shut)

/-- The driver has sent nothing. -/
theorem turnSigns_of_accepted (accepted : d.host.accepted = c.host.accepted) :
    turnSigns app c d = goesOn c d := by
  have silent : Host.replies app c.host d.host = [] := by
    rw [Host.replies, accepted, List.drop_length]
    exact List.nil_diff _
  rw [turnSigns, silent]
  rfl

/-- The driver goes on to another phase, and nothing else is seen of it but what it does then. -/
theorem Follows.moveOn (follows : Follows w c) (outward : c.host.Outward → d.host.Outward)
    (shut : d.host.isShut = c.host.isShut) (docket : d.host.docket = c.host.docket)
    (stands : Stands (w.run (turnSigns app c d)) c.host.docket d.phase)
    (fetched : d.fetched = c.fetched)
    (awake : d.phase.awaits = true → c.host.verdict ≠ none → .driver ∈ d.host.ready)
    (left : ∀ coming, d.left coming = c.left coming) : Onward app w c d := by
  have verdict : d.host.verdict = c.host.verdict := congrArg Docket.verdict docket
  have events : d.host.events = c.host.events := congrArg Docket.events docket
  have unshut : .shut ∉ turnSigns app c d := by
    unfold turnSigns goesOn
    split <;> simp
  refine ⟨?_, ⟨[], events.trans (List.append_nil _).symm⟩, fun coming => ?_⟩
  · rw [signs_of_still docket shut, List.nil_append]
    refine ⟨?_, docket ▸ stands, docket ▸ follows.linear, outward follows.outward,
      fetched ▸ follows.fetched, verdict ▸ awake⟩
    rw [w.shut_run_of_unshut unshut, follows.shut, shut]
  · rw [signs_of_still docket shut, left]
    exact List.prefix_rfl

theorem goesOn_read (app : Application σ) (d : Connection σ) (busy : c.isReading = false) :
    goesOn c (d.read app) = [.reads] := by
  rw [goesOn, busy]
  rfl

theorem trans_reads (clear : w.stand = .clear) : w.trans .reads = ⟨.free, w.shut⟩ := by
  obtain ⟨stand, shut⟩ := w
  obtain rfl := clear
  rfl

theorem onward_opening (app : Application σ) (follows : Follows w c) (opening : c.phase = .opening)
    (verdict : c.host.verdict = some (.ok ())) (patience : Nat) :
    Onward app w c (({ c with patience } : Connection σ).read app) := by
  have clear : w.stand = .clear := by
    have stands := follows.stands
    rw [opening] at stands
    have stand : w.stand = Watch.heard w.shut none c.host.verdict := stands
    rwa [verdict] at stand
  refine follows.moveOn (fun out => out) rfl rfl ?_ rfl nofun fun coming => ?_
  · rw [turnSigns_of_accepted, goesOn_read app _ (by rw [isReading, opening])]
    · exact ⟨verdict, congrArg Watch.stand (trans_reads clear)⟩
    · rfl
  · rw [left, left, opening]
    rfl

/-- A driver that owes a PONG sends it, and one that owes nothing does not. -/
theorem free_of_sendPong (app : Application σ) {f : Frame}
    (stand : w.stand = if f.op = .ping && !h.isShut then .owing f.payload else .clear) :
    (sendPong h f).isShut = h.isShut ∧
      (w.run ((Host.replies app h (sendPong h f)).map .ponged ++ [.reads])).stand = .free := by
  rcases sendPong_cases app h f with
    ⟨excused, spares, shut⟩ | ⟨ping, unshut, queue, writer, sent⟩
  · have clear : w.stand = .clear := by
      rw [stand, if_neg]
      intro due
      obtain ⟨ping, unshut⟩ := (Bool.and_eq_true _ _).mp due
      rw [excused (of_decide_eq_true ping)] at unshut
      cases unshut
    rw [Host.replies_of_attends spares.attends]
    exact ⟨shut, congrArg Watch.stand (trans_reads clear)⟩
  · have replies : Host.replies app h (sendPong h f) = [.pong f.payload] := by
      have accepted : (sendPong h f).accepted = h.accepted ++ [.pong f.payload] := by
        rw [sent]
        exact Host.record_note _ _ _
      have calls : (sendPong h f).calls = h.calls := (sends_sendPong h f).calls
      rw [Host.replies, accepted, calls, List.drop_left, List.drop_length]
      rfl
    have owing : w.stand = .owing f.payload := by rw [stand, if_pos (by simp [ping, unshut])]
    rw [replies]
    refine ⟨by rw [sent, unshut]; rfl, ?_⟩
    obtain ⟨_, shut⟩ := w
    obtain rfl := owing
    exact congrArg (Watch.stand ∘ (Watch.trans · .reads)) (Watch.trans_ponged _ _)

/-- A frame that is no CLOSE has succeeded. -/
theorem onward_read (app : Application σ) (follows : Follows w c) {f : Frame}
    (serving : c.phase = .serving f) (verdict : c.host.verdict = some (.ok ()))
    (going : f.op ≠ .close) (patience : Nat) :
    Onward app w c (({ c with patience, host := sendPong c.host f } : Connection σ).read app) := by
  have stand : w.stand = if f.op = .ping && !c.host.isShut then .owing f.payload else .clear := by
    have stands := follows.stands
    rw [serving] at stands
    have stand : w.stand = Watch.heard w.shut (some f) c.host.verdict := stands
    rwa [verdict, Watch.heard, Watch.after, if_neg going, follows.shut] at stand
  obtain ⟨shut, free⟩ := free_of_sendPong app stand
  refine follows.moveOn (Host.keeps_of_sends (sends_sendPong c.host f)).outward shut
    (Host.docket_sends (sends_sendPong _ f)) ?_ rfl (fun awaits => (Bool.false_ne_true awaits).elim)
    fun coming => ?_
  · rw [turnSigns, goesOn_read app _ (by rw [isReading, serving])]
    exact ⟨verdict, free⟩
  · rw [left, left, serving]
    rfl

theorem onward_conclude (app : Application σ) (follows : Follows w c) {f : Frame}
    (serving : c.phase = .serving f) (verdict : c.host.verdict = some (.ok ())) (patience : Nat) :
    Onward app w c ({ c with patience }.conclude app f) := by
  unfold conclude
  split
  · next code closes =>
    have close : f.op = .close := by
      by_contra other
      rw [Frame.closeCode, if_neg other] at closes
      cases closes
    have unanswered : sendPong c.host f = c.host := by
      rw [sendPong, close]
      rfl
    dsimp only
    rw [unanswered]
    have ends := ends_finish app { c with patience, host := sendClose c.host code "" } code
    refine follows.ends
      { ends with spares := (spares_sendClose c.host code "").trans ends.spares } ?_ ?_ <;>
      rw [serving] <;> nofun
  · next unclosed =>
    refine onward_read app follows serving verdict (fun close => ?_) patience
    rw [Frame.closeCode, if_pos close] at unclosed
    cases unclosed

theorem onward_await (follows : Follows w c) {next : Connection σ → Connection σ}
    (begun : c.phase ≠ .idle) (entered : c.phase ≠ .starting) (turned : c.await app next = some d)
    (onward : c.host.verdict = some (.ok ()) →
      Onward app w c (next { c with patience := c.patience - 1 })) : Onward app w c d := by
  unfold await awaited at turned
  split at turned
  · cases turned
  · next u answered =>
    cases turned
    refine onward ?_
    split at answered
    · next verdict =>
      rw [verdict]
      exact answered
    · cases answered
    · split at answered <;> cases answered
  · cases turned
    exact follows.ends (ends_fail app c _) begun entered

theorem onward_receive (follows : Follows w c) {needsUnit : Bool}
    (reading : c.phase = .reading needsUnit) (awake : .driver ∈ c.host.ready)
    (turned : c.receive app needsUnit = some d) : Onward app w c d := by
  have begun : c.phase ≠ .idle := by rw [reading]; nofun
  have entered : c.phase ≠ .starting := by rw [reading]; nofun
  have stands := follows.stands
  rw [reading] at stands
  unfold receive at turned
  split at turned
  · cases turned
    exact follows.ends (ends_finishShutdown app c) begun entered
  · split at turned
    · cases turned
      exact follows.ends (ends_fail app c _) begun entered
    · split at turned
      · obtain ⟨session, taken, rfl⟩ := Option.map_eq_some_iff.mp turned
        obtain ⟨-, rfl⟩ := Session.eq_of_take? taken
        refine follows.moveOn (fun out => out) rfl (Host.docket_note _ rfl) ?_ rfl nofun
          fun coming => ?_
        · rw [turnSigns_of_accepted, goesOn_of_reading fun _ => by rw [isReading, reading]]
          · exact stands
          · exact (Host.record_note _ _ _).trans (List.append_nil _)
        · rw [left, left, reading]
      · next free =>
        have plain : needsUnit = false := by simpa using free
        subst plain
        split at turned
        · next f rest arrived =>
          cases turned
          exact onward_dispatch app follows reading awake arrived
        · split at turned
          · cases turned
            exact follows.ends (ends_fail app c _) begun entered
          · cases turned

theorem onward_turn (follows : Follows w c) (awake : .driver ∈ c.host.ready)
    (turned : c.turn app = some d) : Onward app w c d := by
  unfold turn at turned
  split at turned
  · cases turned
  · cases turned
  · next starting =>
    cases turned
    exact onward_enter app follows starting awake
  · next opening =>
    refine onward_await follows ?_ ?_ turned fun verdict =>
      onward_opening app follows opening verdict _
    all_goals rw [opening]; nofun
  · next f serving =>
    refine onward_await follows ?_ ?_ turned fun verdict =>
      onward_conclude app follows serving verdict _
    all_goals rw [serving]; nofun
  · next needsUnit reading => exact onward_receive follows reading awake turned

/-- A driver that can make no move has heard nothing yet of its callback. -/
theorem unheard_of_stuck (stuck : c.turn app = none) (awaits : c.phase.awaits = true) :
    c.host.verdict = none := by
  have unheard {next : Connection σ → Connection σ} (stuck : c.await app next = none) :
      c.host.verdict = none := by
    by_contra decided
    obtain ⟨o, verdict⟩ := Option.ne_none_iff_exists'.mp decided
    rw [await, awaited, verdict] at stuck
    cases o <;> cases stuck
  cases phase : c.phase with
  | opening | serving f =>
    rw [turn, phase] at stuck
    exact unheard stuck
  | idle | starting | reading _ | finished _ =>
    rw [phase] at awaits
    cases awaits

theorem onward_step (follows : Follows w c) (stepped : c.step app = some d) :
    Onward app w c d := by
  unfold step at stepped
  split at stepped
  · cases stepped
  · next n tasks queue =>
    cases stepped
    have waiting : .driver ∈ c.host.ready → .driver ∈ tasks := by
      rw [queue]
      intro awake
      rcases List.mem_cons.mp awake with no | rest
      · cases no
      · exact rest
    have offers : Host.Offers .pong [] c.host { c.host with ready := tasks } :=
      Host.offers_of_eq rfl rfl rfl waiting
    have shorter : Host.Attends .pong app c.host { c.host with ready := tasks } := offers.attends rfl rfl
    have attends : Host.Attends .pong app c.host (serve { c.host with ready := tasks } n) ∧
        (serve { c.host with ready := tasks } n).docket = c.host.docket := by
      unfold serve
      split
      · next taken =>
        exact ⟨shorter.trans (Host.attends_take app _ taken rfl rfl), Host.docket_note _ rfl⟩
      · exact ⟨shorter.trans (Host.attends_of_eq rfl rfl rfl rfl), rfl⟩
    exact follows.onward attends.1
      (aside_of_docket attends.1.keeps attends.2 rfl fun _ mem => mem) rfl rfl rfl
  · next tasks queue =>
    have awake : .driver ∈ c.host.ready := by
      rw [queue]
      exact List.mem_cons_self
    split at stepped
    · cases stepped
      have offers : Host.Offers .pong [] c.host ({ c.host with ready := tasks }.wake .driver) :=
        Host.offers_of_eq rfl rfl rfl fun _ => Host.mem_enqueue.mpr (.inr rfl)
      exact follows.onward (offers.attends rfl rfl)
        (aside_of_docket offers.toKeeps rfl rfl fun _ mem => mem) rfl rfl rfl
    · split at stepped
      · next turned =>
        cases stepped
        exact onward_turn follows awake turned
      · next stuck =>
        cases stepped
        have same (h : Host σ) : c.rest h = { h with parked := (c.rest h).parked } := by
          unfold rest
          split <;> rfl
        rw [same]
        refine follows.moveOn (fun out => out) rfl rfl ?_ rfl
          (fun awaits decided => (decided (unheard_of_stuck stuck awaits)).elim) fun _ => rfl
        rw [turnSigns_of_accepted, goesOn_of_reading]
        · exact follows.stands
        · exact fun reads => reads
        · rfl

/-! ### From beat to beat -/

theorem left_arrive (c : Connection σ) (frames coming : List Frame) :
    (c.arrive frames).1.left coming = c.left (frames ++ coming) := by
  unfold arrive
  split
  · next none =>
    rw [List.isEmpty_iff.mp none]
    rfl
  · cases phase : c.phase with
    | finished ending => simp [left, phase]
    | idle | starting | opening | reading _ | serving _ =>
      cases ended : c.ended <;> simp [left, phase, ended]

/-- A command changes nothing about which frames can still be handed over. -/
theorem left_act (app : Application σ) (c : Connection σ) {x : Command} (atOnce : x.atOnce = true)
    (bs : List Beat) : (c.act app x).1.left (arrivals bs) = c.left (arrivals (.act x :: bs)) := by
  have same {d : Connection σ} (phase : d.phase = c.phase) (inbound : d.inbound = c.inbound)
      (ended : d.ended = c.ended) : d.left (arrivals bs) = c.left (arrivals bs) := by
    rw [left, left, phase, inbound, ended]
  have swept : c.sweep.1.phase = c.phase ∧ c.sweep.1.inbound = c.inbound ∧
      c.sweep.1.ended = c.ended :=
    sweep_preserves
      (I := fun d => d.phase = c.phase ∧ d.inbound = c.inbound ∧ d.ended = c.ended)
      (fun _ same => same) (fun _ _ same => same) (fun _ _ same => same) ⟨rfl, rfl, rfl⟩
  cases x with
  | arrive frames => exact left_arrive c frames _
  | endInbound =>
    show ({ c with ended := true, host := _ } : Connection σ).left _ = c.left []
    rw [left, left]
    cases c.phase <;> simp
  | start detached =>
    have none_new : arrivals (.act (.start detached) :: bs) = arrivals bs := rfl
    rw [none_new]
    rcases start_cases app c detached with none | ⟨idle, started⟩
    · rw [none]
    · rw [started, left, left, idle]
  | sweep | startSweeping => exact same swept.1 swept.2.1 swept.2.2
  | takeDemand | write how | releaseHeld index how =>
    simp only [act, write, releaseHeld, onHost]
    split <;> exact same rfl rfl rfl
  | wait _ | handOpening | handFrame _ | handFailure _ | handClosed _ => cases atOnce
  | _ => exact same rfl rfl rfl

/-- The frames among the signs are those of the events. -/
theorem frames_signs {es : List Call} (events : k.events = h.events ++ es) :
    (Host.signs h k).filterMap Sign.frame? = es.filterMap Call.frame? := by
  have handed : (es.filterMap Sign.ofCall?).filterMap Sign.frame? = es.filterMap Call.frame? := by
    rw [List.filterMap_filterMap]
    exact congrArg (es.filterMap ·) (funext fun e => by cases e <;> rfl)
  rw [Host.signs_of_events events, List.filterMap_append, List.filterMap_append, handed,
    frames_hushed, frames_decided, List.append_nil, List.append_nil]

theorem frames_turnSigns (app : Application σ) (c d : Connection σ) :
    (turnSigns app c d).filterMap Sign.frame? = [] := by
  have silent : (goesOn c d).filterMap Sign.frame? = [] := by
    unfold goesOn
    split <;> rfl
  rw [turnSigns, List.filterMap_append, silent, List.append_nil, List.filterMap_map]
  exact List.filterMap_eq_nil_iff.mpr fun _ _ => rfl

/-- What every beat comes to. -/
structure Kept (app : Application σ) (w : Watch) (c : Connection σ) (b : Beat) : Prop where
  follows : Follows (w.run (c.signs app b)) (c.beat app b)
  events : (c.beat app b).host.events.filterMap Call.frame? =
    c.host.events.filterMap Call.frame? ++ (c.signs app b).filterMap Sign.frame?
  frames : ∀ bs, (c.signs app b).filterMap Sign.frame? ++ (c.beat app b).left (arrivals bs) <+:
    c.left (arrivals (b :: bs))

/-- No event has come between. -/
theorem kept_of_events {b : Beat} (outside : c.signs app b = Host.signs c.host (c.beat app b).host)
    (follows : Follows (w.run (Host.signs c.host (c.beat app b).host)) (c.beat app b))
    (events : (c.beat app b).host.events = c.host.events)
    (left : ∀ bs, (c.beat app b).left (arrivals bs) = c.left (arrivals (b :: bs))) :
    Kept app w c b := by
  have none : (c.signs app b).filterMap Sign.frame? = [] := by
    rw [outside, frames_signs (events.trans (List.append_nil _).symm)]
    rfl
  refine ⟨outside ▸ follows, by rw [none, events, List.append_nil], fun bs => ?_⟩
  rw [none, left]
  exact List.prefix_rfl

theorem kept_beat (app : Application σ) (follows : Follows w c) {b : Beat}
    (atOnce : b.atOnce = true) : Kept app w c b := by
  cases b with
  | act x =>
    exact kept_of_events (List.append_nil _) (follows_act app follows atOnce)
      (events_act app follows atOnce) (left_act app c atOnce)
  | fetch =>
    have aside := aside_fetch c
    refine kept_of_events (List.append_nil _) (follows.aside aside)
      (congrArg Docket.events aside.docket) fun bs => ?_
    show c.fetch.left (arrivals bs) = c.left (arrivals bs)
    unfold fetch
    split <;> rfl
  | clock now sweepers =>
    exact kept_of_events (List.append_nil _)
      (follows.aside (aside_of_eq rfl rfl rfl rfl rfl rfl)) rfl fun _ => rfl
  | step =>
    have onward : Onward app w c ((c.step app).getD c) := by
      cases stepped : c.step app with
      | some d => exact onward_step follows stepped
      | none =>
        refine follows.onward (Host.attends_of_eq rfl rfl rfl rfl)
          (aside_of_eq rfl rfl rfl rfl rfl rfl) rfl rfl rfl
    obtain ⟨es, events⟩ := onward.events
    have frames : (c.signs app .step).filterMap Sign.frame? = es.filterMap Call.frame? := by
      rw [signs, List.filterMap_append, frames_turnSigns, List.append_nil]
      exact frames_signs events
    refine ⟨onward.follows, ?_, fun bs => ?_⟩
    · rw [frames, ← List.filterMap_append]
      exact congrArg (List.filterMap Call.frame?) events
    · rw [frames, ← frames_signs events]
      exact onward.frames (arrivals bs)

/-- What all beats come to. -/
theorem follows_beats (app : Application σ) {bs : List Beat} (follows : Follows w c)
    (atOnce : ∀ b ∈ bs, b.atOnce = true) :
    Follows (w.run (trace app c bs)) (beats app c bs) ∧
      (beats app c bs).host.events.filterMap Call.frame? =
        c.host.events.filterMap Call.frame? ++ (trace app c bs).filterMap Sign.frame? ∧
      (trace app c bs).filterMap Sign.frame? <+: c.left (arrivals bs) := by
  induction bs generalizing w c with
  | nil => exact ⟨follows, (List.append_nil _).symm, List.nil_prefix⟩
  | cons b bs ih =>
    have kept := kept_beat app follows (atOnce b List.mem_cons_self)
    obtain ⟨later, events, frames⟩ :=
      ih kept.follows fun b mem => atOnce b (List.mem_cons_of_mem _ mem)
    rw [trace, List.filterMap_append]
    refine ⟨?_, ?_, ?_⟩
    · rw [Watch.run_append]
      exact later
    · rw [← List.append_assoc, ← kept.events]
      exact events
    · exact ((List.prefix_append_right_inj _).mpr frames).trans (kept.frames bs)

/-- In every run, the frames that the handler gets are the next ones that have arrived, and each one
    is handed over after the opening and all frames before it have succeeded, and after no CLOSE.
    A PONG answers the last frame, a PING that has succeeded, and it is the only one to do so.
    Where the driver goes on after a PING, and no CLOSE was sent and the writer is there, the PONG
    is queued; and where nobody has anything to do, it has gone on after every frame that has
    succeeded. -/
theorem frames_in_turn (app : Application σ) (supervised : Bool) (memory : σ) (handler : Handler)
    (id : ConnectionId) (config : Config) (interval : Duration) (house : House) (bs : List Beat)
    (atOnce : ∀ b ∈ bs, b.atOnce = true) :
    let c := establish supervised memory handler id config interval house
    let d := beats app c bs
    let signs := trace app c bs
    (d.host.events.filterMap Call.frame? = signs.filterMap Sign.frame? ∧
      signs.filterMap Sign.frame? <+: arrivals bs) ∧
    (∀ (pre post : List Sign) (f : Frame), signs = pre ++ .handed f :: post →
      ∃ fs, pre.filter Sign.isTurn = Watch.course fs ∧ ∀ g ∈ fs, g.op ≠ .close) ∧
    (∀ (pre post : List Sign) (g : Frame), signs = pre ++ .ponged g :: post →
      ∃ (head mid : List Sign) (f : Frame), pre = head ++ .handed f :: mid ∧
        f.op = .ping ∧ g = .pong f.payload ∧ .resolved (.ok ()) ∈ mid ∧ .shut ∉ pre ∧
        ∀ s ∈ mid, s.frame? = none ∧ s.isPonged = false) ∧
    (∀ (head mid post : List Sign) (f : Frame),
      signs = head ++ .handed f :: mid ++ .reads :: post → (∀ s ∈ mid, s.frame? = none) →
      f.op = .ping → .shut ∉ head ++ .handed f :: mid → .ponged (.pong f.payload) ∈ mid) ∧
    (d.running = true → d.step app = none → ∀ (head mid : List Sign) (f : Frame),
      signs = head ++ .handed f :: mid → (∀ s ∈ mid, s.frame? = none) → f.op ≠ .close →
      .resolved (.ok ()) ∈ mid → .reads ∈ mid) := by
  intro c d signs
  obtain ⟨follows, events, frames⟩ := follows_beats app
    (follows_establish supervised memory handler id config interval house) atOnce
  have well : (Watch.start.run signs).stand ≠ .stuck := follows.ne_stuck
  have first : c.host.events = [] ∧ c.left (arrivals bs) = arrivals bs := by
    cases supervised <;> exact ⟨rfl, rfl⟩
  refine ⟨⟨?_, first.2 ▸ frames⟩, fun pre post f seen => ?_, fun pre post g seen => ?_,
    fun head mid post f seen within ping unshut => ?_,
    fun running quiet head mid f seen within going ok => ?_⟩
  · rw [events, first.1]
    rfl
  · exact Watch.course_of_handed (seen ▸ well)
  · exact Watch.ping_of_ponged (seen ▸ well)
  · exact Watch.ponged_of_reads (seen ▸ well) within ping unshut
  · rcases Watch.reads_of_resolved (seen ▸ well) within going ok with reads | behind
    · exact reads
    · rw [← seen] at behind
      obtain ⟨paid, onward⟩ := follows.rested running quiet
      rcases behind with ⟨p, owing⟩ | clear
      · exact (paid p owing).elim
      · exact (onward clear).elim

/-- A PING whose token the application keeps for a while, and a frame that waits behind it. -/
theorem frames_in_turn_of_kept_ping :
    let app : Application Unit :=
      ⟨.none, fun s e => (s, ⟨[], if e = .opened then .succeed else .hold⟩), fun _ => false⟩
    let bs : List Beat :=
      [.act (.start false), .act (.arrive [.ping [7], .pong []]), .step, .step, .step, .step,
        .act (.releaseHeld 0 (.resolve (.ok ()))), .step, .step]
    let signs := trace app (establish false () .direct ⟨1⟩ .standard .zero .empty) bs
    let pre := Watch.course [] ++
      [.handed (.ping [7]), .resolved (.ok ()), .ponged (.pong [7]), .reads]
    (∀ b ∈ bs, b.atOnce = true) ∧ signs = pre ++ .handed (.pong []) :: [] ∧
      signs.filterMap Sign.frame? <+: arrivals bs ∧
      ∃ fs, pre.filter Sign.isTurn = Watch.course fs ∧ ∀ g ∈ fs, g.op ≠ .close := by
  intro app bs signs pre
  have atOnce : ∀ b ∈ bs, b.atOnce = true := by decide
  have seen : signs = pre ++ .handed (.pong []) :: [] := by decide
  obtain ⟨⟨-, frames⟩, turns, -⟩ :=
    frames_in_turn app false () .direct ⟨1⟩ .standard .zero .empty bs atOnce
  exact ⟨atOnce, seen, frames, turns pre [] _ seen⟩

end WebSocketEngine.Connection
