import WebSocketEngine.Proofs.Connection.KeepAlive

/-!
Two runs that are led from one quiet point to the next.

Where nobody has anything to do in either run, the same commands are given in both.  Then frames
arrive, in the second run those of the first one and further PING and PONG frames, until nobody has
anything to do again (`Paired`):

    commands ──▶ frames arrive, the driver moves ──▶ quiet ──▶ commands ──▶ …

If the counter of demand stays below its highest value in the first run as long as demand counts,
the application is called in the same way in both, both end in the same way if they do, and what the
second one sends in addition answers PING frames (`keep_alive_transparent`).
-/

namespace WebSocketEngine.Connection

variable {σ : Type} {app : Application σ} {w w' : Watch} {c d c' d' : Connection σ}
  {fs gs : List Frame} {R : Stream → Stream → Prop} {bs cs : List Beat}

open Host (Aloof Alike Gist)

/-! ### Commands in both runs -/

/-- Given in both runs at once: what changes neither the configuration nor the stream, and asks for
    no end. -/
def Command.shared : Command → Bool
  | .start _ | .demand _ | .send _ _ | .sendMessage _ _ _ | .close _ _ | .handlerSend _ _ _
  | .dropWriter => true
  | _ => false

theorem atOnce_of_shared {x : Command} (shared : x.shared = true) : (Beat.act x).atOnce = true := by
  cases x with
  | start _ | demand _ | send _ _ | sendMessage _ _ _ | close _ _ | handlerSend _ _ _
  | dropWriter => rfl
  | _ => cases shared

theorem aloof_foldl_drop {left : List Outbound} (outside : ∀ o ∈ left, o.ticket.sink.Outside)
    (h : Host σ) : Aloof h (left.foldl (fun h o => h.drop o.ticket) h) := by
  induction left generalizing h with
  | nil => exact Host.aloof_refl h
  | cons o left ih =>
    exact (Host.aloof_resolve h (outside o List.mem_cons_self) _).trans
      (ih (fun p mem => outside p (List.mem_cons_of_mem o mem)) _)

/-- The tokens that a writer leaves behind are not the driver's. -/
theorem Follows.left (follows : Follows w c) :
    ∀ o ∈ c.host.session.outbox.getD [] ++ c.fetched, o.ticket.sink.Outside := by
  intro o mem
  rcases List.mem_append.mp mem with queued | fetched
  · cases writer : c.host.session.outbox with
    | none =>
      rw [writer] at queued
      cases queued
    | some queue =>
      rw [writer] at queued
      exact follows.outward queue writer o queued
  · exact follows.fetched o fetched

/-- The same command in both runs. -/
theorem abreast_act (abreast : Abreast R fs gs c d) (follows : Follows w c)
    (follows' : Follows w' d) {x : Command} (shared : x.shared = true) :
    Abreast R fs gs (c.act app x).1 (d.act app x).1 := by
  have tracked (f : Host σ → Ticket → Host σ)
      (alike : ∀ t t' : Ticket, t.sink.Outside → t'.sink.Outside →
        Alike fs gs (f c.host t) (f d.host t')) :
      Abreast R fs gs (c.tracked f).1 (d.tracked f).1 :=
    ⟨abreast.phase, alike (.root (.caller _)) (.root (.caller _)) trivial trivial, abreast.stream⟩
  cases x with
  | send f batch =>
    exact tracked (·.send f · batch) fun _ _ outside outside' =>
      Host.alike_send abreast.host f outside outside' batch
  | close code reason =>
    exact tracked (·.close code reason ·) fun _ _ outside outside' =>
      Host.alike_send abreast.host _ outside outside' false
  | sendMessage kind chunks batch =>
    exact tracked (·.sendMessage kind chunks · batch) fun _ _ outside outside' =>
      Host.alike_sendMessage abreast.host kind chunks outside outside' batch
  | handlerSend kind chunks batch =>
    refine tracked _ fun t t' outside outside' => ?_
    rw [Host.attached_of_gist abreast.host.gist]
    split
    · exact Host.alike_sendMessage abreast.host kind chunks outside outside' batch
    · exact abreast.host.aloof (Host.aloof_resolve _ outside _) (Host.aloof_resolve _ outside' _)
  | demand n => exact ⟨abreast.phase, Host.alike_grant abreast.host n, abreast.stream⟩
  | start detached =>
    show Abreast R fs gs (c.start detached) (d.start detached)
    have phase := abreast.phase
    unfold start
    rw [phase]
    cases now : c.phase with
    | idle =>
      have stream := abreast.stream.resolve_left fun ⟨_, finished⟩ => by
        cases now.symm.trans finished
      exact ⟨rfl, abreast.host.aloof (Host.aloof_wake _) (Host.aloof_wake _), .inr stream⟩
    | starting | opening | reading _ | serving _ | finished _ => exact abreast
  | dropWriter =>
    have gone : Alike fs gs
        { c.host with session := { c.host.session with outbox := none } }
        { d.host with session := { d.host.session with outbox := none } } :=
      abreast.host.onward (fun g => { g with writing := false }) rfl rfl rfl rfl
        ⟨abreast.host.tidy.ready, abreast.host.tidy.parked, fun _ eq => nomatch eq⟩
    exact ⟨abreast.phase, gone.aloof (aloof_foldl_drop follows.left _)
      (aloof_foldl_drop follows'.left _), abreast.stream⟩
  | _ => cases shared

theorem handler_act (app : Application σ) (follows : Follows w c) {x : Command}
    (shared : x.shared = true) : (c.act app x).1.host.handler = c.host.handler := by
  have sending (sends : x.sends = true) : (c.act app x).1.host.handler = c.host.handler := by
    obtain ⟨h, sent, acted⟩ := act_of_sends app c sends
    rw [acted]
    exact (congrArg Host.handler sent.still :)
  cases x with
  | send | close | sendMessage | handlerSend => exact sending rfl
  | demand n => rfl
  | start detached =>
    show (c.start detached).host.handler = c.host.handler
    unfold start
    split <;> rfl
  | dropWriter =>
    let gone := { c.host with session := { c.host.session with outbox := none } }
    exact (congrArg Gist.handler (aloof_foldl_drop follows.left gone).gist :)
  | _ => cases shared

/-! ### Runs -/

theorem beats_append (app : Application σ) (c : Connection σ) (bs cs : List Beat) :
    beats app c (bs ++ cs) = beats app (beats app c bs) cs := List.foldl_append

theorem sendings_append (app : Application σ) (c : Connection σ) (bs cs : List Beat) :
    sendings app c (bs ++ cs) = sendings app c bs ++ sendings app (beats app c bs) cs := by
  induction bs generalizing c with
  | nil => rfl
  | cons b bs ih =>
    rw [List.cons_append, sendings, ih, sendings, List.append_assoc]
    rfl

theorem follows_of_atOnce (app : Application σ) (follows : Follows w c)
    (atOnce : ∀ b ∈ bs, b.atOnce = true) : Follows (w.run (trace app c bs)) (beats app c bs) :=
  (follows_beats app follows atOnce).1

/-- The same commands in both runs. -/
theorem abreast_commands (app : Application σ)
    (abreast : Abreast R c.host.accepted d.host.accepted c d) (follows : Follows w c)
    (follows' : Follows w' d) {xs : List Command} (shared : ∀ x ∈ xs, x.shared = true) :
    (let c' := beats app c (xs.map .act)
      let d' := beats app d (xs.map .act)
      Abreast R c'.host.accepted d'.host.accepted c' d') ∧
      sendings app c (xs.map .act) = sendings app d (xs.map .act) := by
  induction xs generalizing c d w w' with
  | nil => exact ⟨abreast, rfl⟩
  | cons x xs ih =>
    have mine := shared x List.mem_cons_self
    have acted : Abreast R c.host.accepted d.host.accepted (c.beat app (.act x))
        (d.beat app (.act x)) := abreast_act abreast follows follows' mine
    obtain ⟨onward, same⟩ := ih acted.rebase (kept_beat app follows (atOnce_of_shared mine)).follows
      (kept_beat app follows' (atOnce_of_shared mine)).follows
      fun y mem => shared y (List.mem_cons_of_mem x mem)
    refine ⟨onward, ?_⟩
    rw [List.map_cons, sendings, sendings, same, acted.sent abreast.phase]

/-- The connection at which all has arrived that will arrive. -/
def ahead (c : Connection σ) (bs : List Beat) : Connection σ :=
  { c with
    inbound := (whole bs (c.inbound, c.ended)).1
    ended := (whole bs (c.inbound, c.ended)).2 }

theorem abreast_ahead (tidy : c.host.Tidy) (bs : List Beat) :
    Abreast (fun s t => t = whole bs s) c.host.accepted c.host.accepted c (c.ahead bs) :=
  ⟨rfl, Host.alike_of_gist rfl tidy, .inr rfl⟩

theorem thinned_whole {s t : Stream} (thinned : Thinned s t)
    (padded : Padded Frame.KeepsAlive (arrivals bs) (arrivals cs))
    (ends : bs.any Beat.isEnd = cs.any Beat.isEnd) : Thinned (whole cs s) (whole bs t) := by
  obtain ⟨frames, ended⟩ := thinned
  unfold whole
  rw [ended]
  cases s.2 with
  | true => exact ⟨frames, ended⟩
  | false => exact ⟨frames.append padded, ends⟩

/-- From one quiet point to the next. -/
theorem abreast_round (heedless : app.Heedless) (inward : ∀ b ∈ bs, b.inward = true)
    (inward' : ∀ b ∈ cs, b.inward = true) (follows : Follows w c) (follows' : Follows w' d)
    (abreast : Abreast Thinned d.host.accepted c.host.accepted d c) (tidy : c.host.Tidy)
    (padded : Padded Frame.KeepsAlive (arrivals bs) (arrivals cs))
    (ends : bs.any Beat.isEnd = cs.any Beat.isEnd)
    (roomy : ∀ pre, pre <+: bs → Roomy (beats app c pre).phase (beats app c pre).host.gist)
    (lacks : (beats app c bs).Lacks) (lacks' : (beats app d cs).Lacks) :
    (let c' := beats app c bs
      let d' := beats app d cs
      Abreast Thinned d'.host.accepted c'.host.accepted d' c' ∧ c'.host.Tidy) ∧
      Padded Marked (sendings app c bs) (sendings app d cs) := by
  obtain ⟨t, short, arrived⟩ := course_beats app Roomy inward follows (abreast_ahead tidy bs) roomy
  obtain ⟨s, long, arrived'⟩ := course_beats app (fun _ _ => True) inward' follows'
    (abreast_ahead abreast.host.tidy cs) fun _ _ => trivial
  have start : Beside app (d.ahead cs) (c.ahead bs) := by
    refine .level ⟨abreast.phase, abreast.host, ?_⟩
    exact abreast.stream.imp_right fun thinned => thinned_whole thinned padded ends
  have waits {c t : Connection σ} {fs gs : List Frame} (same : Abreast (fun s t => t = s) fs gs c t)
      (lacks : c.Lacks) : t.Lacks :=
    same.lacks lacks fun stream => ⟨congrArg Prod.fst stream, congrArg Prod.snd stream⟩
  obtain ⟨level, sent⟩ := beside_course heedless long (waits arrived' lacks') start short
    (waits arrived lacks)
  have phase := arrived.phase.symm.trans (level.phase.trans arrived'.phase)
  refine ⟨⟨⟨phase, ?_, ?_⟩, arrived.host.tidy⟩, sent⟩
  · refine Host.alike_of_gist ?_ arrived'.host.tidy
    exact arrived.host.gist.symm.trans (level.host.gist.trans arrived'.host.gist)
  · rcases arrived'.stream with done | mine
    · exact .inl done
    · rcases arrived.stream with ⟨ending, finished⟩ | theirs
      · exact .inl ⟨ending, phase.symm.trans finished⟩
      · rw [← mine, ← theirs]
        exact level.stream.imp_left fun ⟨ending, finished⟩ =>
          ⟨ending, arrived'.phase.symm.trans finished⟩

/-- Two schedules that lead from one quiet point to the next: the same commands at the quiet points,
    and then the second stream is the first one with further PING and PONG frames. -/
inductive Paired (app : Application σ) (c : Connection σ) : List Beat → List Beat → Prop
  | start : Paired app c [] []
  | round {bs cs xs ys : List Beat} (paired : Paired app c bs cs) (commands : List Command)
      (shared : ∀ x ∈ commands, x.shared = true)
      (inward : ∀ b ∈ xs, b.inward = true) (inward' : ∀ b ∈ ys, b.inward = true)
      (padded : Padded Frame.KeepsAlive (arrivals xs) (arrivals ys))
      (ends : xs.any Beat.isEnd = ys.any Beat.isEnd)
      (quiet : (beats app c (bs ++ commands.map .act ++ xs)).step app = none)
      (quiet' : (beats app c (cs ++ commands.map .act ++ ys)).step app = none) :
      Paired app c (bs ++ commands.map .act ++ xs) (cs ++ commands.map .act ++ ys)

/-! ### At a quiet point -/

theorem tidy_inward (app : Application σ) (follows : Follows w c) (tidy : c.host.Tidy)
    (inward : ∀ b ∈ bs, b.inward = true) : (beats app c bs).host.Tidy := by
  obtain ⟨_, _, same⟩ := course_beats app (fun _ _ => True) inward follows
    (abreast_ahead tidy bs) fun _ _ => trivial
  exact same.host.tidy

theorem staffed_inward (app : Application σ) (follows : Follows w c) (tidy : c.host.Tidy)
    (staffed : c.Staffed) (inward : ∀ b ∈ bs, b.inward = true) : (beats app c bs).Staffed := by
  induction bs using List.reverseRecOn with
  | nil => exact staffed
  | append_singleton bs b ih =>
    have before (b' : Beat) (mem : b' ∈ bs) : b'.inward = true :=
      inward b' (List.mem_append_left _ mem)
    have now := follows_of_atOnce app follows fun b' mem => atOnce_of_inward (before b' mem)
    rw [beats_concat]
    rcases lull_of_inward app (tidy_inward app follows tidy before) now.fetched
      (inward b (by simp)) with ⟨-, way⟩ | ⟨lull, -⟩
    · exact staffed_way (ih before) way
    · exact (ih before).same (congrArg Gist.handler lull.aloof.gist) (.inl lull.phase)

theorem staffed_commands (app : Application σ) (follows : Follows w c) (staffed : c.Staffed)
    {xs : List Command} (shared : ∀ x ∈ xs, x.shared = true) :
    (beats app c (xs.map .act)).Staffed := by
  induction xs generalizing c w with
  | nil => exact staffed
  | cons x xs ih =>
    have mine := shared x List.mem_cons_self
    have atOnce := atOnce_of_shared mine
    exact ih (kept_beat app follows atOnce).follows
      (staffed.same (handler_act app follows mine) (nudges_act app c atOnce).phase)
      fun y mem => shared y (List.mem_cons_of_mem x mem)

theorem roomy_of_staffed (follows : Follows w c) (staffed : c.Staffed)
    (below : c.host.session.config.demanding = true →
      c.host.session.demand.toNat + 1 < UInt64.size) : Roomy c.phase c.host.gist := by
  intro reading
  have stands := follows.stands
  rw [reading] at stands
  unfold Staffed at staffed
  rw [reading] at staffed
  refine ⟨stands.1, ?_, fun demanding wraps => ?_⟩
  · unfold Host.attached at staffed
    show ∃ a, c.host.handler = .assembling a ∧ a.attached = true
    cases handler : c.host.handler with
    | assembling a =>
      rw [handler] at staffed
      exact ⟨a, rfl, staffed⟩
    | direct =>
      rw [handler] at staffed
      cases staffed
  · have sum := congrArg UInt64.toNat wraps
    rw [UInt64.toNat_add] at sum
    have whole : (c.host.session.demand.toNat + 1) % UInt64.size = 0 := sum
    rw [Nat.mod_eq_of_lt (below demanding)] at whole
    cases whole

/-- What holds of two runs that are led by the same commands. -/
structure Twins (app : Application σ) (c : Connection σ) (bs cs : List Beat) : Prop where
  atOnce : ∀ b ∈ bs, b.atOnce = true
  atOnce' : ∀ b ∈ cs, b.atOnce = true
  abreast : Abreast Thinned (beats app c cs).host.accepted (beats app c bs).host.accepted
    (beats app c cs) (beats app c bs)
  tidy : (beats app c bs).host.Tidy
  staffed : (beats app c bs).Staffed
  sent : Padded Marked (sendings app c bs) (sendings app c cs)

/-- The same commands are given in both. -/
theorem Twins.commands (twins : Twins app c bs cs) (follows : Follows w c) {xs : List Command}
    (shared : ∀ x ∈ xs, x.shared = true) :
    Twins app c (bs ++ xs.map .act) (cs ++ xs.map .act) := by
  have mine := follows_of_atOnce app follows twins.atOnce
  have theirs := follows_of_atOnce app follows twins.atOnce'
  have given (b : Beat) (mem : b ∈ xs.map .act) : b.atOnce = true := by
    obtain ⟨x, listed, rfl⟩ := List.mem_map.mp mem
    exact atOnce_of_shared (shared x listed)
  have alone : Abreast (fun _ _ => True) _ _ (beats app c bs) (beats app c bs) :=
    ⟨rfl, Host.alike_of_gist rfl twins.tidy, .inr trivial⟩
  obtain ⟨abreast, same⟩ := abreast_commands app twins.abreast theirs mine shared
  refine ⟨fun b mem => (List.mem_append.mp mem).elim (twins.atOnce b) (given b),
    fun b mem => (List.mem_append.mp mem).elim (twins.atOnce' b) (given b), ?_, ?_, ?_, ?_⟩
  · rw [beats_append, beats_append]
    exact abreast
  · rw [beats_append]
    exact (abreast_commands app alone mine mine shared).1.host.tidy
  · rw [beats_append]
    exact staffed_commands app mine twins.staffed shared
  · rw [sendings_append, sendings_append, same]
    exact twins.sent.append (Padded.refl Marked _)

/-- Frames arrive, and then nobody has anything to do again. -/
theorem Twins.onward (twins : Twins app c bs cs) (heedless : app.Heedless) (follows : Follows w c)
    {xs ys : List Beat} (inward : ∀ b ∈ xs, b.inward = true) (inward' : ∀ b ∈ ys, b.inward = true)
    (padded : Padded Frame.KeepsAlive (arrivals xs) (arrivals ys))
    (ends : xs.any Beat.isEnd = ys.any Beat.isEnd) (lacks : (beats app c (bs ++ xs)).Lacks)
    (lacks' : (beats app c (cs ++ ys)).Lacks)
    (below : ∀ pre, pre <+: bs ++ xs → (beats app c pre).host.session.config.demanding = true →
      (beats app c pre).host.session.demand.toNat + 1 < UInt64.size) :
    Twins app c (bs ++ xs) (cs ++ ys) := by
  have mine := follows_of_atOnce app follows twins.atOnce
  have theirs := follows_of_atOnce app follows twins.atOnce'
  have roomy (pre : List Beat) (before : pre <+: xs) :
      Roomy (beats app (beats app c bs) pre).phase (beats app (beats app c bs) pre).host.gist := by
    have inside (b : Beat) (mem : b ∈ pre) := inward b (before.subset mem)
    refine roomy_of_staffed
      (follows_of_atOnce app mine fun b mem => atOnce_of_inward (inside b mem))
      (staffed_inward app mine twins.tidy twins.staffed inside) ?_
    rw [← beats_append]
    exact below _ ((List.prefix_append_right_inj bs).mpr before)
  rw [beats_append] at lacks lacks'
  obtain ⟨⟨abreast, tidy⟩, sent⟩ := abreast_round heedless inward inward' mine theirs twins.abreast
    twins.tidy padded ends roomy lacks lacks'
  refine ⟨fun b mem => (List.mem_append.mp mem).elim (twins.atOnce b) fun late =>
      atOnce_of_inward (inward b late),
    fun b mem => (List.mem_append.mp mem).elim (twins.atOnce' b) fun late =>
      atOnce_of_inward (inward' b late), ?_, ?_, ?_, ?_⟩
  · rw [beats_append, beats_append]
    exact abreast
  · rw [beats_append]
    exact tidy
  · rw [beats_append]
    exact staffed_inward app mine twins.tidy twins.staffed inward
  · rw [sendings_append, sendings_append]
    exact twins.sent.append sent

theorem twins_of_paired (heedless : app.Heedless) (follows : Follows w c) (awake : c.Awake)
    (tidy : c.host.Tidy) (staffed : c.Staffed) (paired : Paired app c bs cs)
    (below : ∀ pre, pre <+: bs → (beats app c pre).host.session.config.demanding = true →
      (beats app c pre).host.session.demand.toNat + 1 < UInt64.size) :
    Twins app c bs cs := by
  induction paired with
  | start =>
    exact ⟨nofun, nofun, ⟨rfl, Host.alike_of_gist rfl tidy, .inr ⟨Padded.refl _ _, rfl⟩⟩, tidy,
      staffed, .nil⟩
  | @round bs cs xs ys paired commands shared inward inward' padded ends quiet quiet' ih =>
    have twins := (ih fun pre before => below pre
      ((before.trans (List.prefix_append _ _)).trans (List.prefix_append _ _))).commands follows
        shared
    have lacks {bs xs : List Beat} (before : ∀ b ∈ bs, b.atOnce = true)
        (inward : ∀ b ∈ xs, b.inward = true) (quiet : (beats app c (bs ++ xs)).step app = none) :
        (beats app c (bs ++ xs)).Lacks := by
      refine (awake_beats awake fun b mem => ?_).lacks quiet
      exact (List.mem_append.mp mem).elim (before b) fun late => atOnce_of_inward (inward b late)
    exact twins.onward heedless follows inward inward' padded ends
      (lacks twins.atOnce inward quiet) (lacks twins.atOnce' inward' quiet') below

/-- Two runs are led from quiet point to quiet point by the same commands, and further PING and PONG
    frames arrive in the second.  If the counter of demand stays below its highest value in the
    first as long as demand counts, the application is called in the same way in both, the driver
    comes to stand at the same point, and what the second sends in addition answers PING frames. -/
theorem keep_alive_transparent (app : Application σ) (heedless : app.Heedless) (memory : σ)
    (a : Assembly.Assembler) (id : ConnectionId) (config : Config) (interval : Duration)
    (house : House) (bs cs : List Beat) :
    let c := establish false memory (.assembling a) id config interval house
    Paired app c bs cs →
      (∀ pre, pre <+: bs → (beats app c pre).host.session.config.demanding = true →
          (beats app c pre).host.session.demand.toNat + 1 < UInt64.size) →
        (beats app c cs).host.heard = (beats app c bs).host.heard ∧
          (beats app c cs).phase = (beats app c bs).phase ∧
          Padded Marked (sendings app c bs) (sendings app c cs) := by
  intro c paired below
  have twins : Twins app c bs cs :=
    twins_of_paired heedless
      (follows_establish false memory (.assembling a) id config interval house)
      (awake_establish false memory (.assembling a) id config interval house)
      ⟨nofun, nofun, fun queue eq o mem => by cases eq; cases mem⟩ ⟨a, rfl⟩ paired below
  exact ⟨(congrArg Gist.calls twins.abreast.host.gist).symm, twins.abreast.phase.symm, twins.sent⟩

/-- A text, and a text behind a PING, for one unit of demand. -/
theorem keep_alive_transparent_of_ping :
    let app : Application Unit :=
      ⟨{ Hooks.none with onText := true }, fun s _ => (s, ⟨[], .succeed⟩), fun _ => false⟩
    let c := establish false () (.assembling .fresh) ⟨1⟩ (Config.standard.setDemanding true) .zero
      .empty
    let commands : List Command := [.start false, .demand 1]
    let xs : List Beat := .act (.arrive [.text "hi"]) :: List.replicate 6 .step
    let ys : List Beat := .act (.arrive [.ping [], .text "hi"]) :: List.replicate 9 .step
    let bs := [] ++ commands.map .act ++ xs
    let cs := [] ++ commands.map .act ++ ys
    app.Heedless ∧ Paired app c bs cs ∧
      (∀ pre, pre <+: bs → (beats app c pre).host.session.config.demanding = true →
        (beats app c pre).host.session.demand.toNat + 1 < UInt64.size) ∧
      (beats app c cs).host.heard = (beats app c bs).host.heard ∧
      (beats app c cs).phase = (beats app c bs).phase ∧
      Padded Marked (sendings app c bs) (sendings app c cs) := by
  intro app c commands xs ys bs cs
  have heedless : app.Heedless := nofun
  have ping : (Frame.ping []).KeepsAlive := .inl rfl
  have padded : Padded Frame.KeepsAlive (arrivals xs) (arrivals ys) := .extra ping (.same _ .nil)
  have quiet : ((beats app c bs).step app).isNone = true := by decide
  have quiet' : ((beats app c cs).step app).isNone = true := by decide
  have paired : Paired app c bs cs :=
    .round .start commands (by decide) (by decide) (by decide) padded rfl
      (Option.isNone_iff_eq_none.mp quiet) (Option.isNone_iff_eq_none.mp quiet')
  have reached : ∀ n < bs.length + 1,
      (beats app c (bs.take n)).host.session.demand.toNat + 1 < UInt64.size := by decide
  have below (pre : List Beat) (before : pre <+: bs)
      (_ : (beats app c pre).host.session.config.demanding = true) :
      (beats app c pre).host.session.demand.toNat + 1 < UInt64.size := by
    rw [List.prefix_iff_eq_take.mp before]
    exact reached pre.length (Nat.lt_succ_of_le before.length_le)
  exact ⟨heedless, paired, below, keep_alive_transparent app heedless () .fresh ⟨1⟩ _ .zero .empty
    bs cs paired below⟩

/-- The counter stands at its highest value when the PING comes: giving back its unit leaves none,
    and the text behind it waits. -/
theorem text_waits_after_ping :
    let app : Application Unit :=
      ⟨{ Hooks.none with onText := true }, fun s _ => (s, ⟨[], .succeed⟩), fun _ => false⟩
    let c := establish false () (.assembling .fresh) ⟨1⟩ (Config.standard.setDemanding true) .zero
      .empty
    let first : List Command := [.start false, .demand 18446744073709551615]
    let second : List Command := [.demand 1]
    let steps : List Beat := List.replicate 4 .step
    let xs : List Beat := .act (.arrive [.text "hi"]) :: steps
    let ys : List Beat := .act (.arrive [.ping [], .text "hi"]) :: steps
    let bs := [] ++ first.map .act ++ steps ++ second.map .act ++ xs
    let cs := [] ++ first.map .act ++ steps ++ second.map .act ++ ys
    app.Heedless ∧ Paired app c bs cs ∧
      (beats app c bs).host.heard = [.message (.text "hi")] ∧ (beats app c cs).host.heard = [] := by
  intro app c first second steps xs ys bs cs
  have ping : (Frame.ping []).KeepsAlive := .inl rfl
  have padded : Padded Frame.KeepsAlive (arrivals xs) (arrivals ys) := .extra ping (.same _ .nil)
  let opened := [] ++ first.map .act ++ steps
  have quiet₀ : ((beats app c opened).step app).isNone = true := by decide
  have quiet : ((beats app c bs).step app).isNone = true := by decide
  have quiet' : ((beats app c cs).step app).isNone = true := by decide
  have early : Paired app c opened opened :=
    .round .start first (by decide) (by decide) (by decide) .nil rfl
      (Option.isNone_iff_eq_none.mp quiet₀) (Option.isNone_iff_eq_none.mp quiet₀)
  have paired : Paired app c bs cs :=
    .round early second (by decide) (by decide) (by decide) padded rfl
      (Option.isNone_iff_eq_none.mp quiet) (Option.isNone_iff_eq_none.mp quiet')
  exact ⟨nofun, paired, by decide, by decide⟩

end WebSocketEngine.Connection
