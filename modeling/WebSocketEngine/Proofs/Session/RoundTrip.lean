import WebSocketEngine.Proofs.Assembly.Handed
import WebSocketEngine.Proofs.Session.Line

/-!
What is sent as messages arrives as messages.

A message that is sent in chunks goes out as one frame for each chunk, the first of them with the
opcode of its kind and the last of them final:

    text ["Hel", "lo"]     TEXT "Hel" ──▶ CONTINUATION fin "lo"
    binary []              BINARY fin

Whatever PING and PONG frames come in between, an assembler puts the messages together again
(`messages_arrive`).
-/

namespace WebSocketEngine

/-- What one call sends. -/
inductive Chunks
  | text (chunks : List String)
  | binary (chunks : List Bytes)

namespace Chunks

def kind : Chunks → MessageKind
  | text _ => .text
  | binary _ => .binary

def payloads : Chunks → List Bytes
  | text chunks => chunks.map Utf8.encode
  | binary chunks => chunks

/-- The message as a whole. -/
def message : Chunks → Message
  | text chunks => .text (String.join chunks)
  | binary chunks => .binary chunks.flatten

/-- The frames that go out, with their batch flags: one for each chunk, and at least one. -/
def frames (c : Chunks) (batch : Bool) : List (Frame × Bool) :=
  let count := max 1 c.payloads.length
  (List.range count).map fun i =>
    (⟨if i = 0 then c.kind.op else .continuation, i + 1 = count, c.payloads.getD i []⟩,
      batch || i + 1 ≠ count)

end Chunks

namespace Assembly

/-! ### Frames of chunks -/

theorem continuations_eq (chunks : List Bytes) :
    continuations chunks = (List.range chunks.length).map fun i =>
      ⟨.continuation, i + 1 = chunks.length, chunks.getD i []⟩ := by
  fun_induction continuations chunks with
  | case1 => rfl
  | case2 c => rfl
  | case3 c cs more ih =>
    have others : cs.length ≠ 0 := mt List.length_eq_zero_iff.mp fun nothing => more nothing
    rw [ih, List.length_cons, List.range_succ_eq_map, List.map_cons, List.map_map]
    simp [Function.comp_def, others]

/-- The frames of a message, one by one. -/
theorem fragments_eq (kind : MessageKind) (chunks : List Bytes) :
    fragments kind chunks = (List.range (max 1 chunks.length)).map fun i =>
      ⟨if i = 0 then kind.op else .continuation, i + 1 = max 1 chunks.length,
        chunks.getD i []⟩ := by
  rcases chunks with _ | ⟨c, _ | ⟨d, cs⟩⟩
  · rfl
  · rfl
  · have count : max 1 (c :: d :: cs).length = (d :: cs).length + 1 := by simp
    rw [count, fragments, continuations_eq, List.range_succ_eq_map, List.map_cons, List.map_map]
    · simp [Function.comp_def]
    · exact List.cons_ne_nil d cs

/-- The frames of a message carry it. -/
theorem carries_continuations {kind : MessageKind} {before : Bytes} {m : Message}
    {chunks : List Bytes} {ms : List Message} {fs : List Frame} (nonempty : chunks ≠ [])
    (sort : m.kind = kind) (bytes : m.bytes = before ++ chunks.flatten)
    (rest : Carries none ms fs) :
    Carries (some (kind, before)) (m :: ms) (continuations chunks ++ fs) := by
  fun_induction continuations chunks generalizing before with
  | case1 => exact (nonempty rfl).elim
  | case2 c =>
    subst sort
    exact .last m c (by simpa using bytes) rest
  | case3 c cs more ih =>
    refine .more c (ih more ?_)
    simpa using bytes

theorem carries_fragments {m : Message} {chunks : List Bytes} {ms : List Message}
    {fs : List Frame} (bytes : m.bytes = chunks.flatten) (rest : Carries none ms fs) :
    Carries none (m :: ms) (fragments m.kind chunks ++ fs) := by
  rcases chunks with _ | ⟨c, _ | ⟨d, cs⟩⟩
  · have whole := Carries.whole m rest
    rwa [bytes] at whole
  · have whole := Carries.whole m rest
    rwa [bytes, List.flatten_singleton] at whole
  · exact .first m.kind c (carries_continuations (by simp) rfl (by simpa using bytes) rest)

/-- Neither PING nor PONG. -/
def concerns (f : Frame) : Bool := f.op ≠ .ping && f.op ≠ .pong

/-- PING and PONG frames in between make no difference. -/
theorem Carries.amid {part : Option (MessageKind × Bytes)} {ms : List Message} {fs : List Frame}
    (carried : Carries part ms (fs.filter concerns)) : Carries part ms fs := by
  induction fs generalizing part ms with
  | nil => exact carried
  | cons f fs ih =>
    cases passes : concerns f with
    | false =>
      rw [List.filter_cons_of_neg (by simp [passes])] at carried
      refine .control ?_ (ih carried)
      simp [concerns] at passes
      tauto
    | true =>
      rw [List.filter_cons_of_pos passes] at carried
      cases carried with
      | control passing _ =>
        rcases passing with op | op <;> simp [concerns, op] at passes
      | whole m rest => exact .whole m (ih rest)
      | first kind chunk rest => exact .first kind chunk (ih rest)
      | more chunk rest => exact .more chunk (ih rest)
      | last m chunk ended rest => exact .last m chunk ended (ih rest)

end Assembly

namespace Chunks

variable (c : Chunks) (batch : Bool)

theorem kind_message : c.message.kind = c.kind := by
  cases c <;> rfl

theorem bytes_message : c.message.bytes = c.payloads.flatten := by
  cases c with
  | binary chunks => rfl
  | text chunks =>
    show Utf8.encode (String.join chunks) = (chunks.map Utf8.encode).flatten
    induction chunks with
    | nil => simp [Utf8.encode, String.join]
    | cons chunk chunks ih =>
      rw [String.join_cons, List.map_cons, List.flatten_cons, ← ih]
      simp [Utf8.encode, String.toByteArray_append]

theorem frames_eq : c.frames batch =
    (Assembly.fragments c.kind c.payloads).map fun f => (f, batch || !f.fin) := by
  rw [frames, Assembly.fragments_eq, List.map_map]
  simp [Function.comp_def]

/-- The frames of several messages, with any PING and PONG frames in between, carry them. -/
theorem carries_frames {cs : List (Chunks × Bool)} {fs : List Frame}
    (same : fs.filter Assembly.concerns = (cs.flatMap fun c => c.1.frames c.2).map (·.1)) :
    Assembly.Carries none (cs.map (·.1.message)) fs := by
  refine Assembly.Carries.amid (same ▸ ?_)
  clear same
  induction cs with
  | nil => exact .done
  | cons c cs ih =>
    rw [List.flatMap_cons, List.map_append, frames_eq, List.map_map, List.map_cons]
    have carried := Assembly.carries_fragments c.1.bytes_message ih
    rw [kind_message] at carried
    simpa [Function.comp_def] using carried

end Chunks

/-! ### Putting together -/

/-- No message is too long. -/
def Config.Unlimited (c : Config) : Prop := ∀ kind, c.limit kind = none

/-- Whatever the application does, it sets no limits. -/
def Application.Generous {σ : Type} (app : Application σ) : Prop :=
  ∀ (s : σ) (x : Call) (c : Config), c.Unlimited →
    ((app.react s x).2.acts.foldl Act.configure c).Unlimited

/-- Messages of all kinds and sizes are taken, as long as these frames come in. -/
structure Assembly.TakesAll {σ : Type} (app : Application σ) (config : Config)
    (xs : List Assembly.Arrival) : Prop where
  handles : ∀ kind, app.hooks.handles kind = true
  generous : app.Generous
  unlimited : config.Unlimited
  changes : ∀ x ∈ xs, ∀ c : Config, c.Unlimited → (x.changes.foldl Config.apply c).Unlimited

namespace Assembly

variable {σ : Type} {app : Application σ} {w : World σ} {f : Frame}

/-- The messages that a ruling delivers. -/
def Ruling.messages : Ruling → List Message
  | .deliver m => [m]
  | .pass | .close | .keep | .refuse _ | .malformed => []

theorem messages_carryOut (app : Application σ) (w : World σ) (f : Frame) (ruling : Ruling) :
    (w.carryOut app f ruling).2.calls.filterMap Call.message? = ruling.messages := by
  cases ruling with
  | pass =>
    simp only [World.carryOut]
    split <;> rfl
  | close | keep | refuse _ | malformed | deliver _ => rfl

theorem unlimited_carryOut (generous : app.Generous) (free : w.config.Unlimited)
    (ruling : Ruling) : (w.carryOut app f ruling).1.config.Unlimited := by
  cases ruling with
  | pass =>
    simp only [World.carryOut]
    split
    · exact generous _ _ _ free
    · exact free
  | deliver m => exact generous _ _ _ free
  | close | keep | refuse _ | malformed => exact free

/-- What frames carry is delivered, message by message. -/
theorem messages_of_carries {xs : List Arrival} {h : Host σ} {part : Option (MessageKind × Bytes)}
    {ms : List Message} (mirrored : Mirrors w h) (opened : w.reference = ⟨false, part⟩)
    (takes : TakesAll app w.config xs) (carried : Carries part ms (xs.map (·.frame))) :
    ((handAll app h xs).flatMap (·.calls)).filterMap Call.message? = ms ∧
      (app.Prompt → ∀ x ∈ handAll app h xs, x.outcome = some (.ok ())) := by
  induction xs generalizing w h part ms with
  | nil =>
    cases carried
    exact ⟨rfl, fun _ x mem => nomatch mem⟩
  | cons x xs ih =>
    let config := x.changes.foldl Config.apply w.config
    have unlimited : config.Unlimited := takes.changes x (by simp) w.config takes.unlimited
    have acceptable (m : Message) : Acceptable app.hooks config m :=
      ⟨takes.handles m.kind, fun l limited => by rw [unlimited] at limited; cases limited⟩
    obtain ⟨part', ruling, ruled, -, onward⟩ :=
      rule_of_carries app.hooks carried fun m _ => acceptable m
    have handed : w.hand app x =
        ({ w with config, reference := ⟨false, part'⟩ } : World σ).carryOut app x.frame ruling := by
      rw [World.hand, opened, ruled]
    have settled := settled_hand app mirrored x
    have shows := shows_hand app mirrored x
    rw [handed] at settled shows
    have next {ms : List Message} (rest : Carries part' ms (xs.map (·.frame))) :=
      ih settled.mirrors (World.reference_carryOut _ _ _)
        ⟨takes.handles, takes.generous, unlimited_carryOut takes.generous unlimited ruling,
          fun y mem => takes.changes y (by simp [mem])⟩ rest
    have messages : ((handAll app h (x :: xs)).flatMap (·.calls)).filterMap Call.message? =
        ruling.messages ++ ((handAll app (hand app h x).1 xs).flatMap (·.calls)).filterMap
          Call.message? := by
      rw [handAll, List.flatMap_cons, List.filterMap_append, shows.calls, messages_carryOut]
    rw [messages]
    rcases onward with ⟨neutral, -, rest⟩ | ⟨m, ms, rfl, rfl, -, rest⟩
    · obtain ⟨delivered, well⟩ := next rest
      refine ⟨?_, fun prompt y mem => ?_⟩
      · rcases neutral with rfl | rfl <;> exact delivered
      · rcases List.mem_cons.mp mem with rfl | later
        · have admits := shows.outcome
          rwa [(carryOut_neutral prompt.calm _ _ neutral).1] at admits
        · exact well prompt y later
    · obtain ⟨delivered, well⟩ := next rest
      refine ⟨congrArg (m :: ·) delivered, fun prompt y mem => ?_⟩
      rcases List.mem_cons.mp mem with rfl | later
      · have admits := shows.outcome
        rwa [(carryOut_deliver prompt _ _ m).1] at admits
      · exact well prompt y later

end Assembly

/-! ### Sending -/

/-- Something that is done while messages are sent: the writer keeps up its work. -/
inductive Errand
  | message (c : Chunks) (batch : Bool)
  | receive
  | settle (index : Nat) (how : Completion.Release)

namespace Errand

def deed : Errand → Deed
  | message c batch => .sendMessage c.kind c.payloads batch
  | receive => .receive
  | settle i how => .settle i how

def message? : Errand → Option (Chunks × Bool)
  | message c batch => some (c, batch)
  | receive | settle _ _ => none

end Errand

namespace Line

variable {σ : Type} {l : Line σ}

/-! Later events add calls, and leave the others as they are. -/

theorem calls_perform (l : Line σ) (d : Deed) : l.calls <+: (l.perform d).calls := by
  cases d with
  | send | close | sendMessage => exact List.prefix_append _ _
  | receive =>
    unfold perform receive
    dsimp only
    split <;> exact List.prefix_rfl
  | settle i how =>
    unfold perform
    dsimp only
    split <;> exact List.prefix_rfl
  | hangUp => exact List.prefix_rfl

theorem calls_step (l : Line σ) (callback : Callback) (e : Event) :
    l.calls <+: (step callback l e).calls := by
  cases e with
  | deed d => exact calls_perform l d
  | next =>
    unfold step
    dsimp only
    split
    · exact List.prefix_rfl
    · next d agenda _ => exact calls_perform { l with agenda } d
    · exact List.prefix_rfl

theorem calls_run (l : Line σ) (callback : Callback) (events : List Event) :
    l.calls <+: (run callback l events).calls := by
  induction events generalizing l with
  | nil => exact List.prefix_rfl
  | cons e events ih => exact (calls_step l callback e).trans (ih _)

/-- What the sending of some messages leaves behind on an open session. -/
structure Carried (l m : Line σ) (cs : List (Chunks × Bool)) : Prop where
  unsent : m.host.session.closeSent = false
  writer : m.host.session.outbox.isSome = true
  sent : m.host.sent = l.host.sent ++ cs.flatMap fun c => c.1.frames c.2
  calls : ∃ calls, m.calls = l.calls ++ calls ∧
    calls.map (·.frames) = cs.map (fun c => c.1.frames c.2) ∧ ∀ c ∈ calls, c.taken = true

theorem Carried.nothing (unsent : l.host.session.closeSent = false)
    (writer : l.host.session.outbox.isSome = true) : Carried l l [] where
  unsent := unsent
  writer := writer
  sent := (List.append_nil _).symm
  calls := ⟨[], (List.append_nil _).symm, rfl, nofun⟩

theorem Carried.trans {m n : Line σ} {cs ds : List (Chunks × Bool)} (first : Carried l m cs)
    (second : Carried m n ds) : Carried l n (cs ++ ds) where
  unsent := second.unsent
  writer := second.writer
  sent := by rw [second.sent, first.sent, List.flatMap_append, List.append_assoc]
  calls := by
    obtain ⟨as, called, frames, taken⟩ := first.calls
    obtain ⟨bs, called', frames', taken'⟩ := second.calls
    refine ⟨as ++ bs, ?_, ?_, fun c mem => ?_⟩
    · rw [called', called, List.append_assoc]
    · rw [List.map_append, frames, frames', List.map_append]
    · exact (List.mem_append.mp mem).elim (taken c) (taken' c)

/-- The work of the writer on an open session. -/
theorem Carried.idle {m : Line σ} (unsent : l.host.session.closeSent = false)
    (closeSent : m.host.session.closeSent = l.host.session.closeSent)
    (writer : m.host.session.outbox.isSome = true) (sent : m.host.sent = l.host.sent)
    (calls : m.calls = l.calls) : Carried l m [] where
  unsent := closeSent.trans unsent
  writer := writer
  sent := sent.trans (List.append_nil _).symm
  calls := ⟨[], calls.trans (List.append_nil _).symm, rfl, nofun⟩

theorem carried_message (unsent : l.host.session.closeSent = false)
    (writer : l.host.session.outbox.isSome = true) (c : Chunks) (batch : Bool) :
    Carried l (l.perform (Errand.message c batch).deed) [(c, batch)] := by
  obtain ⟨queue, outbox⟩ := Option.isSome_iff_exists.mp writer
  have takes := Host.takes_sendMessage unsent outbox c.kind c.payloads l.root batch
  rw [← Chunks.frames_eq] at takes
  have data : (c.frames batch).any (fun p => p.1.op = .close) = false := by
    rw [Chunks.frames_eq]
    simpa using fun f mem => Assembly.op_of_mem_fragments mem
  refine ⟨takes.closeSent.trans data, ?_, ?_, _, rfl, ?_, fun d mem => ?_⟩
  · exact (congrArg Option.isSome takes.outbox).trans rfl
  · rw [List.flatMap_singleton]
    exact takes.sent
  · exact congrArg ([·]) (Chunks.frames_eq c batch).symm
  · rw [List.mem_singleton.mp mem, unsent, writer]
    rfl

theorem carried_receive (unsent : l.host.session.closeSent = false)
    (writer : l.host.session.outbox.isSome = true) : Carried l l.receive [] := by
  unfold receive
  split
  · exact .idle unsent rfl rfl ((Host.record_note _ _ _).trans (List.append_nil _)) rfl
  · exact .nothing unsent writer
  · exact .nothing unsent writer

theorem carried_settle (unsent : l.host.session.closeSent = false)
    (writer : l.host.session.outbox.isSome = true) (i : Nat) (how : Completion.Release) :
    Carried l (l.perform (.settle i how)) [] := by
  unfold perform
  dsimp only
  split
  · next o _ =>
    have session := Host.session_resolve l.host o.ticket how.outcome
    exact .idle unsent (congrArg Session.closeSent session)
      ((congrArg (fun s => s.outbox.isSome) session).trans writer)
      (Host.sent_resolve l.host o.ticket how.outcome) rfl
  · exact .nothing unsent writer

theorem carried_run (unsent : l.host.session.closeSent = false)
    (writer : l.host.session.outbox.isSome = true) (callback : Callback) (es : List Errand) :
    Carried l (run callback l (es.map fun e => .deed e.deed)) (es.filterMap Errand.message?) := by
  induction es generalizing l with
  | nil => exact .nothing unsent writer
  | cons e es ih =>
    have first : Carried l (l.perform e.deed) (e.message?.toList) := by
      cases e with
      | message c batch => exact carried_message unsent writer c batch
      | receive => exact carried_receive unsent writer
      | settle i how => exact carried_settle unsent writer i how
    -- Callbacks only change what is left to do.
    have called : Carried l (callBack callback l (l.perform e.deed)) e.message?.toList :=
      ⟨first.unsent, first.writer, first.sent, first.calls⟩
    have all := called.trans (ih called.unsent called.writer)
    cases e <;> exact all

/-- Messages that are sent on an open session with a writer go out chunk by chunk, and whoever is
    handed their frames, with any PING and PONG frames in between, is given the messages.  Each
    caller hears of its message once, when the last frame of it is answered for, and hears of
    success if all frames succeeded and not otherwise. -/
theorem messages_arrive {τ : Type} (memory : σ) (handler : Handler) (id : ConnectionId)
    (config : Config) (interval : Duration) (house : House) (callback : Callback)
    (before : List Event) (es : List Errand) (later : List Event) (app : Application τ)
    (h : Host τ) (attached : Bool) (xs : List Assembly.Arrival) :
    let l := run callback
      (start (Connection.create memory handler id config interval house).host) before
    let cs := es.filterMap Errand.message?
    l.host.session.closeSent = false → l.host.session.outbox.isSome = true →
    Assembly.TakesAll app h.session.config xs →
    (xs.map (·.frame)).filter Assembly.concerns =
      (cs.flatMap fun c => c.1.frames c.2).map (·.1) →
    let m := run callback l (es.map fun e => .deed e.deed)
    let n := run callback m later
    let seen := Assembly.handAll app { h with handler := .assembling ⟨attached, none, false⟩ } xs
    m.host.sent = l.host.sent ++ (cs.flatMap fun c => c.1.frames c.2) ∧
      (∃ queue, m.host.session.outbox = some queue ∧
        m.host.sent = m.host.got ++ queue.map fun o => (o.frame, o.batch)) ∧
      (seen.flatMap (·.calls)).filterMap Call.message? = cs.map (·.1.message) ∧
      (app.Prompt → ∀ x ∈ seen, x.outcome = some (.ok ())) ∧
      ∀ (i : Nat) (c : Chunks × Bool), cs[i]? = some c →
        ∃ s, n.calls[l.calls.length + i]? = some s ∧ s.frames = c.1.frames c.2 ∧
          n.outstanding.count s.ticket + (n.books.answersTo s.ticket).length = s.frames.length ∧
          (n.outstanding.count s.ticket ≠ 0 → n.books.heardBy (l.calls.length + i) = []) ∧
          (n.outstanding.count s.ticket = 0 →
            ∃ o, n.books.heardBy (l.calls.length + i) = [o] ∧
              (o = .ok () ↔ ∀ a ∈ n.books.answersTo s.ticket, a = .ok ())) := by
  intro l cs unsent writer takes amid m n seen
  have kept : Kept m := ((kept_start rfl rfl rfl).run callback before).run callback _
  have carried : Carried l m cs := carried_run unsent writer callback es
  have mirrored : Assembly.Mirrors ⟨h.memory, h.session.config, .fresh⟩
      { h with handler := .assembling ⟨attached, none, false⟩ } :=
    ⟨rfl, rfl, _, rfl, rfl, .none⟩
  obtain ⟨queue, outbox⟩ := Option.isSome_iff_exists.mp carried.writer
  obtain ⟨delivered, well⟩ :=
    Assembly.messages_of_carries mirrored rfl takes (Chunks.carries_frames amid)
  refine ⟨carried.sent, ⟨queue, outbox, kept.queue queue outbox⟩, delivered, well,
    fun i c there => ?_⟩
  obtain ⟨calls, called, frames, taken⟩ := carried.calls
  have at_i := congrArg (·[i]?) frames
  simp only [List.getElem?_map, there, Option.map_some] at at_i
  obtain ⟨s, call, same⟩ := Option.map_eq_some_iff.mp at_i
  have call_m : m.calls[l.calls.length + i]? = some s := by
    rw [called, List.getElem?_append_right (Nat.le_add_right _ _), Nat.add_sub_cancel_left, call]
  have call_n : n.calls[l.calls.length + i]? = some s := by
    obtain ⟨more, eq⟩ := calls_run m callback later
    rw [← eq, List.getElem?_append_left (List.getElem?_eq_some_iff.mp call_m).1, call_m]
  have accounts := (kept.run callback later).balanced.accounts _ s call_n
    (taken s (List.mem_of_getElem? call))
  refine ⟨s, call_n, same, accounts.counted, fun waiting => ?_, fun ended =>
    ⟨_, accounts.heard.trans (if_pos ended), Sent.verdict_eq_ok_iff⟩⟩
  exact accounts.heard.trans (if_neg waiting)

/-- Two messages, of which the first one goes out while the second is still to be sent. -/
theorem messages_arrive_greeting :
    let app : Application Unit :=
      ⟨{ Hooks.none with onText := true, onBinary := true }, fun s _ => (s, ⟨[], .succeed⟩),
        fun _ => false⟩
    let h := (Connection.create () .direct ⟨1⟩ ⟨0, 0, 0, false⟩ .zero .empty).host
    let es : List Errand :=
      [.message (.text ["Hel", "lo"]) false, .receive, .message (.binary []) true]
    let frames : List Frame :=
      [⟨.text, false, Utf8.encode "Hel"⟩, ⟨.continuation, true, Utf8.encode "lo"⟩,
        ⟨.binary, true, []⟩]
    let xs : List Assembly.Arrival :=
      (frames.take 1 ++ [Frame.ping [1]] ++ frames.drop 1).map fun f => ⟨[], f⟩
    let m := run (fun _ _ => []) (start h) (es.map fun e => .deed e.deed)
    m.host.sent.map (·.1) = frames ∧
      ((Assembly.handAll app { h with handler := .assembling ⟨true, none, false⟩ } xs).flatMap
        (·.calls)).filterMap Call.message? = [.text (String.join ["Hel", "lo"]), .binary []] := by
  intro app h es frames xs m
  have takes : Assembly.TakesAll app h.session.config xs :=
    { handles := fun kind => by cases kind <;> rfl
      generous := fun _ _ _ free => free
      unlimited := fun kind => by cases kind <;> rfl
      changes := fun x mem c free => by
        obtain ⟨f, -, rfl⟩ := List.mem_map.mp mem
        exact free }
  obtain ⟨sent, -, delivered, -⟩ := messages_arrive () .direct ⟨1⟩ ⟨0, 0, 0, false⟩ .zero .empty
    (fun _ _ => []) [] es [] app h true xs rfl rfl takes rfl
  exact ⟨congrArg (List.map (·.1)) sent, delivered⟩

end Line

end WebSocketEngine
