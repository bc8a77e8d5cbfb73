import WebSocketEngine.Proofs.Connection.Schedule
import WebSocketEngine.Proofs.Host.Account

/-!
The stages of a connection.

    idle, starting     no event, and no CLOSE but of the application
    opening, reading   the opening and some frames
    serving f          the opening and some frames, the last of them f
    finished           the opening, some frames, the failure if there was one, and the close code;
                       one CLOSE, which has that code or is of the application

Each phase says what the account of the host is then (`Stage`).  Whatever is done from outside keeps
to the stage (`atStage_act`).
-/

namespace WebSocketEngine.Connection

variable {σ : Type}

/-- The frames that a command offers to the writer. -/
def Command.frames : Command → List Frame
  | .send f _ => [f]
  | .close code reason => [.close code reason]
  | .sendMessage kind chunks _ | .handlerSend kind chunks _ => Assembly.fragments kind chunks
  | _ => []

/-- The command offers frames to the writer. -/
def Command.sends : Command → Bool
  | .send _ _ | .close _ _ | .sendMessage _ _ _ | .handlerSend _ _ _ => true
  | _ => false

/-- A command that offers frames does nothing else. -/
theorem act_of_sends (app : Application σ) (c : Connection σ) {x : Command}
    (sending : x.sends = true) :
    ∃ h, Host.Sends (· ∈ x.frames) c.host h ∧
      (c.act app x).1 = { c with host := h, callers := c.callers + 1 } := by
  have caller : (Completion.Token.root (Sink.caller c.callers)).sink.Outside := trivial
  cases x with
  | send f batch =>
    exact ⟨_, Host.sends_send c.host (List.mem_singleton_self f) caller batch, rfl⟩
  | close code reason =>
    exact ⟨_, Host.sends_send c.host (List.mem_singleton_self _) caller false, rfl⟩
  | sendMessage kind chunks batch =>
    exact ⟨_, Host.sends_sendMessage c.host (fun _ mem => mem) caller batch, rfl⟩
  | handlerSend kind chunks batch =>
    refine ⟨_, ?_, rfl⟩
    dsimp only
    split
    · exact Host.sends_sendMessage c.host (fun _ mem => mem) caller batch
    · exact Host.sends_resolve c.host caller _
  | _ => cases sending

/-! ### Commands that may find nothing to do -/

section Finding

variable (app : Application σ) (c : Connection σ)

theorem takeDemand_cases :
    (c.act app .takeDemand).1 = c ∨ ∃ session, c.host.session.take? = some session ∧
      (c.act app .takeDemand).1 = { c with host := { c.host with session } } := by
  unfold act
  dsimp only
  split
  · next session taken => exact .inr ⟨session, taken, rfl⟩
  · exact .inl rfl

theorem write_cases (how : Completion.Release) :
    (c.act app (.write how)).1 = c ∨ ∃ o rest, c.fetched = o :: rest ∧
      (c.act app (.write how)).1 =
        { c with fetched := rest, host := c.host.resolve o.ticket how.outcome } := by
  unfold act write
  dsimp only
  split
  · next o rest fetched => exact .inr ⟨o, rest, fetched, rfl⟩
  · exact .inl rfl

theorem releaseHeld_cases (index : Nat) (how : Completion.Release) :
    (c.act app (.releaseHeld index how)).1 = c ∨ ∃ t, c.host.held[index]? = some t ∧
      (c.act app (.releaseHeld index how)).1 = { c with
        host := { c.host with held := c.host.held.eraseIdx index }.resolve t how.outcome } := by
  unfold act releaseHeld
  dsimp only
  split
  · exact .inl rfl
  · next t kept => exact .inr ⟨t, kept, rfl⟩

theorem start_cases (detached : Bool) :
    (c.act app (.start detached)).1 = c ∨ c.phase = .idle ∧
      (c.act app (.start detached)).1 =
        { c with phase := .starting, detached, host := c.host.wake .driver } := by
  unfold act start
  dsimp only
  split
  · next idle => exact .inr ⟨idle, rfl⟩
  all_goals exact .inl rfl

theorem arrive_cases (frames : List Frame) :
    (c.act app (.arrive frames)).1 = c ∨
      (∀ ending, c.phase ≠ .finished ending) ∧ c.ended = false ∧
        (c.act app (.arrive frames)).1 =
          { c with inbound := c.inbound ++ frames, host := c.host.wake .driver } := by
  unfold act arrive
  dsimp only
  split
  · exact .inl rfl
  · split
    · exact .inl rfl
    all_goals
      split
      · exact .inl rfl
      · next phase going => exact .inr ⟨by simp [phase], Bool.eq_false_iff.mpr going, rfl⟩

end Finding

/-! ### Stages -/

/-- The failures that an ending reports to the handler. -/
def Ending.failures : Ending → List Call
  | .failed e => [.failed e]
  | .closed _ | .crashed _ => []

/-- Where the close code of an ending comes from: the failure, the CLOSE that was the last frame, or
    a shutdown. -/
def Ending.Answers (stopping : Bool) (frames : List Frame) (code : CloseCode) : Ending → Prop
  | .closed given =>
    given = code ∧ ((∃ f, frames.getLast? = some f ∧ f.closeCode = some code) ∨
      code = .goingAway ∧ stopping = true)
  | .failed e => e.closeCode = code
  | .crashed _ => False

section Stage

variable (app : Application σ) (memory : σ) (Own : Frame → Prop)

/-- The handler was opened and has seen some frames. -/
structure Running (frames : List Frame) (a : Account σ) : Prop where
  sound : a.Sound app memory Own
  events : a.events = .opened :: frames.map .frame

/-- The handler has seen some frames and the end. -/
structure Over (ending : Ending) (frames : List Frame) (code : CloseCode) (a : Account σ) :
    Prop where
  sound : a.Sound app memory fun f => Own f ∨ f.closeCode = some code
  sent : a.closeSent = true
  events : a.events = .opened :: frames.map .frame ++ ending.failures ++ [.closed code]
  answers : ending.Answers a.stopping frames code

/-- The account of the host in each phase. -/
def Stage : Phase → Account σ → Prop
  | .idle, a | .starting, a => a.Sound app memory Own ∧ a.events = []
  | .opening, a | .reading _, a => ∃ frames, Running app memory Own frames a
  | .serving f, a => ∃ frames, Running app memory Own (frames ++ [f]) a
  | .finished ending, a => ∃ frames code, Over app memory Own ending frames code a

/-- The connection is where its phase says. -/
def AtStage (c : Connection σ) : Prop := Stage app memory Own c.phase c.host.account

/-- The account goes on without an event, whoever else may send frames. -/
def Quiet (a b : Account σ) : Prop :=
  ∀ Wide : Frame → Prop, (∀ f, Own f → Wide f) → a.Sound app memory Wide →
    a.Leads app memory Wide [] b

end Stage

variable {app : Application σ} {memory : σ} {Own : Frame → Prop}

theorem quiet_of_eq {a b : Account σ} (same : b = a) : Quiet app memory Own a b :=
  fun _ _ s => s.leads_of_eq same

theorem quiet_of_sends {h k : Host σ} {P : Frame → Prop} (own : ∀ f, P f → Own f)
    (sends : Host.Sends P h k) : Quiet app memory Own h.account k.account :=
  fun _ le s => Host.leads_of_sends s sends fun f offered _ => .inl (le f (own f offered))

theorem Ending.Answers.mono {ending : Ending} {a b : Account σ} {frames : List Frame}
    {code : CloseCode} (stopping : a.stopping = true → b.stopping = true)
    (answers : ending.Answers a.stopping frames code) : ending.Answers b.stopping frames code := by
  cases ending with
  | closed given => exact answers.imp_right (Or.imp_right (And.imp_right stopping))
  | failed e => exact answers
  | crashed p => exact answers

/-- Whatever is quiet keeps to the stage. -/
theorem Stage.quiet {a b : Account σ} {phase : Phase} (at_ : Stage app memory Own phase a)
    (quiet : Quiet app memory Own a b) : Stage app memory Own phase b := by
  have running {frames : List Frame} (r : Running app memory Own frames a) :
      Running app memory Own frames b := by
    have leads := quiet Own (fun _ own => own) r.sound
    exact ⟨leads.sound, by rw [leads.events, List.append_nil, r.events]⟩
  cases phase with
  | idle | starting =>
    obtain ⟨sound, events⟩ := at_
    have leads := quiet Own (fun _ own => own) sound
    exact ⟨leads.sound, by rw [leads.events, List.append_nil, events]⟩
  | opening | reading _ =>
    obtain ⟨frames, r⟩ := at_
    exact ⟨frames, running r⟩
  | serving f =>
    obtain ⟨frames, r⟩ := at_
    exact ⟨frames, running r⟩
  | finished ending =>
    obtain ⟨frames, code, sound, sent, events, answers⟩ := at_
    have leads := quiet _ (fun _ own => .inl own) sound
    exact ⟨frames, code, leads.sound, leads.sent sent,
      by rw [leads.events, List.append_nil, events], answers.mono leads.stopping⟩

/-! ### From outside -/

theorem quiet_dropWriter (c : Connection σ) :
    Quiet app memory Own c.host.account c.dropWriter.1.host.account := by
  have dropped : ∀ (left : List Outbound) (h : Host σ),
      (left.foldl (fun h o => h.drop o.ticket) h).account = h.account := by
    intro left
    induction left with
    | nil => exact fun h => rfl
    | cons o left ih => exact fun h => (ih _).trans (Host.account_resolve h _ _)
  intro _ _ s
  have gone : c.dropWriter.1.host.account = { c.host.account with writing := false } :=
    dropped _ _
  rw [gone]
  exact ⟨s.abandon, (List.append_nil _).symm, fun sent => sent, fun stop => stop⟩

theorem account_fetch (c : Connection σ) : c.fetch.host.account = c.host.account := by
  have noted : ∀ (queue : List Outbound) (h : Host σ),
      (queue.foldl (fun h o => h.note (.fetched o.frame o.batch)) h).account = h.account := by
    intro queue
    induction queue with
    | nil => exact fun h => rfl
    | cons o queue ih => exact fun h => (ih _).trans (Host.account_note h rfl rfl rfl)
  unfold fetch
  cases writer : c.host.session.outbox with
  | none => rfl
  | some queue =>
    refine (noted queue _).trans ?_
    simp only [Host.account, writer]
    rfl

theorem atStage_expire {c : Connection σ} (at_ : AtStage app memory Own c)
    (e : Idle.Expiry Unit) : AtStage app memory Own (c.expire e) := by
  refine Stage.quiet at_ (quiet_of_eq ?_)
  exact (Host.account_abort _ _).trans (Host.account_log _ _)

theorem atStage_sweep {c : Connection σ} (at_ : AtStage app memory Own c) :
    AtStage app memory Own c.sweep.1 :=
  sweep_preserves (I := AtStage app memory Own) (fun _ at_ => at_) (fun _ _ at_ => at_)
    (fun _ e at_ => atStage_expire at_ e) at_

/-- What is done from outside keeps to the stage; to start a connection brings it on its way. -/
theorem atStage_act (turned : ∀ c d : Connection σ, AtStage app memory Own c →
      c.step app = some d → AtStage app memory Own d)
    {c : Connection σ} (at_ : AtStage app memory Own c) {x : Command}
    (outside : x.atHandler = false) (own : ∀ f ∈ x.frames, Own f) :
    AtStage app memory Own (c.act app x).1 := by
  have same {h : Host σ} (eq : h.account = c.host.account) :
      Stage app memory Own c.phase h.account :=
    Stage.quiet at_ (quiet_of_eq eq)
  have offering (sending : x.sends = true) : AtStage app memory Own (c.act app x).1 := by
    obtain ⟨h, sends, acted⟩ := act_of_sends app c sending
    rw [acted]
    exact Stage.quiet at_ (quiet_of_sends own sends)
  cases x with
  | send | close | sendMessage | handlerSend => exact offering rfl
  | takeDemand =>
    rcases takeDemand_cases app c with none | ⟨_, taken, took⟩
    · rwa [none]
    · rw [took]
      exact same (Host.account_take c.host taken)
  | abort e => exact same (Host.account_abort _ _)
  | wait d =>
    exact wait_preserves turned (fun _ at_ => atStage_sweep at_) (fun _ _ _ at_ => at_) at_ d
  | write how =>
    rcases write_cases app c how with none | ⟨o, rest, -, wrote⟩
    · rwa [none]
    · rw [wrote]
      exact same (Host.account_resolve _ _ _)
  | dropWriter => exact Stage.quiet at_ (quiet_dropWriter c)
  | releaseHeld index how =>
    rcases releaseHeld_cases app c index how with none | ⟨t, -, released⟩
    · rwa [none]
    · rw [released]
      exact same (Host.account_resolve { c.host with held := _ } _ _)
  | start detached =>
    rcases start_cases app c detached with none | ⟨idle, started⟩
    · rwa [none]
    · rw [started]
      unfold AtStage at at_
      rw [idle] at at_
      exact at_
  | arrive frames =>
    rcases arrive_cases app c frames with none | ⟨-, -, arrived⟩
    · rwa [none]
    · rw [arrived]
      exact at_
  | shutdown =>
    refine Stage.quiet at_ fun _ _ s => ?_
    exact ⟨⟨s.recalled, s.unsent, s.sent, s.own⟩, (List.append_nil _).symm, fun sent => sent,
      fun _ => rfl⟩
  | sweep => exact atStage_sweep at_
  | startSweeping => exact atStage_sweep at_
  | handOpening | handFrame _ | handFailure _ | handClosed _ => cases outside
  | demand _ | waitForDemand | setIdleTimeout _ | change _ | checkIdle | touch | endInbound =>
    exact at_

end WebSocketEngine.Connection
