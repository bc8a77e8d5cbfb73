import WebSocketEngine.Proofs.Host.Acting

/-!
What a session has to account for in the end: the events at its handler, the calls of its
application, and its CLOSE frames.

An account is sound if no CLOSE was accepted before one counts as sent, one and only one was
accepted after that, and every one comes from somebody who may send one.  What is done to a host
leads from one sound account to the next (`Leads`), with the events that it adds.
-/

namespace WebSocketEngine

variable {σ : Type}

/-! ### The deeds of an application -/

namespace Application

/-- What the application remembers after some calls. -/
def recollect (app : Application σ) (memory : σ) : List Call → σ
  | [] => memory
  | c :: calls => app.recollect (app.react memory c).1 calls

/-- The acts of the application in some calls. -/
def deeds (app : Application σ) (memory : σ) : List Call → List Act
  | [] => []
  | c :: calls => (app.react memory c).2.acts ++ app.deeds (app.react memory c).1 calls

theorem recollect_concat (app : Application σ) (memory : σ) (calls : List Call) (c : Call) :
    app.recollect memory (calls ++ [c]) = (app.react (app.recollect memory calls) c).1 := by
  induction calls generalizing memory with
  | nil => rfl
  | cons d calls ih => exact ih _

theorem deeds_concat (app : Application σ) (memory : σ) (calls : List Call) (c : Call) :
    app.deeds memory (calls ++ [c]) =
      app.deeds memory calls ++ (app.react (app.recollect memory calls) c).2.acts := by
  induction calls generalizing memory with
  | nil => exact List.append_nil _
  | cons d calls ih =>
    rw [List.cons_append, deeds, ih, deeds, recollect, List.append_assoc]

/-- The frames that the application offers in some calls. -/
def offers (app : Application σ) (memory : σ) (calls : List Call) : List Frame :=
  (app.deeds memory calls).flatMap Act.frames

/-- The application answers every call without a crash. -/
def Calm (app : Application σ) : Prop := ∀ s c p, (app.react s c).2.reply ≠ .panic p

end Application

/-! ### Accounts -/

/-- The account of a host. -/
structure Account (σ : Type) where
  memory : σ
  calls : List Call
  events : List Call
  /-- The CLOSE frames that were accepted. -/
  closes : List Frame
  closeSent : Bool
  /-- The writer is there. -/
  writing : Bool
  /-- A shutdown was asked for. -/
  stopping : Bool

def Host.account (h : Host σ) : Account σ where
  memory := h.memory
  calls := h.calls
  events := h.events
  closes := h.accepted.filter (·.op = .close)
  closeSent := h.session.closeSent
  writing := h.session.outbox.isSome
  stopping := h.shutdown

section Sound

variable (app : Application σ) (memory : σ) (Own : Frame → Prop)

/-- An account of an application that began with `memory`, where others may send frames with the
    property `Own`. -/
structure Account.Sound (a : Account σ) : Prop where
  recalled : a.memory = app.recollect memory a.calls
  unsent : a.closeSent = false → a.closes = []
  sent : a.closeSent = true → a.writing = true → ∃ f, a.closes = [f]
  own : ∀ f ∈ a.closes, Own f ∨ f ∈ app.offers memory a.calls

/-- What becomes of an account, and the events that were added. -/
structure Account.Leads (events : List Call) (a b : Account σ) : Prop where
  sound : b.Sound app memory Own
  events : b.events = a.events ++ events
  sent : a.closeSent = true → b.closeSent = true
  stopping : a.stopping = true → b.stopping = true

end Sound

namespace Account

variable {app : Application σ} {memory : σ} {Own : Frame → Prop} {a b c : Account σ}

theorem Sound.mono {Wide : Frame → Prop} (le : ∀ f, Own f → Wide f) (s : a.Sound app memory Own) :
    a.Sound app memory Wide :=
  ⟨s.recalled, s.unsent, s.sent, fun f mem => (s.own f mem).imp_left (le f)⟩

theorem Sound.stay (s : a.Sound app memory Own) : Leads app memory Own [] a a :=
  ⟨s, (List.append_nil _).symm, id, id⟩

theorem Sound.leads_of_eq (s : a.Sound app memory Own) (same : b = a) :
    Leads app memory Own [] a b := by
  rw [same]
  exact s.stay

theorem Leads.trans {es fs : List Call} (first : Leads app memory Own es a b)
    (second : Leads app memory Own fs b c) : Leads app memory Own (es ++ fs) a c :=
  ⟨second.sound, by rw [second.events, first.events, List.append_assoc],
    fun sent => second.sent (first.sent sent), fun stop => second.stopping (first.stopping stop)⟩

/-- An account goes on without a new event. -/
theorem Leads.quietly {es : List Call} (first : Leads app memory Own es a b)
    (second : Leads app memory Own [] b c) : Leads app memory Own es a c := by
  have both := first.trans second
  rwa [List.append_nil] at both

/-- The writer goes away. -/
theorem Sound.abandon (s : a.Sound app memory Own) :
    { a with writing := false }.Sound app memory Own :=
  ⟨s.recalled, s.unsent, fun _ gone => (Bool.false_ne_true gone).elim, s.own⟩

end Account

namespace Host

/-! ### What leaves the account alone -/

theorem account_note (h : Host σ) {n : Note} (call : n.call? = none) (event : n.event? = none)
    (frame : n.frame? = none) : (h.note n).account = h.account := by
  simp only [account, calls, events, accepted, record_note, call, event, frame, Option.toList_none,
    List.append_nil]
  rfl

theorem account_log (h : Host σ) (l : Log.Line) : (h.log l).account = h.account :=
  account_note h rfl rfl rfl

theorem account_foldl_log (h : Host σ) (lines : List Log.Line) :
    (lines.foldl log h).account = h.account := by
  induction lines generalizing h with
  | nil => rfl
  | cons l lines ih => exact (ih _).trans (account_log h l)

theorem account_deliver (h : Host σ) (d : Option (Completion.Delivery Sink)) :
    (h.deliver d).account = h.account := by
  unfold deliver
  split
  · rfl
  · rfl
  · exact account_note h rfl rfl rfl
  · split <;> rfl

theorem account_resolve (h : Host σ) (t : Ticket) (o : Outcome) :
    (h.resolve t o).account = h.account :=
  account_deliver { h with ledger := _ } _

theorem account_giveBack (h : Host σ) : h.giveBack.account = h.account := by
  unfold giveBack
  split <;> rfl

theorem account_take (h : Host σ) {session : Session} (taken : h.session.take? = some session) :
    { h with session }.account = h.account := by
  rw [(Session.eq_of_take? taken).2]
  rfl

theorem account_abort (h : Host σ) (e : Failure) : (h.abort e).account = h.account := by
  rcases abort_cases h e with same | ⟨_, aborted⟩
  · rw [same]
  · rw [aborted]
    exact account_log h _

theorem account_answer (h : Host σ) (t : Ticket) (reply : Reply) :
    (h.answer t reply).1.account = h.account := by
  cases reply with
  | hold => rfl
  | succeed | fail _ | drop | panic _ => exact account_resolve h t _

/-! ### Sending -/

section Sound

variable {app : Application σ} {memory : σ} {Own : Frame → Prop} {h : Host σ}

theorem account_accept (k : Host σ) (out : Outbound) (queue : List Outbound) :
    (k.accept out queue).account =
      { k.account with
        closes := k.account.closes ++ [out.frame].filter (·.op = .close)
        closeSent := out.frame.op = .close
        writing := true } := by
  simp only [account, calls, events, accepted, accept, record_note, Note.call?, Note.event?,
    Note.frame?, Option.toList_none, Option.toList_some, List.append_nil, List.filter_append]
  rfl

/-- An accepted frame, which is the first CLOSE if it is one. -/
theorem sound_accept {k : Host σ} (s : k.account.Sound app memory Own)
    (unsent : k.session.closeSent = false) {out : Outbound} (queue : List Outbound)
    (own : out.frame.op = .close → Own out.frame ∨ out.frame ∈ app.offers memory k.calls) :
    (k.accept out queue).account.Sound app memory Own := by
  have none_before := s.unsent unsent
  rw [account_accept, none_before]
  by_cases closing : out.frame.op = .close
  · simp only [closing, decide_true, List.filter_cons_of_pos, List.filter_nil, List.nil_append]
    refine ⟨s.recalled, fun no => (Bool.false_ne_true no.symm).elim, fun _ _ => ⟨_, rfl⟩, ?_⟩
    intro f mem
    rw [List.mem_singleton.mp mem]
    exact own closing
  · simp only [closing, decide_false, List.append_nil, Bool.false_eq_true, not_false_iff,
      List.filter_cons_of_neg, List.filter_nil]
    exact ⟨s.recalled, fun _ => rfl, fun no => (Bool.false_ne_true no).elim, by simp⟩

theorem leads_of_sends {P : Frame → Prop} {k : Host σ} (s : h.account.Sound app memory Own)
    (sends : Sends P h k)
    (own : ∀ f, P f → f.op = .close → Own f ∨ f ∈ app.offers memory h.calls) :
    Account.Leads app memory Own [] h.account k.account := by
  induction sends with
  | refl => exact s.stay
  | book ledger _ ih => exact ih
  | settle caller o _ ih => exact ih.quietly (ih.sound.leads_of_eq (account_note _ rfl rfl rfl))
  | @accept k out queue before unsent writer frame _ ih =>
    have same : k.calls = h.calls := before.calls
    have offered := own _ frame
    rw [← same] at offered
    refine ih.quietly ⟨sound_accept ih.sound unsent queue offered, ?_, ?_, ?_⟩
    · rw [account_accept, List.append_nil]
    · intro sent
      exact (Bool.false_ne_true (unsent.symm.trans sent)).elim
    · exact id
  | @lose k f _ unsent gone frame ih =>
    have empty := ih.sound.unsent unsent
    have lost : (k.lose f).account =
        { k.account with closeSent := f.op = .close } := rfl
    refine ih.quietly ⟨?_, (List.append_nil _).symm, ?_, id⟩
    · rw [lost]
      refine ⟨ih.sound.recalled, fun _ => empty, fun _ writing => ?_, ih.sound.own⟩
      have none : k.session.outbox.isSome = false := by rw [gone]; rfl
      exact (Bool.false_ne_true (none.symm.trans writing)).elim
    · intro sent
      exact (Bool.false_ne_true (unsent.symm.trans sent)).elim

/-! ### Calls -/

theorem calls_perform (h : Host σ) (x : Act) : (h.perform x).calls = h.calls :=
  record_perform h x (fun _ _ => rfl) (fun _ _ => rfl) fun _ => rfl

theorem leads_perform (s : h.account.Sound app memory Own) {x : Act}
    (own : ∀ f ∈ x.frames, Own f ∨ f ∈ app.offers memory h.calls) :
    Account.Leads app memory Own [] h.account (h.perform x).account := by
  cases x with
  | change c => exact s.stay
  | setIdleTimeout d => exact s.stay
  | demand n => exact s.stay
  | send f batch caller =>
    refine leads_of_sends s (sends_perform_send h f batch caller) fun g same _ => ?_
    rw [same]
    exact own f (List.mem_singleton_self f)
  | sendMessage kind chunks batch caller =>
    exact leads_of_sends s (sends_perform_sendMessage h kind chunks batch caller)
      fun f mem _ => own f mem
  | abort e => exact s.leads_of_eq (account_abort h e)
  | shutdown =>
    exact ⟨⟨s.recalled, s.unsent, s.sent, s.own⟩, (List.append_nil _).symm, id, fun _ => rfl⟩

theorem leads_foldl_perform {acts : List Act} (s : h.account.Sound app memory Own)
    (own : ∀ x ∈ acts, ∀ f ∈ x.frames, Own f ∨ f ∈ app.offers memory h.calls) :
    Account.Leads app memory Own [] h.account (acts.foldl perform h).account := by
  induction acts generalizing h with
  | nil => exact s.stay
  | cons x acts ih =>
    have first := leads_perform s (own x (by simp))
    refine first.quietly (ih first.sound fun y mem => ?_)
    rw [calls_perform]
    exact own y (by simp [mem])

theorem leads_call (s : h.account.Sound app memory Own) (c : Call) :
    Account.Leads app memory Own [] h.account (h.call app c).1.account := by
  have recalled : h.memory = app.recollect memory h.calls := s.recalled
  let called : Host σ := { h with memory := (app.react h.memory c).1 }.note (.called c)
  have calls : called.calls = h.calls ++ [c] := record_note _ h _
  have account : called.account =
      { h.account with memory := (app.react h.memory c).1, calls := h.calls ++ [c] } := by
    have events : called.events = h.events := (record_note _ h _).trans (List.append_nil _)
    have accepted : called.accepted = h.accepted := (record_note _ h _).trans (List.append_nil _)
    rw [Host.account, calls, events, accepted]
    rfl
  have offers : app.offers memory (h.calls ++ [c]) =
      app.offers memory h.calls ++ (app.react h.memory c).2.acts.flatMap Act.frames := by
    rw [Application.offers, app.deeds_concat, List.flatMap_append, ← recalled]
    rfl
  have sound : called.account.Sound app memory Own := by
    rw [account]
    refine ⟨?_, s.unsent, s.sent, fun f mem => (s.own f mem).imp_right fun mem => ?_⟩
    · rw [app.recollect_concat, ← recalled]
    · rw [offers]
      exact List.mem_append_left _ mem
  have acted : Account.Leads app memory Own [] called.account (h.call app c).1.account := by
    refine leads_foldl_perform sound fun x act f mem => .inr ?_
    rw [calls, offers]
    exact List.mem_append_right _ (List.mem_flatMap.mpr ⟨x, act, mem⟩)
  refine ⟨acted.sound, ?_, ?_, ?_⟩
  · rw [acted.events, account]
  · intro sent
    exact acted.sent (by rw [account]; exact sent)
  · intro stop
    exact acted.stopping (by rw [account]; exact stop)

theorem leads_callIf (s : h.account.Sound app memory Own) (installed : Bool) (c : Call) :
    Account.Leads app memory Own [] h.account (h.callIf app installed c).1.account := by
  cases installed with
  | false => exact s.stay
  | true => exact leads_call s c

/-! ### Events -/

/-- The handler is given an event. -/
theorem leads_handed (s : h.account.Sound app memory Own) (c : Call) :
    Account.Leads app memory Own [c] h.account (h.note (.handed c)).account := by
  have account : (h.note (.handed c)).account = { h.account with events := h.events ++ [c] } := by
    simp only [Host.account, Host.calls, Host.events, Host.accepted, record_note, Note.call?,
      Note.event?, Note.frame?, Option.toList_none, Option.toList_some, List.append_nil]
    rfl
  rw [account]
  exact ⟨⟨s.recalled, s.unsent, s.sent, s.own⟩, rfl, id, id⟩

theorem leads_opened (s : h.account.Sound app memory Own) (t : Ticket) :
    Account.Leads app memory Own [.opened] h.account (h.opened app t).1.account := by
  have handed := leads_handed s .opened
  unfold opened
  dsimp only
  split
  · have called := leads_call handed.sound .opened
    exact handed.quietly (called.quietly (called.sound.leads_of_eq (account_answer _ _ _)))
  · have called := leads_callIf handed.sound app.hooks.onOpen .opened
    split
    · next eq =>
      rw [eq] at called
      exact handed.quietly (called.quietly (called.sound.leads_of_eq (account_resolve _ _ _)))
    · next eq =>
      rw [eq] at called
      exact handed.quietly (called.quietly (called.sound.leads_of_eq (account_resolve _ _ _)))

theorem leads_settleFrame (s : h.account.Sound app memory Own) (f : Frame) (t : Ticket)
    (v : Assembly.Verdict) :
    Account.Leads app memory Own [] h.account (h.settleFrame app f t v).1.account := by
  cases v with
  | ended => exact s.leads_of_eq (account_resolve h t _)
  | refused e => exact s.leads_of_eq (account_resolve h t _)
  | taken => exact s.leads_of_eq ((account_giveBack _).trans (account_resolve h t _))
  | complete m =>
    simp only [settleFrame]
    split
    · have called := leads_call s (.message m)
      exact called.quietly (called.sound.leads_of_eq (account_answer _ _ _))
    · exact s.leads_of_eq (account_resolve h _ _)
  | control =>
    have called := leads_callIf s app.hooks.onControl (.control f)
    simp only [settleFrame]
    split
    · next eq =>
      rw [eq] at called
      exact called.quietly (called.sound.leads_of_eq (account_resolve _ _ _))
    · next eq =>
      rw [eq] at called
      exact called.quietly
        (called.sound.leads_of_eq ((account_giveBack _).trans (account_resolve _ _ _)))

theorem leads_frame (s : h.account.Sound app memory Own) (f : Frame) (t : Ticket) :
    Account.Leads app memory Own [.frame f] h.account (h.frame app f t).1.account := by
  have handed := leads_handed s (.frame f)
  unfold frame
  dsimp only
  split
  · have called := leads_call handed.sound (.frame f)
    exact handed.quietly (called.quietly (called.sound.leads_of_eq (account_answer _ _ _)))
  · next a assembling =>
    have logged := handed.quietly (handed.sound.leads_of_eq (account_foldl_log
      { h.note (.handed (.frame f)) with
        handler := .assembling (a.step app.hooks h.session.config f).1 }
      (a.step app.hooks h.session.config f).2.1))
    exact logged.quietly (leads_settleFrame logged.sound f t _)

theorem account_endAssembly (h : Host σ) (f : Assembly.Assembler → Assembly.Assembler) :
    (h.endAssembly f).account = h.account := by
  unfold endAssembly
  split <;> rfl

theorem leads_failed (s : h.account.Sound app memory Own) (e : Failure) :
    Account.Leads app memory Own [.failed e] h.account (h.failed app e).1.account := by
  have handed := leads_handed s (.failed e)
  have ended := handed.quietly (handed.sound.leads_of_eq (account_endAssembly _ (·.failed)))
  exact ended.quietly (leads_callIf ended.sound app.hooks.onError (.failed e))

theorem leads_closed (s : h.account.Sound app memory Own) (code : CloseCode) :
    Account.Leads app memory Own [.closed code] h.account (h.closed app code).1.account := by
  have handed := leads_handed s (.closed code)
  have ended := handed.quietly (handed.sound.leads_of_eq (account_endAssembly _ (·.ended)))
  exact ended.quietly (leads_callIf ended.sound app.hooks.onClosed (.closed code))

end Sound

/-! ### Events without a crash -/

section Calm

variable {app : Application σ} (calm : app.Calm) (h : Host σ)

include calm

theorem reply_callIf_ne (installed : Bool) (c : Call) (p : Panic) :
    (h.callIf app installed c).2 ≠ .panic p := by
  cases installed with
  | false => exact Reply.noConfusion
  | true => exact calm _ _ _

/-- The application's answer to a call is no crash. -/
theorem answer_call_eq_none (k : Host σ) (c : Call) (t : Ticket) :
    (k.answer t (h.call app c).2).2 = none := by
  have calmly : ∀ p, (h.call app c).2 ≠ .panic p := calm h.memory c
  cases reply : (h.call app c).2 with
  | panic p => exact (calmly p reply).elim
  | succeed | fail _ | drop | hold => rfl

theorem crash?_callIf (installed : Bool) (c : Call) :
    crash? (h.callIf app installed c).2 = none := by
  have calmly := reply_callIf_ne calm h installed c
  cases reply : (h.callIf app installed c).2 with
  | panic p => exact (calmly p reply).elim
  | succeed | fail _ | drop | hold => rfl

theorem opened_crash (t : Ticket) : (h.opened app t).2 = none := by
  unfold opened
  dsimp only
  split
  · exact answer_call_eq_none calm _ _ _ t
  · split
    · next eq => exact (reply_callIf_ne calm _ _ _ _ (congrArg Prod.snd eq)).elim
    · rfl

theorem settleFrame_crash (f : Frame) (t : Ticket) (v : Assembly.Verdict) :
    (h.settleFrame app f t v).2 = none := by
  cases v with
  | ended | refused _ | taken => rfl
  | complete m =>
    simp only [settleFrame]
    split
    · exact answer_call_eq_none calm _ _ _ _
    · rfl
  | control =>
    simp only [settleFrame]
    split
    · next eq => exact (reply_callIf_ne calm _ _ _ _ (congrArg Prod.snd eq)).elim
    · rfl

theorem frame_crash (f : Frame) (t : Ticket) : (h.frame app f t).2 = none := by
  unfold frame
  dsimp only
  split
  · exact answer_call_eq_none calm _ _ _ t
  · exact settleFrame_crash calm _ f t _

theorem failed_crash (e : Failure) : (h.failed app e).2 = none := crash?_callIf calm _ _ _

theorem closed_crash (code : CloseCode) : (h.closed app code).2 = none := crash?_callIf calm _ _ _

end Calm

end Host

end WebSocketEngine
