import WebSocketEngine.Proofs.Host.Sending

/-!
Two hosts that differ in nothing but what the house counts and in the lines of the log.

    house, log lines     any
    all else             the same

Nobody reads the house or the log: the house is counted in, and its numbers go into lines of the
log.  So two such hosts to which the same is done are such hosts again, and the application crashes
over both or over neither (`Kindred`, `kin_opened`, `kin_frame`, `kin_failed`, `kin_closed`).
-/

namespace WebSocketEngine

variable {σ : Type}

/-- The entry is no line of the log. -/
def Note.isDeed : Note → Bool
  | .logged _ => false
  | .handed _ | .called _ | .accepted _ _ | .fetched _ _ | .settled _ _ | .served _ | .took => true

namespace Host

variable {app : Application σ} {h k : Host σ}

/-- The hosts differ at most in the house and in the lines of the log. -/
def Kin (h k : Host σ) : Prop :=
  ∃ house journal, k = { h with house, journal } ∧
    journal.filter Note.isDeed = h.journal.filter Note.isDeed

/-- The application has crashed over both hosts or over neither. -/
structure Kindred (r s : Host σ × Option Panic) : Prop where
  host : Kin r.1 s.1
  crash : s.2 = r.2

theorem kin_refl (h : Host σ) : Kin h h := ⟨h.house, h.journal, rfl, rfl⟩

/-! ### The record -/

theorem kin_note (kin : Kin h k) (n : Note) : Kin (h.note n) (k.note n) := by
  obtain ⟨house, journal, rfl, same⟩ := kin
  exact ⟨house, n :: journal, rfl, by simp only [note, List.filter_cons, same]⟩

theorem kin_log (kin : Kin h k) (l l' : Log.Line) : Kin (h.log l) (k.log l') := by
  obtain ⟨house, journal, rfl, same⟩ := kin
  exact ⟨house, .logged l' :: journal, rfl, same⟩

theorem kin_foldl_log (kin : Kin h k) (lines : List Log.Line) :
    Kin (lines.foldl log h) (lines.foldl log k) :=
  List.foldl_rel kin fun l _ _ _ kin => kin_log kin l l

theorem kin_house (kin : Kin h k) (x y : House) :
    Kin { h with house := x } { k with house := y } := by
  obtain ⟨house, journal, rfl, same⟩ := kin
  exact ⟨y, journal, rfl, same⟩

theorem kin_count (kin : Kin h k) (m : Metric) : Kin (h.count m) (k.count m) := kin_house kin _ _

/-! ### Tasks, outcomes and frames -/

/-- Whatever neither reads nor writes the house and the record. -/
theorem Kin.set (kin : Kin h k) (f : Host σ → Host σ)
    (blind : ∀ h house journal, f { h with house, journal } = { f h with house, journal })
    (unwritten : (f h).journal = h.journal) : Kin (f h) (f k) := by
  obtain ⟨house, journal, rfl, same⟩ := kin
  exact ⟨house, journal, blind h house journal, by rw [unwritten, same]⟩

section Same

variable (kin : Kin h k)
include kin

theorem kin_wake (t : Task) : Kin (h.wake t) (k.wake t) := kin.set (·.wake t) (fun _ _ _ => rfl) rfl

theorem kin_grant (n : UInt64) : Kin (h.grant n) (k.grant n) :=
  kin.set (·.grant n) (fun _ _ _ => rfl) rfl

theorem kin_configure (f : Config → Config) : Kin (h.configure f) (k.configure f) :=
  kin.set (·.configure f) (fun _ _ _ => rfl) rfl

theorem kin_deliver (d : Option (Completion.Delivery Sink)) : Kin (h.deliver d) (k.deliver d) := by
  rcases d with _ | ⟨sink, o⟩
  · exact kin
  · cases sink with
    | silent => exact kin
    | caller n => exact kin_note kin _
    | driver n =>
      obtain ⟨house, journal, rfl, same⟩ := kin
      simp only [deliver]
      split <;> exact ⟨house, journal, rfl, same⟩

theorem kin_resolve (t : Ticket) (o : Outcome) : Kin (h.resolve t o) (k.resolve t o) := by
  obtain ⟨house, journal, rfl, same⟩ := kin
  let booked := { h with ledger := (h.ledger.resolve t o).1 }
  have kin : Kin booked { booked with house, journal } := ⟨house, journal, rfl, same⟩
  exact kin_deliver kin _

theorem kin_send (f : Frame) (t : Ticket) (batch : Bool) :
    Kin (h.send f t batch) (k.send f t batch) := by
  obtain ⟨house, journal, rfl, same⟩ := kin
  let offered := { h with session := (h.session.offer h.now ⟨f, t, batch⟩).1 }
  have kin : Kin offered { offered with house, journal } := ⟨house, journal, rfl, same⟩
  simp only [send]
  split
  · exact kin_note (kin_count kin _) _
  · exact kin_resolve kin _ _

theorem kin_sendMessage (kind : MessageKind) (chunks : List Bytes) (t : Ticket) (batch : Bool) :
    Kin (h.sendMessage kind chunks t batch) (k.sendMessage kind chunks t batch) := by
  obtain ⟨house, journal, rfl, same⟩ := kin
  let booked :=
    { h with ledger := (h.ledger.split t (Assembly.fragments kind chunks).length).1 }
  have kin : Kin booked { booked with house, journal } := ⟨house, journal, rfl, same⟩
  exact List.foldl_rel (kin_deliver kin _) fun p _ _ _ kin => kin_send kin p.1 p.2 _

theorem kin_abort (e : Failure) : Kin (h.abort e) (k.abort e) := by
  obtain ⟨house, journal, rfl, same⟩ := kin
  unfold abort
  dsimp only
  split
  · exact ⟨house, journal, rfl, same⟩
  · exact ⟨house, _ :: journal, rfl, same⟩

/-! ### The application -/

theorem kin_perform (a : Act) : Kin (h.perform a) (k.perform a) := by
  cases a with
  | change c => exact kin_configure kin (·.apply c)
  | setIdleTimeout d => exact kin_configure kin (·.setIdleTimeout d)
  | demand n => exact kin_grant kin n
  | send f batch caller => exact kin_send kin f _ batch
  | sendMessage kind chunks batch caller => exact kin_sendMessage kin kind chunks _ batch
  | abort e => exact kin_abort kin e
  | shutdown => exact kin.set (·.stop) (fun _ _ _ => rfl) rfl

theorem kin_foldl_perform (acts : List Act) : Kin (acts.foldl perform h) (acts.foldl perform k) :=
  List.foldl_rel kin fun a _ _ _ kin => kin_perform kin a

theorem kin_call (app : Application σ) (c : Call) :
    Kin (h.call app c).1 (k.call app c).1 ∧ (k.call app c).2 = (h.call app c).2 := by
  obtain ⟨house, journal, rfl, same⟩ := kin
  let recalled := { h with memory := (app.react h.memory c).1 }
  have kin : Kin recalled { recalled with house, journal } := ⟨house, journal, rfl, same⟩
  exact ⟨kin_foldl_perform (kin_note kin _) _, rfl⟩

theorem kin_callIf (app : Application σ) (installed : Bool) (c : Call) :
    Kin (h.callIf app installed c).1 (k.callIf app installed c).1 ∧
      (k.callIf app installed c).2 = (h.callIf app installed c).2 := by
  cases installed with
  | false => exact ⟨kin, rfl⟩
  | true => exact kin_call kin app c

theorem kin_answer (t : Ticket) (reply : Reply) :
    Kindred (h.answer t reply) (k.answer t reply) := by
  cases reply with
  | hold => exact ⟨kin.set (fun h => { h with held := h.held ++ [t] }) (fun _ _ _ => rfl) rfl, rfl⟩
  | succeed | fail _ | drop | panic _ => exact ⟨kin_resolve kin t _, rfl⟩

/-! ### Events at the handler -/

theorem kin_giveBack : Kin h.giveBack k.giveBack := by
  obtain ⟨house, journal, rfl, same⟩ := kin
  unfold giveBack attached
  dsimp only
  split <;> exact ⟨house, journal, rfl, same⟩

theorem kin_endAssembly (f : Assembly.Assembler → Assembly.Assembler) :
    Kin (h.endAssembly f) (k.endAssembly f) := by
  obtain ⟨house, journal, rfl, same⟩ := kin
  unfold endAssembly
  dsimp only
  split <;> exact ⟨house, journal, rfl, same⟩

theorem kin_handler : k.handler = h.handler := by
  obtain ⟨house, journal, rfl, same⟩ := kin
  rfl

theorem kin_opened (app : Application σ) (t : Ticket) :
    Kindred (h.opened app t) (k.opened app t) := by
  have handed := kin_note kin (.handed .opened)
  have handler := kin_handler handed
  unfold opened
  dsimp only
  rw [handler]
  split
  · obtain ⟨called, reply⟩ := kin_call handed app .opened
    rw [reply]
    exact kin_answer called t _
  · next a _ =>
    obtain ⟨called, reply⟩ := kin_callIf handed app app.hooks.onOpen .opened
    generalize (h.note (.handed .opened)).callIf app app.hooks.onOpen .opened = r at called reply ⊢
    generalize (k.note (.handed .opened)).callIf app app.hooks.onOpen .opened = s at called reply ⊢
    obtain ⟨h', given⟩ := r
    obtain ⟨k', given'⟩ := s
    cases (reply : given' = given)
    cases given with
    | panic p => exact ⟨kin_resolve called t _, rfl⟩
    | succeed | fail _ | drop | hold =>
      have opened := called.set (fun h => { h with handler := .assembling a.opened })
        (fun _ _ _ => rfl) rfl
      exact ⟨kin_resolve opened t _, rfl⟩

theorem kin_settleFrame (app : Application σ) (f : Frame) (t : Ticket) (v : Assembly.Verdict) :
    Kindred (h.settleFrame app f t v) (k.settleFrame app f t v) := by
  cases v with
  | ended | refused _ => exact ⟨kin_resolve kin t _, rfl⟩
  | taken => exact ⟨kin_giveBack (kin_resolve kin t _), rfl⟩
  | complete m =>
    simp only [settleFrame]
    split
    · obtain ⟨called, reply⟩ := kin_call kin app (.message m)
      rw [reply]
      exact kin_answer called _ _
    · exact ⟨kin_resolve kin _ _, rfl⟩
  | control =>
    obtain ⟨called, reply⟩ := kin_callIf kin app app.hooks.onControl (.control f)
    simp only [settleFrame]
    generalize h.callIf app app.hooks.onControl (.control f) = r at called reply ⊢
    generalize k.callIf app app.hooks.onControl (.control f) = s at called reply ⊢
    obtain ⟨h', given⟩ := r
    obtain ⟨k', given'⟩ := s
    cases (reply : given' = given)
    cases given with
    | panic p => exact ⟨kin_resolve called t _, rfl⟩
    | succeed | fail _ | drop | hold => exact ⟨kin_giveBack (kin_resolve called t _), rfl⟩

theorem kin_frame (app : Application σ) (f : Frame) (t : Ticket) :
    Kindred (h.frame app f t) (k.frame app f t) := by
  have handed := kin_note kin (.handed (.frame f))
  obtain ⟨house, journal, rfl, same⟩ := kin
  unfold frame
  dsimp only [note]
  split
  · obtain ⟨called, reply⟩ := kin_call handed app (.frame f)
    exact reply ▸ kin_answer called t _
  · next a _ =>
    have stepped := handed.set
      (fun g => { g with handler := .assembling (a.step app.hooks h.session.config f).1 })
      (fun _ _ _ => rfl) rfl
    exact kin_settleFrame (kin_foldl_log stepped _) app f t _

theorem kin_failed (app : Application σ) (e : Failure) :
    Kindred (h.failed app e) (k.failed app e) := by
  have told := kin_endAssembly (kin_note kin (.handed (.failed e))) (·.failed)
  obtain ⟨called, reply⟩ := kin_callIf told app app.hooks.onError (.failed e)
  exact ⟨called, congrArg crash? reply⟩

theorem kin_closed (app : Application σ) (code : CloseCode) :
    Kindred (h.closed app code) (k.closed app code) := by
  have told := kin_endAssembly (kin_note kin (.handed (.closed code))) (·.ended)
  obtain ⟨called, reply⟩ := kin_callIf told app app.hooks.onClosed (.closed code)
  exact ⟨called, congrArg crash? reply⟩

end Same

end Host

end WebSocketEngine
