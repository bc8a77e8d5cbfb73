import WebSocketEngine.Proofs.Config.Handles
import WebSocketEngine.Proofs.Host.Alike
import WebSocketEngine.Proofs.Host.Reopening

/-!
What a host heeds of its configuration, and what its application makes of that.

    calls ──▶ changes of the configuration    all that there are, but for those from outside
          └─▶ units of demand                 and one more for a frame that passes unseen, if the
                                              demand flag is set by then

Whatever happens at the handler, the configuration is left with what the application has written
meanwhile, and the units with what it has granted meanwhile (`Heeds`).  A frame is too large exactly
if its message would go beyond the limit (`tooLarge_iff`).
-/

namespace WebSocketEngine

variable {σ : Type}

open Config (Change)

/-! ### What an application writes -/

/-- The changes that an act makes. -/
def Act.changes : Act → List Change
  | .change x => [x]
  | .setIdleTimeout d => [{ Change.nothing with idle := some d }]
  | .demand _ | .send _ _ _ | .sendMessage _ _ _ _ | .abort _ | .shutdown => []

theorem Act.configure_eq (c : Config) (a : Act) : a.configure c = c.after a.changes := by
  cases a with
  | change x => exact (Config.after_singleton c x).symm
  | setIdleTimeout d =>
    exact ((Config.setters_eq_apply c).1 d).trans (Config.after_singleton c _).symm
  | demand | send | sendMessage | abort | shutdown => rfl

theorem foldl_add (n : UInt64) (ns : List UInt64) :
    ns.foldl (· + ·) n = n + ns.foldl (· + ·) 0 :=
  calc
    ns.foldl (· + ·) n = ns.foldl (· + ·) (n + 0) := by rw [UInt64.add_zero]
    _ = n + ns.foldl (· + ·) 0 := List.foldl_assoc

namespace Application

variable (app : Application σ) (memory : σ) (calls more : List Call)

/-- The changes that the application makes in some calls. -/
def changes : List Change := (app.deeds memory calls).flatMap Act.changes

/-- The units that the application grants in some calls. -/
def units : UInt64 := ((app.deeds memory calls).map Act.grant).foldl (· + ·) 0

theorem changes_append :
    app.changes memory (calls ++ more) =
      app.changes memory calls ++ app.changes (app.recollect memory calls) more := by
  rw [changes, deeds_append, List.flatMap_append]
  rfl

theorem units_append :
    app.units memory (calls ++ more) =
      app.units memory calls + app.units (app.recollect memory calls) more := by
  rw [units, deeds_append, List.map_append, List.foldl_append, foldl_add]
  rfl

theorem grants_append :
    app.grants memory (calls ++ more) =
      app.grants memory calls + app.grants (app.recollect memory calls) more := by
  rw [grants, deeds_append, List.map_append, List.sum_append]
  rfl

end Application

/-- What an entry says of a unit of demand that a task has taken. -/
def Note.unit? : Note → Option Unit
  | .served _ | .took => some ()
  | .handed _ | .called _ | .accepted _ _ | .fetched _ _ | .settled _ _ | .logged _ => none

namespace Host

/-- Frames are taken by an assembler. -/
def Assembles (h : Host σ) : Prop := ∃ a, h.handler = .assembling a

/-- How many units of demand tasks have taken. -/
def drawn (h : Host σ) : Nat := (h.record Note.unit?).length

/-- The application may have been called.  The configuration is left with what it has written in
    these calls, and the units of demand with what it has granted, and `n` more.  No task has taken
    any. -/
structure Heeds (app : Application σ) (n : UInt64) (h k : Host σ) : Prop where
  called : ∃ calls, k.calls = h.calls ++ calls ∧ k.memory = app.recollect h.memory calls ∧
    k.session.config = h.session.config.after (app.changes h.memory calls) ∧
    k.session.demand = h.session.demand + app.units h.memory calls + n
  assembles : h.Assembles → k.Assembles
  drawn : k.drawn = h.drawn

variable {app : Application σ} {m n : UInt64} {h k l : Host σ}

theorem Heeds.trans (first : Heeds app m h k) (second : Heeds app n k l) :
    Heeds app (m + n) h l := by
  obtain ⟨cs, called, memory, config, demand⟩ := first.called
  obtain ⟨ds, called', memory', config', demand'⟩ := second.called
  refine ⟨⟨cs ++ ds, ?_, ?_, ?_, ?_⟩, fun assembles => second.assembles (first.assembles assembles),
    second.drawn.trans first.drawn⟩
  · rw [called', called, List.append_assoc]
  · rw [memory', memory, app.recollect_append]
  · rw [config', config, memory, ← Config.after_append, app.changes_append]
  · rw [demand', demand, memory, app.units_append]
    ac_rfl

theorem Heeds.quietly (first : Heeds app n h k) (second : Heeds app 0 k l) : Heeds app n h l := by
  have both := first.trans second
  rwa [UInt64.add_zero] at both

theorem Heeds.before (first : Heeds app 0 h k) (second : Heeds app n k l) : Heeds app n h l := by
  have both := first.trans second
  rwa [UInt64.zero_add] at both

/-- The application was not called, and nobody else has written anything. -/
theorem heeds_of_uncalled (calls : k.calls = h.calls) (memory : k.memory = h.memory)
    (config : k.session.config = h.session.config)
    (demand : k.session.demand = h.session.demand + n) (handler : k.handler = h.handler)
    (drawn : k.drawn = h.drawn) : Heeds app n h k := by
  refine ⟨⟨[], ?_, memory, config, ?_⟩, fun ⟨a, assembling⟩ => ⟨a, handler.trans assembling⟩, drawn⟩
  · rw [calls, List.append_nil]
  · rw [demand]
    exact congrArg (· + n) (UInt64.add_zero _).symm

theorem heeds_of_eq (calls : k.calls = h.calls) (memory : k.memory = h.memory)
    (session : k.session = h.session) (handler : k.handler = h.handler)
    (drawn : k.drawn = h.drawn) : Heeds app 0 h k :=
  heeds_of_uncalled calls memory (by rw [session]) (by rw [session, UInt64.add_zero]) handler drawn

theorem heeds_refl (h : Host σ) : Heeds app 0 h h := heeds_of_eq rfl rfl rfl rfl rfl

theorem heeds_note (h : Host σ) {n : Note} (uncalled : n.call? = none) (untaken : n.unit? = none) :
    Heeds app 0 h (h.note n) := by
  refine heeds_of_eq ?_ rfl rfl rfl ?_
  · rw [calls, record_note, uncalled]
    exact List.append_nil _
  · rw [drawn, record_note, untaken]
    exact congrArg List.length (List.append_nil _)

theorem heeds_foldl_log (h : Host σ) (lines : List Log.Line) :
    Heeds app 0 h (lines.foldl log h) := by
  induction lines generalizing h with
  | nil => exact heeds_refl h
  | cons l lines ih => exact (heeds_note h rfl rfl).before (ih (h.log l))

theorem heeds_resolve (h : Host σ) (t : Ticket) (o : Outcome) : Heeds app 0 h (h.resolve t o) :=
  heeds_of_eq (calls_resolve h t o) (congrArg Account.memory (account_resolve h t o))
    (session_resolve h t o) (handler_resolve h t o)
    (congrArg List.length (record_deliver { h with ledger := _ } _ fun _ _ => rfl))

theorem heeds_of_sends {P : Frame → Prop} (sends : Sends P h k) : Heeds app 0 h k :=
  heeds_of_uncalled sends.calls (congrArg (·.memory) sends.still :) sends.config
    (sends.demand.trans (UInt64.add_zero _).symm) (congrArg (·.handler) sends.still :)
    (congrArg List.length (sends.record (fun _ _ => rfl) fun _ _ => rfl))

theorem heeds_abort (h : Host σ) (e : Failure) : Heeds app 0 h (h.abort e) := by
  have memory : (h.abort e).memory = h.memory := congrArg Account.memory (account_abort h e)
  have calls : (h.abort e).calls = h.calls := congrArg Account.calls (account_abort h e)
  rcases abort_cases h e with same | ⟨-, aborted⟩
  · rw [same]
    exact heeds_refl h
  · refine heeds_of_uncalled calls memory ?_ ?_ ?_ ?_ <;> rw [aborted]
    · rfl
    · exact (UInt64.add_zero _).symm
    · rfl
    · have logged : Heeds app 0 h (h.log (abortedLine h.session.id e)) := heeds_note h rfl rfl
      exact logged.drawn

theorem heeds_giveBack (h : Host σ) :
    Heeds app (if h.session.config.demanding && h.attached then 1 else 0) h h.giveBack := by
  unfold giveBack
  split
  · exact heeds_of_uncalled rfl rfl rfl rfl rfl rfl
  · exact heeds_refl h

/-! ### Calls -/

theorem demand_perform (h : Host σ) (a : Act) :
    (h.perform a).session.demand = h.session.demand + a.grant := by
  cases a with
  | change | setIdleTimeout | shutdown => exact (UInt64.add_zero _).symm
  | demand n => rfl
  | send f batch caller =>
    exact (sends_perform_send h f batch caller).demand.trans (UInt64.add_zero _).symm
  | sendMessage kind chunks batch caller =>
    exact (sends_perform_sendMessage h kind chunks batch caller).demand.trans
      (UInt64.add_zero _).symm
  | abort e =>
    refine Eq.trans ?_ (UInt64.add_zero _).symm
    rcases abort_cases h e with same | ⟨-, aborted⟩
    · rw [perform, same]
    · rw [perform, aborted]
      rfl

theorem demand_foldl_perform (h : Host σ) (acts : List Act) :
    (acts.foldl perform h).session.demand =
      h.session.demand + (acts.map Act.grant).foldl (· + ·) 0 := by
  rw [← foldl_add]
  induction acts generalizing h with
  | nil => rfl
  | cons a acts ih => rw [List.foldl_cons, ih, demand_perform, List.map_cons, List.foldl_cons]

theorem foldl_configure (c : Config) (acts : List Act) :
    acts.foldl Act.configure c = c.after (acts.flatMap Act.changes) := by
  induction acts generalizing c with
  | nil => rfl
  | cons a acts ih =>
    rw [List.foldl_cons, ih, Act.configure_eq, List.flatMap_cons, Config.after_append]

theorem heeds_call (h : Host σ) (c : Call) : Heeds app 0 h (h.call app c).1 := by
  have front := front_call app h c
  have deeds : app.deeds h.memory [c] = (app.react h.memory c).2.acts := List.append_nil _
  refine ⟨⟨[c], congrArg Front.calls front, congrArg Front.memory front, ?_, ?_⟩,
    fun ⟨a, assembling⟩ => ⟨a, (congrArg Front.handler front).trans assembling⟩, ?_⟩
  · rw [Application.changes, deeds, ← foldl_configure]
    exact congrArg Front.config front
  · rw [Application.units, deeds, UInt64.add_zero]
    exact demand_foldl_perform _ _
  · have performed : (h.call app c).1.record Note.unit? = h.record Note.unit? :=
      (record_foldl_perform _ _ (fun _ _ => rfl) (fun _ _ => rfl) fun _ => rfl).trans
        ((record_note _ h _).trans (List.append_nil _))
    exact congrArg List.length performed

theorem heeds_callIf (h : Host σ) (installed : Bool) (c : Call) :
    Heeds app 0 h (h.callIf app installed c).1 := by
  cases installed with
  | false => exact heeds_refl h
  | true => exact heeds_call h c

theorem heeds_answer (h : Host σ) (t : Ticket) (reply : Reply) :
    Heeds app 0 h (h.answer t reply).1 := by
  cases reply with
  | hold => exact heeds_of_eq rfl rfl rfl rfl rfl
  | succeed | fail _ | drop | panic _ => exact heeds_resolve h t _

/-! ### Events at the handler -/

theorem heeds_handler (h : Host σ) (a : Assembly.Assembler) :
    Heeds app 0 h { h with handler := .assembling a } where
  called := (heeds_refl h).called
  assembles _ := ⟨a, rfl⟩
  drawn := rfl

theorem heeds_endAssembly (h : Host σ) (f : Assembly.Assembler → Assembly.Assembler) :
    Heeds app 0 h (h.endAssembly f) := by
  unfold endAssembly
  split
  · exact heeds_handler h _
  · exact heeds_refl h

theorem heeds_opened (h : Host σ) (t : Ticket) : Heeds app 0 h (h.opened app t).1 := by
  have handed : Heeds app 0 h (h.note (.handed .opened)) := heeds_note h rfl rfl
  unfold opened
  dsimp only
  split
  · exact (handed.quietly (heeds_call _ _)).quietly (heeds_answer _ t _)
  · next a _ =>
    have called := handed.quietly (heeds_callIf _ app.hooks.onOpen .opened)
    split
    · next eq =>
      rw [eq] at called
      exact called.quietly (heeds_resolve _ t _)
    · next k _ _ eq =>
      rw [eq] at called
      exact (called.quietly (heeds_handler k a.opened)).quietly (heeds_resolve _ t _)

theorem heeds_failed (h : Host σ) (e : Failure) : Heeds app 0 h (h.failed app e).1 :=
  ((heeds_note h rfl rfl).quietly (heeds_endAssembly _ (·.failed))).quietly
    (heeds_callIf _ app.hooks.onError (.failed e))

theorem heeds_closed (h : Host σ) (code : CloseCode) : Heeds app 0 h (h.closed app code).1 :=
  ((heeds_note h rfl rfl).quietly (heeds_endAssembly _ (·.ended))).quietly
    (heeds_callIf _ app.hooks.onClosed (.closed code))

end Host

/-! ### Frames -/

/-- The frame passes, and the application does not see that it does. -/
def Assembly.Verdict.passes : Assembly.Verdict → Bool
  | .control | .taken => true
  | .ended | .complete _ | .refused _ => false

namespace Host

variable {app : Application σ} {m n : UInt64} {h k l : Host σ}

/-- The unit that is given back for a frame, if the demand flag is set by then. -/
def back (v : Assembly.Verdict) (r : Host σ × Option Panic) : UInt64 :=
  if v.passes && r.2.isNone && r.1.session.config.demanding && r.1.attached then 1 else 0

theorem config_giveBack (h : Host σ) : h.giveBack.session.config = h.session.config :=
  congrArg Front.config (front_giveBack h)

theorem heeds_passing (h : Host σ) {v : Assembly.Verdict} (passes : v.passes = true) (t : Ticket) :
    Heeds app (back v ((h.resolve t (.ok ())).giveBack, none)) h
      (h.resolve t (.ok ())).giveBack := by
  have given : back v ((h.resolve t (.ok ())).giveBack, none) =
      if (h.resolve t (.ok ())).session.config.demanding && (h.resolve t (.ok ())).attached then 1
      else 0 := by
    rw [back, passes, attached_giveBack, config_giveBack]
    rfl
  rw [given]
  exact (heeds_resolve h t _).before (heeds_giveBack _)

theorem back_eq_zero {v : Assembly.Verdict} (seen : v.passes = false) (r : Host σ × Option Panic) :
    back v r = 0 := by
  rw [back, seen]
  rfl

theorem heeds_settleFrame (h : Host σ) (f : Frame) (t : Ticket) (v : Assembly.Verdict) :
    Heeds app (back v (h.settleFrame app f t v)) h (h.settleFrame app f t v).1 := by
  cases v with
  | ended | refused _ => exact heeds_resolve h t _
  | taken => exact heeds_passing h rfl t
  | complete m =>
    rw [back_eq_zero rfl]
    simp only [settleFrame]
    split
    · exact (heeds_call h _).quietly (heeds_answer _ _ _)
    · exact heeds_resolve h _ _
  | control =>
    have called : Heeds app 0 h (h.callIf app app.hooks.onControl (.control f)).1 :=
      heeds_callIf h _ _
    simp only [settleFrame]
    split
    · next k p eq =>
      rw [eq] at called
      have crashed : back .control (k.drop t, some p) = 0 := rfl
      rw [crashed]
      exact called.quietly (heeds_resolve k t _)
    · next k _ _ eq =>
      rw [eq] at called
      exact called.before (heeds_passing k rfl t)

/-- The host when its assembler has judged a frame. -/
def judged (h : Host σ) (f : Frame) (e : Assembly.Effect) : Host σ :=
  e.2.1.foldl log { h.note (.handed (.frame f)) with handler := .assembling e.1 }

theorem frame_of_assembling (app : Application σ) {a : Assembly.Assembler}
    (handler : h.handler = .assembling a) (f : Frame) (t : Ticket) :
    let e := a.step app.hooks h.session.config f
    h.frame app f t = (h.judged f e).settleFrame app f t e.2.2 := by
  have noted : (h.note (.handed (.frame f))).handler = .assembling a := handler
  unfold frame
  simp only [noted]
  rfl

theorem heeds_judged (h : Host σ) (f : Frame) (e : Assembly.Effect) :
    Heeds app 0 h (h.judged f e) :=
  ((heeds_note h rfl rfl).quietly (heeds_handler _ e.1)).quietly (heeds_foldl_log _ _)

end Host

/-- The unit that comes back for a frame, from an assembler that lets it pass unseen. -/
def Host.returned (app : Application σ) (h : Host σ) (f : Frame) (t : Ticket) : UInt64 :=
  match h.handler with
  | .direct => 0
  | .assembling a => back (a.step app.hooks h.session.config f).2.2 (h.frame app f t)

/-- Where the application has crashed nothing comes back. -/
theorem Host.returned_of_crash {app : Application σ} {h : Host σ} {f : Frame} {t : Ticket} {p : Panic}
    (crashed : (h.frame app f t).2 = some p) : h.returned app f t = 0 := by
  unfold returned
  split
  · rfl
  · unfold back
    rw [crashed, Option.isNone_some, Bool.and_false]
    rfl

theorem Host.heeds_frame {app : Application σ} (h : Host σ) (f : Frame) (t : Ticket) :
    Heeds app (h.returned app f t) h (h.frame app f t).1 := by
  cases handler : h.handler with
  | direct =>
    have noted : (h.note (.handed (.frame f))).handler = .direct := handler
    unfold returned frame
    simp only [handler, noted]
    exact ((heeds_note h rfl rfl).quietly (heeds_call _ _)).quietly (heeds_answer _ t _)
  | assembling a =>
    unfold returned
    simp only [handler, frame_of_assembling app handler f t]
    exact (heeds_judged h f _).before (heeds_settleFrame _ f t _)

/-! ### Units that are taken -/

theorem toNat_foldl_add (n : UInt64) (ns : List UInt64) :
    (ns.foldl (· + ·) n).toNat = (n.toNat + (ns.map UInt64.toNat).sum) % UInt64.size := by
  induction ns generalizing n with
  | nil => exact (Nat.mod_eq_of_lt n.toNat_lt).symm
  | cons m ns ih =>
    rw [List.foldl_cons, ih, UInt64.toNat_add, List.map_cons, List.sum_cons, Nat.mod_add_mod,
      Nat.add_assoc]

/-- What the application grants, as the counter sees it. -/
theorem Application.toNat_units (app : Application σ) (memory : σ) (calls : List Call) :
    (app.units memory calls).toNat = app.grants memory calls % UInt64.size := by
  rw [units, toNat_foldl_add, List.map_map]
  exact congrArg (· % UInt64.size) (Nat.zero_add _)

namespace Host

variable {app : Application σ} {m n p q : Nat} {h k l : Host σ}

/-- The units that are there or that tasks have taken. -/
def stock (h : Host σ) : Nat := h.session.demand.toNat + h.drawn

/-- The application may have been called.  The configuration is left with what it has written in
    these calls.  To the stock came what it has granted and `n` units more; it is less `m` units that
    no task has taken, and less what is lost when the counter of demand wraps. -/
structure Tallies (app : Application σ) (n m : Nat) (h k : Host σ) : Prop where
  called : ∃ calls laps, k.calls = h.calls ++ calls ∧ k.memory = app.recollect h.memory calls ∧
    k.session.config = h.session.config.after (app.changes h.memory calls) ∧
    h.stock + app.grants h.memory calls + n = k.stock + m + UInt64.size * laps
  assembles : h.Assembles → k.Assembles

theorem Tallies.trans (first : Tallies app n m h k) (second : Tallies app p q k l) :
    Tallies app (n + p) (m + q) h l := by
  obtain ⟨cs, i, called, memory, config, stock⟩ := first.called
  obtain ⟨ds, j, called', memory', config', stock'⟩ := second.called
  refine ⟨⟨cs ++ ds, i + j, ?_, ?_, ?_, ?_⟩,
    fun assembles => second.assembles (first.assembles assembles)⟩
  · rw [called', called, List.append_assoc]
  · rw [memory', memory, app.recollect_append]
  · rw [config', config, memory, ← Config.after_append, app.changes_append]
  · rw [memory] at stock'
    rw [app.grants_append, Nat.mul_add]
    omega

theorem Tallies.quietly (first : Tallies app n m h k) (second : Tallies app 0 0 k l) :
    Tallies app n m h l := first.trans second

theorem Tallies.before (first : Tallies app 0 0 h k) (second : Tallies app n m k l) :
    Tallies app n m h l := by
  have both := first.trans second
  rwa [Nat.zero_add, Nat.zero_add] at both

/-- The counter adds, and wraps. -/
theorem Heeds.tallies {n : UInt64} (heeds : Heeds app n h k) : Tallies app n.toNat 0 h k := by
  obtain ⟨calls, called, memory, config, demand⟩ := heeds.called
  let sum := h.session.demand.toNat + app.grants h.memory calls + n.toNat
  have wrapped : k.session.demand.toNat = sum % UInt64.size := by
    rw [demand]
    refine (UInt64.toNat_add _ _).trans ?_
    rw [UInt64.toNat_add, app.toNat_units, Nat.add_mod_mod, Nat.mod_add_mod]
  have whole : sum % UInt64.size + UInt64.size * (sum / UInt64.size) = sum := Nat.mod_add_div _ _
  refine ⟨⟨calls, sum / UInt64.size, called, memory, config, ?_⟩, heeds.assembles⟩
  rw [stock, stock, heeds.drawn, wrapped]
  omega

/-- A unit that nobody has recorded is gone. -/
theorem tallies_take {session : Session} (taken : h.session.take? = some session) :
    Tallies app 0 1 h { h with session } := by
  obtain ⟨-, rfl⟩ := Session.eq_of_take? taken
  have less : (h.session.demand - 1).toNat + 1 = h.session.demand.toNat :=
    Session.demand_of_take? taken
  refine ⟨⟨[], 0, (List.append_nil _).symm, rfl, rfl, ?_⟩, fun assembles => assembles⟩
  show h.session.demand.toNat + h.drawn + 0 + 0 =
    (h.session.demand - 1).toNat + h.drawn + 1 + 0
  omega

/-- A unit that a task takes is in the record. -/
theorem tallies_draw {session : Session} (taken : h.session.take? = some session) {n : Note}
    (uncalled : n.call? = none) (unit : n.unit? = some ()) :
    Tallies app 0 0 h ({ h with session }.note n) := by
  obtain ⟨-, rfl⟩ := Session.eq_of_take? taken
  have less : (h.session.demand - 1).toNat + 1 = h.session.demand.toNat :=
    Session.demand_of_take? taken
  let paid := { h.session with demand := h.session.demand - 1 }
  have drawn : ({ h with session := paid }.note n).drawn = h.drawn + 1 := by
    rw [Host.drawn, record_note, unit]
    exact List.length_append
  refine ⟨⟨[], 0, ?_, rfl, rfl, ?_⟩, fun assembles => assembles⟩
  · rw [calls, record_note, uncalled]
    rfl
  · rw [stock, stock, drawn]
    show h.session.demand.toNat + h.drawn + 0 + 0 =
      (h.session.demand - 1).toNat + (h.drawn + 1) + 0 + 0
    omega

end Host

/-! ### Frames that are too large -/

namespace Message

variable {kind k : MessageKind} {n l : Nat} {limit : Option Nat} {bs : Bytes}

theorem checkSize_tooLarge {size : Nat} :
    checkSize kind size limit = .error (.messageTooLarge k n l) ↔
      k = kind ∧ n = size ∧ limit = some l ∧ l < n := by
  unfold checkSize
  split
  · next m =>
    split
    · next beyond =>
      constructor
      · rintro ⟨⟩
        exact ⟨rfl, rfl, rfl, beyond⟩
      · rintro ⟨rfl, rfl, ⟨⟩, -⟩
        rfl
    · next within =>
      refine iff_of_false (by simp) ?_
      rintro ⟨-, rfl, ⟨⟩, beyond⟩
      exact within beyond
  · refine iff_of_false (by simp) ?_
    rintro ⟨-, -, ⟨⟩, -⟩

theorem ofBytes_ne_tooLarge : ofBytes kind bs ≠ .error (.messageTooLarge k n l) := by
  unfold ofBytes
  split
  · simp
  · split <;> simp

theorem ofSingleFrame_tooLarge :
    ofSingleFrame kind bs limit = .error (.messageTooLarge k n l) ↔
      k = kind ∧ n = bs.length ∧ limit = some l ∧ l < n := by
  rw [← checkSize_tooLarge, ofSingleFrame]
  cases checkSize kind bs.length limit with
  | error e => simp [bind, Except.bind]
  | ok _ => exact iff_of_false ofBytes_ne_tooLarge (by simp)

end Message

namespace Assembly

variable {kind k : MessageKind} {n l : Nat} {limit : Option Nat} {chunk : Bytes}

theorem Accumulator.append_tooLarge {p : Accumulator} :
    p.append chunk limit = .error (.messageTooLarge k n l) ↔
      k = p.kind ∧ n = p.buffer.length + chunk.length ∧ limit = some l ∧ l < n := by
  rw [← Message.checkSize_tooLarge, append]
  cases Message.checkSize p.kind (p.buffer.length + chunk.length) limit with
  | error e => simp
  | ok _ =>
    refine iff_of_false ?_ (by simp)
    dsimp only
    split
    · simp
    · split <;> simp

theorem Accumulator.finish_ne_tooLarge (p : Accumulator) :
    p.finish ≠ .error (.messageTooLarge k n l) := by
  unfold finish
  split
  · simp
  · split
    · simp
    · exact Message.ofBytes_ne_tooLarge

namespace Assembler

variable {a : Assembler} {hooks : Hooks} {config : Config} {f : Frame}

/-- What a message would weigh with a data frame, if that is of a kind that is taken. -/
def weighData (a : Assembler) (hooks : Hooks) (f : Frame) : Option (MessageKind × Nat) :=
  if a.closed then none
  else
    match a.kindOf f.op with
    | .error _ => none
    | .ok kind =>
      if hooks.handles kind then some (kind, a.pending.length + f.payload.length) else none

/-- What a message would weigh with a frame, if that is a data frame of a kind that is taken. -/
def weigh (a : Assembler) (hooks : Hooks) (f : Frame) : Option (MessageKind × Nat) :=
  match f.op with
  | .ping | .pong | .close => none
  | .text | .binary | .continuation => a.weighData hooks f

theorem takeData_tooLarge (same : ∀ p ∈ a.part, p.kind = kind) :
    (a.takeData kind limit f).2.2 = .refused (.messageTooLarge k n l) ↔
      k = kind ∧ n = a.pending.length + f.payload.length ∧ limit = some l ∧ l < n := by
  unfold takeData
  split
  · next single =>
    have idle : a.part = none := by simpa using (Bool.and_eq_true_iff.mp single).2
    have whole : a.pending.length + f.payload.length = f.payload.length := by
      rw [pending, idle]
      exact Nat.zero_add _
    rw [whole, ← Message.ofSingleFrame_tooLarge]
    cases Message.ofSingleFrame kind f.payload limit with
    | ok m => simp
    | error e => simp [reject]
  · have part : (a.part.getD (.fresh kind)).kind = kind ∧
        (a.part.getD (.fresh kind)).buffer = a.pending := by
      rw [pending]
      cases open_ : a.part with
      | none => exact ⟨rfl, rfl⟩
      | some p => exact ⟨same p open_, rfl⟩
    have appended : (a.part.getD (.fresh kind)).append f.payload limit =
          .error (.messageTooLarge k n l) ↔
        k = kind ∧ n = a.pending.length + f.payload.length ∧ limit = some l ∧ l < n := by
      rw [Accumulator.append_tooLarge, part.1, part.2]
    rw [← appended]
    dsimp only
    cases (a.part.getD (.fresh kind)).append f.payload limit with
    | error e => simp [reject]
    | ok p =>
      refine iff_of_false ?_ (by simp)
      dsimp only
      split
      · simp
      · split
        · simp
        · next finished =>
          rintro ⟨⟩
          exact p.finish_ne_tooLarge finished

theorem kindOf_ne_tooLarge {op : OpCode} : a.kindOf op ≠ .error (.messageTooLarge k n l) := by
  unfold kindOf
  split <;> simp [orphan, interleaved]

theorem data_tooLarge :
    (a.data hooks config f).2.2 = .refused (.messageTooLarge k n l) ↔
      a.weighData hooks f = some (k, n) ∧ config.limit k = some l ∧ l < n := by
  unfold data weighData
  split
  · simp [afterClose]
  · cases found : a.kindOf f.op with
    | error e =>
      refine iff_of_false ?_ (by simp)
      rintro ⟨⟩
      exact kindOf_ne_tooLarge found
    | ok kind =>
      dsimp only
      split
      · rw [takeData_tooLarge (kind_of_kindOf found), Option.some.injEq, Prod.mk.injEq]
        constructor
        · rintro ⟨rfl, rfl, limit, beyond⟩
          exact ⟨⟨rfl, rfl⟩, limit, beyond⟩
        · rintro ⟨⟨rfl, rfl⟩, limit, beyond⟩
          exact ⟨rfl, rfl, limit, beyond⟩
      · simp [reject, unsupported]

/-- A frame is too large exactly if there is a limit, and its message would go beyond that. -/
theorem tooLarge_iff :
    (a.step hooks config f).2.2 = .refused (.messageTooLarge k n l) ↔
      a.weigh hooks f = some (k, n) ∧ config.limit k = some l ∧ l < n := by
  unfold step weigh
  cases f.op with
  | ping | pong => simp
  | close => simp [close]
  | text | binary | continuation => exact data_tooLarge

end Assembler

end Assembly

end WebSocketEngine
