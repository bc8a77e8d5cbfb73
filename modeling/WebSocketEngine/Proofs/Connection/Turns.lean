import WebSocketEngine.Proofs.Connection.Beats
import WebSocketEngine.Proofs.Connection.Lifecycle

/-!
What the driver keeps besides its callbacks.

At most one token of the last callback is kept, and none once that callback has its outcome
(`Docket.Linear`); so a callback is settled once.  Much of what the driver does is no callback: a
failure and the end are reported, a CLOSE is sent, the connection is left (`Spares`, `Ends`).
-/

namespace WebSocketEngine

variable {σ : Type}

open Connection (Sign Watch)

/-! ### The driver's tokens -/

namespace Host

/-- The tokens that are kept for the driver are of its callbacks so far, and only one is of the last
    callback, as long as that has no outcome. -/
structure Docket.Linear (d : Docket) : Prop where
  known : ∀ t ∈ d.held, ∀ n, t.sink = .driver n → 0 < n ∧ n ≤ d.callbacks
  once : d.held.countP (fun t => t.sink = .driver d.callbacks) ≤ if d.verdict = none then 1 else 0

/-- A new callback. -/
def Docket.next (d : Docket) : Docket := { d with callbacks := d.callbacks + 1, verdict := none }

variable {d e : Docket}

theorem Docket.Linear.heard (linear : d.Linear) {c : Call} (heard : (d.next.add c).Heard e) :
    e.Linear := by
  have known (t : Ticket) (mem : t ∈ d.held) (n : Nat) (sink : t.sink = .driver n) :
      0 < n ∧ n ≤ d.callbacks + 1 := by
    obtain ⟨positive, early⟩ := linear.known t mem n sink
    exact ⟨positive, early.trans (Nat.le_succ _)⟩
  have unknown : d.held.countP (fun t => t.sink = .driver (d.callbacks + 1)) = 0 := by
    refine List.countP_eq_zero.mpr fun t mem fresh => ?_
    exact Nat.not_succ_le_self _ (linear.known t mem _ (of_decide_eq_true fresh)).2
  cases heard with
  | nothing => exact ⟨known, unknown.le.trans (Nat.zero_le _)⟩
  | verdict o => exact ⟨known, unknown.le⟩
  | kept t mine =>
    refine ⟨fun u mem n sink => ?_, ?_⟩
    · rcases List.mem_append.mp mem with old | last
      · exact known u old n sink
      · rw [List.mem_singleton.mp last, mine] at sink
        cases sink
        exact ⟨Nat.succ_pos _, Nat.le_refl _⟩
    · show (d.held ++ [t]).countP (fun u => u.sink = .driver (d.callbacks + 1)) ≤ 1
      rw [List.countP_append, unknown, List.countP_singleton]
      split <;> omega

/-- A token that is kept is let go of. -/
theorem Docket.Linear.release (linear : d.Linear) {i : Nat} {t : Ticket}
    (kept : d.held[i]? = some t) :
    { d with held := d.held.eraseIdx i }.Linear ∧ (t.sink = .driver d.callbacks →
      0 < d.callbacks ∧ d.verdict = none ∧
        ∀ o, { d with held := d.held.eraseIdx i, verdict := some o }.Linear) := by
  obtain ⟨bound, rfl⟩ := List.getElem?_eq_some_iff.mp kept
  have known (u : Ticket) (mem : u ∈ d.held.eraseIdx i) :=
    linear.known u (List.mem_of_mem_eraseIdx mem)
  have count := (List.getElem_cons_eraseIdx_perm bound).countP_eq
    (fun t => decide (t.sink = .driver d.callbacks))
  rw [List.countP_cons] at count
  have once := linear.once
  refine ⟨⟨known, ?_⟩, fun mine => ?_⟩
  · show (d.held.eraseIdx i).countP (fun t => t.sink = .driver d.callbacks) ≤
      if d.verdict = none then 1 else 0
    omega
  · rw [if_pos (decide_eq_true mine)] at count
    have waiting : d.verdict = none := by
      by_contra settled
      rw [if_neg settled] at once
      omega
    rw [if_pos waiting] at once
    refine ⟨(linear.known _ (List.getElem_mem bound) _ mine).1, waiting, fun o => ⟨known, ?_⟩⟩
    show (d.held.eraseIdx i).countP (fun t => t.sink = .driver d.callbacks) ≤ 0
    omega

/-! ### Work beside the callbacks -/

/-- The handler may be given events, but no callback of the driver. -/
structure Spares (app : Application σ) (h k : Host σ) : Prop where
  attends : Attends .pong app h k
  docket : ∃ es, es.filterMap Sign.ofCall? = [] ∧
    k.docket = { h.docket with events := h.docket.events ++ es }

variable {app : Application σ} {h k l : Host σ}

theorem Spares.trans (first : Spares app h k) (second : Spares app k l) : Spares app h l := by
  obtain ⟨es, silent, docket⟩ := first.docket
  obtain ⟨fs, silent', docket'⟩ := second.docket
  refine ⟨first.attends.trans second.attends, es ++ fs, ?_, ?_⟩
  · rw [List.filterMap_append, silent, silent']
    rfl
  · rw [docket', docket, List.append_assoc]

theorem Attends.spares (attends : Attends .pong app h k) (docket : k.docket = h.docket) :
    Spares app h k :=
  ⟨attends, [], rfl, by rw [docket, List.append_nil]⟩

/-- What the writer, the application and the docket do not notice. -/
theorem spares_of_eq (journal : k.journal = h.journal) (session : k.session = h.session)
    (ready : k.ready = h.ready) (memory : k.memory = h.memory) (docket : k.docket = h.docket) :
    Spares app h k :=
  (attends_of_eq journal session ready memory).spares docket

theorem spares_log (h : Host σ) (l : Log.Line) : Spares app h (h.log l) :=
  (attends_note h rfl rfl).spares (docket_note h rfl)

theorem spares_foldl_log (h : Host σ) (lines : List Log.Line) :
    Spares app h (lines.foldl log h) := by
  induction lines generalizing h with
  | nil => exact spares_of_eq rfl rfl rfl rfl rfl
  | cons l lines ih => exact (spares_log h l).trans (ih _)

theorem spares_count (h : Host σ) (m : Metric) : Spares app h (h.count m) :=
  spares_of_eq rfl rfl rfl rfl rfl

theorem spares_failed (h : Host σ) (e : Failure) : Spares app h (h.failed app e).1 :=
  ⟨attends_failed h e, [.failed e], rfl, docket_failed h e⟩

theorem spares_closed (h : Host σ) (code : CloseCode) : Spares app h (h.closed app code).1 :=
  ⟨attends_closed h code, [.closed code], rfl, docket_closed h code⟩

end Host

namespace Connection

variable {app : Application σ} {w : Watch} {c d : Connection σ}

theorem spares_sendClose (h : Host σ) (code : CloseCode) (reason : String) :
    Host.Spares app h (sendClose h code reason) := by
  have silent : (Completion.Token.root Sink.silent).sink.Outside := trivial
  unfold sendClose
  split
  · exact Host.spares_of_eq rfl rfl rfl rfl rfl
  · have sends : Host.Sends (fun _ => True) h (h.close code reason (.root .silent)) :=
      Host.sends_send h trivial silent false
    have close : [Frame.close code reason].filter (·.op = .pong) = [] := by
      simp [op_close]
    refine Host.Attends.spares (Host.Offers.attends ?_ sends.calls ?_) (Host.docket_sends sends)
    · exact (Host.offers_send h _ silent false).mono (by rw [close]; exact List.nil_sublist _)
    · exact (congrArg Host.memory sends.still :)

/-! ### Ways out -/

/-- The connection has come to its end, and no callback was handed over on the way. -/
structure Ends (app : Application σ) (c d : Connection σ) : Prop where
  spares : Host.Spares app c.host d.host
  finished : ∃ ending, d.phase = .finished ending
  fetched : d.fetched = c.fetched
  inbound : d.inbound = []
  ended : d.ended = c.ended

theorem ends_release (app : Application σ) (c : Connection σ) (ending : Ending) :
    Ends app c (c.release ending) where
  spares := by
    let h := { c.host with
      house := { c.host.house with running := c.host.house.running - 1 }
      parked := c.host.parked.erase .driver }
    have freed : Host.Spares app c.host h := Host.spares_of_eq rfl rfl rfl rfl rfl
    exact (freed.trans (Host.spares_count h _)).trans (Host.spares_log _ _)
  finished := ⟨ending, rfl⟩
  fetched := rfl
  inbound := rfl
  ended := rfl

theorem ends_leave (app : Application σ) (c : Connection σ) (ending : Ending) :
    Ends app c (c.leave ending) := by
  unfold leave
  dsimp only
  split
  · exact { ends_release app { c with supervisor := _ } ending with }
  · exact ends_release app c ending

theorem ends_crash (app : Application σ) (c : Connection σ) (p : Panic) :
    Ends app c (c.crash p) := by
  have released := ends_release app c (.crashed p)
  unfold crash
  dsimp only
  split
  · refine { released with spares := ?_ }
    exact (released.spares.trans (Host.spares_count _ _)).trans (Host.spares_foldl_log _ _)
  · exact released

/-- After a callback that is not the driver's. -/
theorem ends_unlessCrashed {r : Host σ × Option Panic} (spares : Host.Spares app c.host r.1)
    {next : Connection σ → Connection σ}
    (ends : Ends app { c with host := r.1 } (next { c with host := r.1 })) :
    Ends app c (c.unlessCrashed r next) := by
  have on {d : Connection σ} (ends : Ends app { c with host := r.1 } d) : Ends app c d :=
    { ends with spares := spares.trans ends.spares }
  unfold unlessCrashed
  dsimp only
  split
  · exact on (ends_crash app _ _)
  · exact on ends

theorem ends_finish (app : Application σ) (c : Connection σ) (code : CloseCode) :
    Ends app c (c.finish app code) := by
  unfold finish
  exact ends_unlessCrashed ((Host.spares_log c.host _).trans (Host.spares_closed _ code))
    (ends_leave app _ _)

theorem ends_fail (app : Application σ) (c : Connection σ) (e : Failure) :
    Ends app c (c.fail app e) := by
  unfold fail
  refine ends_unlessCrashed (((Host.spares_log c.host _).trans (Host.spares_count _ _)).trans
    (Host.spares_failed _ e)) ?_
  exact ends_unlessCrashed ((spares_sendClose _ _ _).trans (Host.spares_closed _ e.closeCode))
    (ends_leave app _ _)

theorem ends_finishShutdown (app : Application σ) (c : Connection σ) :
    Ends app c (c.finishShutdown app) := by
  have ends := ends_finish app
    { c with host := sendClose c.host .goingAway shutdownReason } .goingAway
  exact { ends with spares := (spares_sendClose _ _ _).trans ends.spares }

end Connection

end WebSocketEngine
