import WebSocketEngine.Idle.Watch
import Mathlib.Data.List.Basic

/-!
One tracker among many, and the one registration that watches it.

A sweep deals with each tracker as if it were alone (`collect_filter`), and so does the telling of
those that have expired.  So what a sweep does to one tracker is one check, and one call exactly if
that check finds it expired (`watched_sweepAt`).
-/

namespace WebSocketEngine.Idle

/-- How long a tracker has been idle that expired just now. -/
def State.idleFor? : State → Option Duration
  | .expired idleFor => some idleFor
  | .disabled | .active _ | .closing => none

/-! ### One tracker -/

namespace Tracker

/-- A check finds an expiry just when it sets the flag, and then the timeout is in force and has
    passed. -/
theorem check_cases (t : Tracker) (timeout : Duration) (now : Instant) :
    ((t.check timeout now).2.idleFor? = none ∧ (t.check timeout now).1 = t ∧
      (t.expired = true ∨ timeout = .zero ∨ (t.idleFor now).nanos < timeout.nanos)) ∨
    ((t.check timeout now).2.idleFor? = some (t.idleFor now) ∧
      (t.check timeout now).1 = { t with expired := true } ∧ t.expired = false ∧
      timeout ≠ .zero ∧ timeout.nanos ≤ (t.idleFor now).nanos) := by
  unfold check
  by_cases reported : t.expired = true
  · rw [if_pos reported]
    exact .inl ⟨rfl, rfl, .inl reported⟩
  · rw [if_neg reported]
    by_cases disabled : timeout = .zero
    · rw [if_pos disabled]
      exact .inl ⟨rfl, rfl, .inr (.inl disabled)⟩
    · rw [if_neg disabled]
      by_cases active : (t.idleFor now).nanos < timeout.nanos
      · rw [if_pos active]
        exact .inl ⟨rfl, rfl, .inr (.inr active)⟩
      · rw [if_neg active]
        exact .inr ⟨rfl, rfl, by simpa using reported, disabled, Nat.not_lt.mp active⟩

end Tracker

namespace Tracked

/-- How long the tracker has been idle, if a check finds now that it has expired. -/
def expiry? (t : Tracked) (now : Instant) : Option Duration :=
  (t.tracker.check t.config.idleTimeout now).2.idleFor?

def checked (t : Tracked) (now : Instant) : Tracked :=
  { t with tracker := (t.tracker.check t.config.idleTimeout now).1 }

/-- The tracker after its registration was told. -/
def told (t : Tracked) (now : Instant) : Reaction → Tracked
  | .reset => { t with tracker := t.tracker.reset now }
  | .nothing | .deregister _ => t

/-- The tracker after a sweep, as if it were `time`. -/
def swept (t : Tracked) (time now : Instant) (reaction : Reaction) : Tracked :=
  (t.expiry? time).elim (t.checked time) fun _ => (t.checked time).told now reaction

variable {t : Tracked} {time now : Instant} {reaction : Reaction}

@[simp] theorem checked_number : (t.checked now).number = t.number := rfl

@[simp] theorem checked_name : (t.checked now).name = t.name := rfl

@[simp] theorem told_number : (t.told now reaction).number = t.number := by cases reaction <;> rfl

@[simp] theorem told_name : (t.told now reaction).name = t.name := by cases reaction <;> rfl

@[simp] theorem swept_number : (t.swept time now reaction).number = t.number := by
  unfold swept
  cases t.expiry? time <;> simp

@[simp] theorem swept_name : (t.swept time now reaction).name = t.name := by
  unfold swept
  cases t.expiry? time <;> simp

end Tracked

/-! ### A sweep, tracker by tracker -/

section

variable {number : Nat}

theorem filter_map_number {f : Tracked → Tracked} (same : ∀ u, (f u).number = u.number)
    (ts : List Tracked) :
    (ts.map f).filter (·.number = number) = (ts.filter (·.number = number)).map f := by
  rw [List.filter_map]
  congr 1
  exact List.filter_congr fun u _ => by simp [same]

/-- A change to the trackers of another number. -/
theorem map_filter_of_ne {other : Nat} (ne : other ≠ number) (f : Tracked → Tracked)
    (ts : List Tracked) :
    (ts.filter (·.number = number)).map (fun u => if u.number = other then f u else u) =
      ts.filter (·.number = number) := by
  refine (List.map_congr_left fun u mem => ?_).trans (List.map_id _)
  have own : u.number = number := by simpa using (List.mem_filter.mp mem).2
  rw [if_neg (by rw [own]; exact ne.symm)]
  rfl

theorem find?_filter_number (ts : List Tracked) :
    (ts.filter (·.number = number)).find? (·.number == number) =
      ts.find? (·.number == number) := by
  rw [List.find?_filter]
  congr 1
  funext u
  by_cases own : u.number = number <;> simp [own]

theorem collect_cons_of_none {κ β : Type} {check : β → κ → Option (β × State)}
    {e : ConnectionId × κ} {ts : β} (gone : check ts e.2 = none) (es : List (ConnectionId × κ)) :
    Supervisor.collect check ts (e :: es) = Supervisor.collect check ts es := by
  rw [Supervisor.collect, gone]

theorem collect_cons_of_some {κ β : Type} {check : β → κ → Option (β × State)}
    {e : ConnectionId × κ} {ts ts' : β} {state : State} (lives : check ts e.2 = some (ts', state))
    (es : List (ConnectionId × κ)) :
    Supervisor.collect check ts (e :: es) =
      (e :: (Supervisor.collect check ts' es).1,
        (state.idleFor?.map fun d => ⟨e.1, e.2, d⟩).toList ++ (Supervisor.collect check ts' es).2.1,
        (Supervisor.collect check ts' es).2.2) := by
  rw [Supervisor.collect, lives]
  cases state <;> rfl

/-- Only registrations that were there are kept, or expire, and each once. -/
theorem sublist_collect {κ β : Type} (check : β → κ → Option (β × State))
    (es : List (ConnectionId × κ)) (ts : β) :
    (Supervisor.collect check ts es).1.Sublist es ∧
      ((Supervisor.collect check ts es).2.1.map fun x => (x.id, x.entry)).Sublist es := by
  induction es generalizing ts with
  | nil => exact ⟨.refl _, .refl _⟩
  | cons e es ih =>
    cases checked : check ts e.2 with
    | none =>
      rw [collect_cons_of_none checked]
      exact ⟨(ih ts).1.cons e, (ih ts).2.cons e⟩
    | some result =>
      obtain ⟨kept, expired⟩ := ih result.1
      rw [collect_cons_of_some checked]
      refine ⟨kept.cons_cons e, ?_⟩
      cases result.2.idleFor? with
      | none => exact expired.cons e
      | some d => exact expired.cons_cons e

theorem mem_of_mem_collect {κ β : Type} (check : β → κ → Option (β × State))
    (es : List (ConnectionId × κ)) (ts : β) :
    (∀ e ∈ (Supervisor.collect check ts es).1, e ∈ es) ∧
      ∀ x ∈ (Supervisor.collect check ts es).2.1, (x.id, x.entry) ∈ es := by
  obtain ⟨kept, expired⟩ := sublist_collect check es ts
  exact ⟨fun e mem => kept.subset mem, fun x mem => expired.subset (List.mem_map_of_mem mem)⟩

/-- A sweep leaves the names and numbers of the trackers. -/
theorem collect_names (now : Instant) (es : List (ConnectionId × Registration))
    (ts : List Tracked) :
    (Supervisor.collect (Watch.checkNumber now) ts es).2.2.map (fun u => (u.number, u.name)) =
      ts.map fun u => (u.number, u.name) := by
  induction es generalizing ts with
  | nil => rfl
  | cons e es ih =>
    cases checked : Watch.checkNumber now ts e.2 with
    | none => rw [collect_cons_of_none checked, ih]
    | some result =>
      rw [collect_cons_of_some checked, ih]
      unfold Watch.checkNumber at checked
      split at checked
      · cases checked
      · obtain rfl := Option.some.inj checked
        rw [List.map_map]
        refine List.map_congr_left fun u _ => ?_
        rw [Function.comp_apply]
        split <;> rfl

/-- A sweep deals with the trackers of a number as if there were no others. -/
theorem collect_filter (now : Instant) (number : Nat)
    (es : List (ConnectionId × Registration)) (ts : List Tracked) :
    Supervisor.collect (Watch.checkNumber now) (ts.filter (·.number = number))
        (es.filter (·.2.number = number)) =
      ((Supervisor.collect (Watch.checkNumber now) ts es).1.filter (·.2.number = number),
        (Supervisor.collect (Watch.checkNumber now) ts es).2.1.filter (·.entry.number = number),
        (Supervisor.collect (Watch.checkNumber now) ts es).2.2.filter (·.number = number)) := by
  -- A check changes trackers of its own number only, so it makes no difference whether the others
  -- are left out before it or after it.
  induction es generalizing ts with
  | nil => rfl
  | cons e es ih =>
    cases found : ts.find? (·.number == e.2.number) with
    | none =>
      have gone : Watch.checkNumber now ts e.2 = none := by rw [Watch.checkNumber, found]
      rw [collect_cons_of_none gone]
      by_cases own : e.2.number = number
      · have alone : Watch.checkNumber now (ts.filter (·.number = number)) e.2 = none := by
          subst own
          rw [Watch.checkNumber, find?_filter_number, found]
        rw [List.filter_cons_of_pos (by simpa using own), collect_cons_of_none alone, ih]
      · rw [List.filter_cons_of_neg (by simpa using own), ih]
    | some t =>
      generalize checked : t.tracker.check t.config.idleTimeout now = result
      let f : Tracked → Tracked := fun u =>
        if u.number = e.2.number then { u with tracker := result.1 } else u
      have same : ∀ u, (f u).number = u.number := by
        intro u
        show (if _ then _ else _ : Tracked).number = _
        split <;> rfl
      have lives : Watch.checkNumber now ts e.2 = some (ts.map f, result.2) := by
        rw [Watch.checkNumber, found]
        simp only [checked, f]
      have rest := ih (ts.map f)
      rw [filter_map_number same] at rest
      rw [collect_cons_of_some lives]
      by_cases own : e.2.number = number
      · have alone : Watch.checkNumber now (ts.filter (·.number = number)) e.2 =
            some ((ts.filter (·.number = number)).map f, result.2) := by
          subst own
          rw [Watch.checkNumber, find?_filter_number, found]
          simp only [checked, f]
        rw [List.filter_cons_of_pos (by simpa using own), collect_cons_of_some alone, rest]
        cases result.2.idleFor? <;> simp [own]
      · rw [map_filter_of_ne own] at rest
        rw [List.filter_cons_of_neg (by simpa using own), rest]
        cases result.2.idleFor? <;> simp [own]

end

/-! ### One tracker among many -/

namespace Watch

/-- The calls of a registration so far, each with how long its tracker had been idle. -/
def calls (w : Watch) (id : ConnectionId) : List Duration :=
  (w.fired.reverse.filter (·.1 = id)).map (·.2)

/-- The tracker `t` lives under its name, and nobody but the registration `id` watches it, which
    nobody takes out. -/
structure Watched (w : Watch) (id : ConnectionId) (reaction : Reaction) (t : Tracked) : Prop where
  lives : w.trackers.filter (·.number = t.number) = [t]
  named : ∀ u ∈ w.trackers, u.name = t.name → u.number = t.number
  counted : t.number < w.made
  registered : w.supervisor.entries.filter (·.2.number = t.number) = [(id, ⟨t.number, reaction⟩)]
  own : ∀ e ∈ w.supervisor.entries, e.1 = id → e.2.number = t.number
  stays : ∀ e ∈ w.supervisor.entries, ∀ i, e.2.reaction = .deregister i → i ≠ id

variable {w : Watch} {id : ConnectionId} {reaction : Reaction} {t : Tracked}

theorem Watched.mem (watched : w.Watched id reaction t) : t ∈ w.trackers :=
  (List.mem_filter.mp (watched.lives ▸ List.mem_singleton_self t)).1

/-- The name leads to the tracker. -/
theorem Watched.find?_name (watched : w.Watched id reaction t) : w.find? t.name = some t := by
  cases found : w.find? t.name with
  | none => exact absurd (List.find?_eq_none.mp found t watched.mem) (by simp)
  | some u =>
    have mem := List.mem_of_find?_eq_some found
    have name : u.name = t.name := by simpa using List.find?_some found
    have under : u ∈ w.trackers.filter (·.number = t.number) :=
      List.mem_filter.mpr ⟨mem, by simpa using watched.named u mem name⟩
    rw [watched.lives, List.mem_singleton] at under
    rw [under]

/-- A change to trackers that leaves numbers and names. -/
theorem Watched.map (watched : w.Watched id reaction t) {f : Tracked → Tracked}
    (number : ∀ u, (f u).number = u.number) (name : ∀ u, (f u).name = u.name) :
    ({ w with trackers := w.trackers.map f } : Watch).Watched id reaction (f t) where
  lives := by
    show (w.trackers.map f).filter (·.number = (f t).number) = _
    rw [number, filter_map_number number, watched.lives]
    rfl
  named := by
    intro u mem same
    obtain ⟨v, inside, rfl⟩ := List.mem_map.mp mem
    rw [number, number]
    exact watched.named v inside (by rw [← name v, same, name])
  counted := by
    rw [number]
    exact watched.counted
  registered := by
    rw [number]
    exact watched.registered
  own := by
    rw [number]
    exact watched.own
  stays := watched.stays

/-- Taking out another registration. -/
theorem Watched.deregister (watched : w.Watched id reaction t) {other : ConnectionId}
    (ne : other ≠ id) : (w.deregister other).Watched id reaction t where
  lives := watched.lives
  named := watched.named
  counted := watched.counted
  registered := by
    show (w.supervisor.entries.filter (·.1 ≠ other)).filter (·.2.number = t.number) = _
    rw [List.filter_comm, watched.registered, List.filter_cons_of_pos (by simpa using ne.symm)]
    rfl
  own e mem := watched.own e (List.mem_filter.mp mem).1
  stays e mem := watched.stays e (List.mem_filter.mp mem).1

/-! ### Telling -/

/-- An expiry among those of a sweep, seen from the registration `id` with the tracker `t`. -/
structure Found (id : ConnectionId) (reaction : Reaction) (t : Tracked) (e : Expiry Registration) :
    Prop where
  id_eq : e.entry.number = t.number → e.id = id ∧ e.entry.reaction = reaction
  own : e.id = id → e.entry.number = t.number
  stays : ∀ i, e.entry.reaction = .deregister i → i ≠ id

/-- A tracker whose registration is told. -/
def toldOne (now : Instant) (reaction : Reaction) (t : Tracked) (e : Expiry Registration) :
    Tracked :=
  if e.entry.number = t.number then t.told now reaction else t

theorem watched_notify (watched : w.Watched id reaction t) {e : Expiry Registration}
    (found : Found id reaction t e) :
    (w.notify e).Watched id reaction (toldOne w.now reaction t e) ∧ (w.notify e).now = w.now ∧
      (w.notify e).calls id =
        w.calls id ++ if e.entry.number = t.number then [e.idleFor] else [] := by
  have noted : ∀ v : Watch, v.fired = (e.id, e.idleFor) :: w.fired → v.calls id =
      w.calls id ++ if e.entry.number = t.number then [e.idleFor] else [] := by
    intro v fired
    have same : e.id = id ↔ e.entry.number = t.number := ⟨found.own, fun n => (found.id_eq n).1⟩
    rw [calls, fired, List.reverse_cons, List.filter_append, List.map_append]
    by_cases own : e.entry.number = t.number
    · simp [calls, own, same.mpr own]
    · simp [calls, own, mt same.mp own]
  have told : ({ w with
      metrics := w.metrics.record .idleTimeout
      fired := (e.id, e.idleFor) :: w.fired
      lines := expiryLine e.id e.idleFor :: w.lines } : Watch).Watched id reaction t :=
    ⟨watched.lives, watched.named, watched.counted, watched.registered, watched.own, watched.stays⟩
  -- What is told to the own registration is what its reaction says.
  have own_reaction : toldOne w.now reaction t e = if e.entry.number = t.number
      then t.told w.now e.entry.reaction else t := by
    unfold toldOne
    split
    · next own => rw [(found.id_eq own).2]
    · rfl
  rw [own_reaction]
  obtain ⟨eid, ⟨number, reacts⟩, idleFor⟩ := e
  cases reacts with
  | nothing =>
    refine ⟨?_, rfl, noted _ rfl⟩
    rw [Tracked.told, ite_self]
    exact told
  | deregister i =>
    refine ⟨?_, rfl, noted _ rfl⟩
    rw [Tracked.told, ite_self]
    exact told.deregister (found.stays i rfl)
  | reset =>
    refine ⟨?_, rfl, noted _ rfl⟩
    have changed := told.map
      (f := fun u => if u.number = number then { u with tracker := u.tracker.reset w.now } else u)
      (fun u => by split <;> rfl) (fun u => by split <;> rfl)
    rw [Tracked.told]
    simp only [eq_comm (a := number)]
    exact changed

theorem watched_foldl_notify {X : List (Expiry Registration)} {w : Watch} {t : Tracked}
    (watched : w.Watched id reaction t) (found : ∀ e ∈ X, Found id reaction t e) :
    (X.foldl notify w).Watched id reaction
        ((X.filter (·.entry.number = t.number)).foldl (fun t _ => t.told w.now reaction) t) ∧
      (X.foldl notify w).calls id =
        w.calls id ++ (X.filter (·.entry.number = t.number)).map (·.idleFor) := by
  induction X generalizing w t with
  | nil => exact ⟨watched, (List.append_nil _).symm⟩
  | cons e X ih =>
    obtain ⟨told, now, called⟩ := watched_notify watched (found e List.mem_cons_self)
    have number : (toldOne w.now reaction t e).number = t.number := by
      unfold toldOne
      split <;> simp
    have rest := ih told fun x mem =>
      ⟨fun own => (found x (List.mem_cons_of_mem _ mem)).id_eq (own.trans number),
        fun own => ((found x (List.mem_cons_of_mem _ mem)).own own).trans number.symm,
        (found x (List.mem_cons_of_mem _ mem)).stays⟩
    rw [number, now, called] at rest
    rw [List.foldl_cons, List.filter_cons]
    unfold toldOne at rest
    by_cases own : e.entry.number = t.number
    · simpa [own] using rest
    · simpa [own] using rest

/-! ### Sweeps -/

/-- A sweep checks the tracker once, and calls its registration exactly if it has expired then. -/
theorem watched_sweepAt (watched : w.Watched id reaction t) (time : Instant) :
    (w.sweepAt time).1.Watched id reaction (t.swept time w.now reaction) ∧
      (w.sweepAt time).1.calls id = w.calls id ++ (t.expiry? time).toList := by
  have alone := collect_filter time t.number w.supervisor.entries w.trackers
  generalize swept : Supervisor.collect (checkNumber time) w.trackers w.supervisor.entries = r
    at alone
  have one : Supervisor.collect (checkNumber time) [t] [(id, (⟨t.number, reaction⟩ : Registration))] =
      ([(id, ⟨t.number, reaction⟩)],
        ((t.expiry? time).map fun d => ⟨id, ⟨t.number, reaction⟩, d⟩).toList, [t.checked time]) := by
    have checked : checkNumber time [t] ⟨t.number, reaction⟩ =
        some ([t.checked time], (t.tracker.check t.config.idleTimeout time).2) := by
      simp [checkNumber, Tracked.checked]
    rw [collect_cons_of_some checked]
    simp [Supervisor.collect, Tracked.expiry?]
  rw [watched.lives, watched.registered, one] at alone
  obtain ⟨kept, expired, trackers⟩ := r
  simp only [Prod.mk.injEq] at alone
  obtain ⟨registered, found, lives⟩ := alone
  obtain ⟨stay, were⟩ := mem_of_mem_collect (checkNumber time) w.supervisor.entries w.trackers
  have names := collect_names time w.supervisor.entries w.trackers
  rw [swept] at stay were names
  have base : ({ w with
      supervisor := { w.supervisor with entries := kept }, trackers } : Watch).Watched id reaction
        (t.checked time) := by
    refine ⟨lives.symm, ?_, watched.counted, registered.symm, fun e mem => watched.own e (stay e mem),
      fun e mem => watched.stays e (stay e mem)⟩
    intro u mem name
    have under : (u.number, u.name) ∈ w.trackers.map fun u => (u.number, u.name) := by
      rw [← names]
      exact List.mem_map_of_mem mem
    obtain ⟨v, inside, same⟩ := List.mem_map.mp under
    rw [Prod.mk.injEq] at same
    rw [← same.1]
    exact watched.named v inside (same.2.trans name)
  have each : ∀ e ∈ expired, Found id reaction (t.checked time) e := by
    intro e mem
    have was := were e mem
    refine ⟨fun own => ?_, fun own => watched.own _ was own, fun i reacts => watched.stays _ was i reacts⟩
    have under : (e.id, e.entry) ∈ w.supervisor.entries.filter (·.2.number = t.number) :=
      List.mem_filter.mpr ⟨was, by simpa using own⟩
    rw [watched.registered, List.mem_singleton, Prod.mk.injEq] at under
    exact ⟨under.1, by rw [under.2]⟩
  have done := watched_foldl_notify base each
  rw [Tracked.checked_number, ← found] at done
  have result : (w.sweepAt time).1 = expired.foldl notify { w with
      supervisor := { w.supervisor with entries := kept }, trackers } := by
    rw [sweepAt, Supervisor.inspect, swept]
  rw [result, Tracked.swept]
  cases expiry : t.expiry? time with
  | none => simpa [expiry, calls] using done
  | some d => simpa [expiry, calls] using done

end Watch

end WebSocketEngine.Idle
