import WebSocketEngine.Proofs.Idle.Sweeping

/-!
Registrations that are taken out while a sweep is under way.

    found [a, b] ──▶ a is called ──▶ a's callback takes b out ──▶ b is called ──▶ swept 2

Callbacks may do anything to the registrations and to what they watch, and so may anybody else
between two calls; a `Deed` is one such thing, whoever does it.  A sweep calls those that it has
found, in turn, and no deed changes that.  So a registration that was taken out is not called any
more, unless a sweep was under way that had found it before; that one still calls it, and only once
(`called_after_deregistering`).
-/

namespace WebSocketEngine.Idle

variable {κ β : Type}

/-- A sweep that is under way, after its first pass. -/
structure Round (κ : Type) where
  found : List (Expiry κ)
  /-- Those that are still to be called. -/
  left : List (Expiry κ)

/-- The registrations, what they watch, and the sweep that is under way. -/
structure Stage (κ β : Type) where
  supervisor : Supervisor κ
  trackers : β
  round : Option (Round κ)

/-- What a callback does, or anybody else. -/
inductive Deed (κ β : Type)
  | register (id : ConnectionId) (entry : κ)
  | deregister (id : ConnectionId)
  /-- Changes what is watched: a reset, a touch, a tracker that is made or dropped. -/
  | change (f : β → β)

/-- What can be seen. -/
inductive Event (κ β : Type)
  | did (d : Deed κ β)
  | found (es : List (Expiry κ))
  | called (e : Expiry κ)
  /-- A sweep is over, and says so many. -/
  | swept (count : Nat)

namespace Stage

/-- The beginning: nobody is registered. -/
def start (interval : Duration) (trackers : β) : Stage κ β := ⟨.every interval, trackers, none⟩

def did (s : Stage κ β) : Deed κ β → Stage κ β
  | .register id entry => { s with supervisor := s.supervisor.register id entry }
  | .deregister id => { s with supervisor := s.supervisor.deregister id }
  | .change f => { s with trackers := f s.trackers }

end Stage

/-- One thing after another.  Deeds come at any time, a sweep when no other is under way; it comes
    upon the registrations in whatever order. -/
inductive Step (check : Instant → β → κ → Option (β × State)) :
    Stage κ β → Event κ β → Stage κ β → Prop
  | did {s : Stage κ β} (d : Deed κ β) : Step check s (.did d) (s.did d)
  | found (now : Instant) {u v : Supervisor κ} {ts us : β} {arranged : List (ConnectionId × κ)}
      {es : List (Expiry κ)} (order : arranged.Perm u.entries)
      (inspected : Supervisor.inspect { u with entries := arranged } (check now) ts = (v, es, us)) :
      Step check ⟨u, ts, none⟩ (.found es) ⟨v, us, some ⟨es, es⟩⟩
  | called (u : Supervisor κ) (ts : β) (found : List (Expiry κ)) (e : Expiry κ)
      (left : List (Expiry κ)) :
      Step check ⟨u, ts, some ⟨found, e :: left⟩⟩ (.called e) ⟨u, ts, some ⟨found, left⟩⟩
  | swept (u : Supervisor κ) (ts : β) (found : List (Expiry κ)) :
      Step check ⟨u, ts, some ⟨found, []⟩⟩ (.swept found.length) ⟨u, ts, none⟩

inductive Path (check : Instant → β → κ → Option (β × State)) :
    Stage κ β → List (Event κ β) → Stage κ β → Prop
  | nil (s : Stage κ β) : Path check s [] s
  | cons {s t u : Stage κ β} {x : Event κ β} {xs : List (Event κ β)} (step : Step check s x t)
      (onward : Path check t xs u) : Path check s (x :: xs) u

namespace Event

def called? : Event κ β → Option (Expiry κ)
  | .called e => some e
  | .did _ | .found _ | .swept _ => none

/-- Those that were called. -/
def calls (xs : List (Event κ β)) : List (Expiry κ) := xs.filterMap called?

theorem calls_append (xs ys : List (Event κ β)) : calls (xs ++ ys) = calls xs ++ calls ys :=
  List.filterMap_append

end Event

open Event (calls)

variable {check : Instant → β → κ → Option (β × State)} {s t u : Stage κ β} {x : Event κ β}
  {xs ys : List (Event κ β)}

/-! ### Paths -/

theorem Path.split (path : Path check s (xs ++ ys) u) :
    ∃ t, Path check s xs t ∧ Path check t ys u := by
  induction xs generalizing s with
  | nil => exact ⟨s, .nil s, path⟩
  | cons x xs ih =>
    cases path with
    | cons step onward =>
      obtain ⟨t, first, rest⟩ := ih onward
      exact ⟨t, .cons step first, rest⟩

theorem Path.append (first : Path check s xs t) (rest : Path check t ys u) :
    Path check s (xs ++ ys) u := by
  induction first with
  | nil s => exact rest
  | cons step _ ih => exact .cons step (ih rest)

/-- What happened at a given place of a path. -/
theorem Path.at_event (path : Path check s (xs ++ x :: ys) u) :
    ∃ before after, Path check s xs before ∧ Step check before x after ∧
      Path check after ys u := by
  obtain ⟨before, first, rest⟩ := path.split
  cases rest with
  | cons step onward => exact ⟨before, _, first, step, onward⟩

/-! ### Registrations -/

/-- A first pass keeps, and finds, only registrations that were there, and each once. -/
theorem sublist_inspect {check : β → κ → Option (β × State)} {u v : Supervisor κ} {ts us : β}
    {es : List (Expiry κ)} (inspected : u.inspect check ts = (v, es, us)) :
    v.entries.Sublist u.entries ∧ (es.map fun x => (x.id, x.entry)).Sublist u.entries := by
  have kept : (u.inspect check ts).1.entries = v.entries := by rw [inspected]
  have expired : (u.inspect check ts).2.1 = es := by rw [inspected]
  rw [← kept, ← expired]
  exact sublist_collect check u.entries ts

/-- No registration under this number. -/
def Stage.Without (s : Stage κ β) (id : ConnectionId) : Prop := ∀ e ∈ s.supervisor.entries, e.1 ≠ id

/-- Whoever is not registered is not registered until that is done. -/
theorem Step.without {id : ConnectionId} (step : Step check s x t) (gone : s.Without id)
    (unregistered : ∀ entry, x ≠ .did (.register id entry)) : t.Without id := by
  cases step with
  | did d =>
    cases d with
    | register other entry =>
      rintro e mem rfl
      rcases List.mem_append.mp mem with kept | new
      · exact gone e (List.mem_filter.mp kept).1 rfl
      · obtain rfl := List.mem_singleton.mp new
        exact unregistered entry rfl
    | deregister other =>
      intro e mem
      exact gone e (List.mem_filter.mp mem).1
    | change f => exact gone
  | found now order inspected =>
    intro e mem
    exact gone e (order.subset ((sublist_inspect inspected).1.subset mem))
  | called | swept => exact gone

theorem Path.without {id : ConnectionId} (path : Path check s xs u) (gone : s.Without id)
    (unregistered : ∀ entry, .did (.register id entry) ∉ xs) : u.Without id := by
  induction path with
  | nil s => exact gone
  | cons step onward ih =>
    refine ih (step.without gone ?_) ?_
    · rintro entry rfl
      exact unregistered entry List.mem_cons_self
    · intro entry mem
      exact unregistered entry (List.mem_cons_of_mem _ mem)

theorem without_deregister (s : Stage κ β) (id : ConnectionId) :
    (s.did (.deregister id)).Without id := by
  intro e mem
  simpa using (List.mem_filter.mp mem).2

/-- Nobody is registered twice. -/
def Stage.Single (s : Stage κ β) : Prop := (s.supervisor.entries.map (·.1)).Nodup

theorem Step.single (step : Step check s x t) (single : s.Single) : t.Single := by
  have fewer {es : List (ConnectionId × κ)} (sub : es.Sublist s.supervisor.entries) :
      (es.map (·.1)).Nodup := (sub.map _).nodup single
  cases step with
  | did d =>
    cases d with
    | register id entry =>
      show ((s.supervisor.entries.filter (·.1 ≠ id) ++ [(id, entry)]).map (·.1)).Nodup
      rw [List.map_append, List.nodup_append]
      refine ⟨fewer List.filter_sublist, by simp, ?_⟩
      intro a old b new same
      obtain ⟨e, mem, rfl⟩ := List.mem_map.mp old
      have other : e.1 ≠ id := by simpa using (List.mem_filter.mp mem).2
      exact other (same.trans (by simpa using new))
    | deregister id => exact fewer List.filter_sublist
    | change f => exact single
  | found now order inspected =>
    exact ((sublist_inspect inspected).1.map _).nodup ((order.map Prod.fst).nodup_iff.mpr single)
  | called | swept => exact single

/-! ### Sweeps -/

/-- The sweep that is under way, by what has happened since it found what it has found. -/
structure Underway (xs : List (Event κ β)) (r : Round κ) (during : List (Event κ β)) : Prop where
  began : ∃ earlier, xs = earlier ++ .found r.found :: during
  lasts : ∀ n, .swept n ∉ during
  turns : r.found = calls during ++ r.left
  once : (r.found.map (·.id)).Nodup

/-- What holds of a stage after all that has happened. -/
structure Sound (xs : List (Event κ β)) (s : Stage κ β) : Prop where
  single : s.Single
  underway : ∀ r, s.round = some r → ∃ during, Underway xs r during

theorem Sound.step (sound : Sound xs s) (step : Step check s x t) : Sound (xs ++ [x]) t where
  single := step.single sound.single
  underway := by
    intro r under
    cases step with
    | did d =>
      have same : s.round = some r := by cases d <;> exact under
      obtain ⟨during, ⟨earlier, began⟩, lasts, turns, once⟩ := sound.underway r same
      refine ⟨during ++ [.did d], ⟨earlier, by simp [began]⟩, by simpa using lasts, ?_, once⟩
      rw [Event.calls_append, turns]
      simp [calls, Event.called?]
    | found now order inspected =>
      cases under
      have ids := ((sublist_inspect inspected).2.map Prod.fst).nodup
        ((order.map Prod.fst).nodup_iff.mpr sound.single)
      rw [List.map_map] at ids
      exact ⟨[], ⟨xs, rfl⟩, by simp, rfl, ids⟩
    | called v ts found e left =>
      cases under
      obtain ⟨during, ⟨earlier, began⟩, lasts, turns, once⟩ := sound.underway _ rfl
      refine ⟨during ++ [.called e], ⟨earlier, by simp [began]⟩, by simpa using lasts, ?_, once⟩
      rw [Event.calls_append]
      simpa [calls, Event.called?] using turns
    | swept v ts found => cases under

theorem Sound.path (sound : Sound xs s) (path : Path check s ys u) : Sound (xs ++ ys) u := by
  induction path generalizing xs with
  | nil s => simpa using sound
  | cons step onward ih => simpa using ih (sound.step step)

theorem sound_start (interval : Duration) (trackers : β) :
    Sound [] (Stage.start interval trackers : Stage κ β) where
  single := List.nodup_nil
  underway r under := by cases under

theorem sound_of_path {interval : Duration} {trackers : β}
    (path : Path check (.start interval trackers) xs s) : Sound xs s :=
  (sound_start interval trackers).path path

/-! ### Taken out -/

/-- Every sweep that comes to its end has called whom it has found, in turn and whatever was done
    meanwhile, and says how many it called.  A registration that was taken out, and was not made anew,
    is called only by a sweep that was under way then and had found it before; that sweep has not
    called it yet. -/
theorem called_after_deregistering {interval : Duration} {trackers : β} {events : List (Event κ β)}
    (path : Path check (.start interval trackers) events s) :
    (∀ before n after, events = before ++ .swept n :: after →
      ∃ earlier found during, before = earlier ++ .found found :: during ∧
        (∀ m, .swept m ∉ during) ∧ calls during = found ∧ n = (calls during).length) ∧
    ∀ before id between e after,
      events = before ++ .did (.deregister id) :: (between ++ .called e :: after) → e.id = id →
      (∀ entry, .did (.register id entry) ∉ between) →
      ∃ earlier found during, before = earlier ++ .found found :: during ∧
        (∀ m, .swept m ∉ during ++ between) ∧ e ∈ found ∧
        ∀ x ∈ calls (during ++ between), x.id ≠ id := by
  constructor
  · rintro before n after rfl
    obtain ⟨ending, _, first, step, -⟩ := path.at_event
    cases step with
    | swept v ts found =>
      obtain ⟨during, ⟨earlier, rfl⟩, lasts, turns, -⟩ := (sound_of_path first).underway _ rfl
      have all : found = calls during := by simpa using turns
      exact ⟨earlier, found, during, rfl, lasts, all.symm, by rw [← all]⟩
  · rintro before id between e after rfl rfl unregistered
    obtain ⟨taken, gone, first, out, rest⟩ := path.at_event
    obtain ⟨calling, _, meanwhile, step, -⟩ := rest.at_event
    have past := sound_of_path (first.append (.cons out meanwhile))
    cases out
    cases step with
    | called v ts found e left =>
      obtain ⟨during, ⟨earlier, began⟩, lasts, turns, once⟩ := past.underway _ rfl
      dsimp only at began turns once
      have mem : e ∈ found := by
        rw [turns]
        simp
      rcases List.append_eq_append_iff.mp began with ⟨gap, rfl, later⟩ | ⟨gap, rfl, sooner⟩
      · -- A sweep that began afterwards would not have found it.
        cases gap with
        | nil => cases later
        | cons x gap =>
          obtain ⟨-, rfl⟩ := List.cons.inj later
          obtain ⟨beginning, _, until_, finds, -⟩ := meanwhile.at_event
          have absent := until_.without (without_deregister taken e.id)
            fun entry inside => unregistered entry (List.mem_append_left _ inside)
          cases finds with
          | found now order inspected =>
            have listed := (sublist_inspect inspected).2.subset (List.mem_map_of_mem mem)
            exact (absent _ (order.subset listed) rfl).elim
      · cases gap with
        | nil => cases sooner
        | cons x gap =>
          rw [List.cons_append, List.cons.injEq] at sooner
          obtain ⟨rfl, rfl⟩ := sooner
          refine ⟨earlier, found, gap, rfl, ?_, mem, ?_⟩
          · intro m inside
            exact lasts m (by simpa using inside)
          · have others : calls (gap ++ between) ++ e :: left = found := by
              rw [turns, Event.calls_append, Event.calls_append]
              rfl
            rw [← others, List.map_append, List.nodup_append] at once
            intro x called
            exact once.2.2 x.id (List.mem_map_of_mem called) e.id (by simp)

/-! ### Watches -/

namespace Watch

/-- A watch between two sweeps. -/
def stage (w : Watch) : Stage Registration (List Tracked) := ⟨w.supervisor, w.trackers, none⟩

/-- What the callback of a registration does. -/
def deeds (now : Instant) (e : Expiry Registration) : List (Deed Registration (List Tracked)) :=
  match e.entry.reaction with
  | .nothing => []
  | .reset =>
    [.change fun ts => ts.map fun t =>
      if t.number = e.entry.number then { t with tracker := t.tracker.reset now } else t]
  | .deregister id => [.deregister id]

/-- The call of a registration and what its callback does. -/
def turn (now : Instant) (e : Expiry Registration) : List (Event Registration (List Tracked)) :=
  .called e :: (deeds now e).map .did

/-- The registrations that expired are called, and each callback does what it does. -/
theorem path_foldl_notify (w : Watch) (found es : List (Expiry Registration)) :
    Path checkNumber ⟨w.supervisor, w.trackers, some ⟨found, es⟩⟩ (es.flatMap (turn w.now))
        ⟨(es.foldl notify w).supervisor, (es.foldl notify w).trackers, some ⟨found, []⟩⟩ ∧
      (es.foldl notify w).fired = (es.map fun e => (e.id, e.idleFor)).reverse ++ w.fired := by
  induction es generalizing w with
  | nil => exact ⟨.nil _, rfl⟩
  | cons e es ih =>
    have told : Path checkNumber ⟨w.supervisor, w.trackers, some ⟨found, e :: es⟩⟩ (turn w.now e)
        ⟨(w.notify e).supervisor, (w.notify e).trackers, some ⟨found, es⟩⟩ ∧
          (w.notify e).now = w.now ∧ (w.notify e).fired = (e.id, e.idleFor) :: w.fired := by
      obtain ⟨id, ⟨number, reaction⟩, idleFor⟩ := e
      cases reaction with
      | nothing => exact ⟨.cons (.called ..) (.nil _), rfl, rfl⟩
      | reset => exact ⟨.cons (.called ..) (.cons (.did _) (.nil _)), rfl, rfl⟩
      | deregister other => exact ⟨.cons (.called ..) (.cons (.did _) (.nil _)), rfl, rfl⟩
    obtain ⟨first, now, noted⟩ := told
    obtain ⟨rest, fired⟩ := ih (w.notify e)
    rw [now] at rest
    rw [noted] at fired
    exact ⟨first.append rest, by simp [fired]⟩

/-- The sweep of a watch, step by step. -/
theorem path_sweepAt (w : Watch) (time : Instant) :
    let found := (w.supervisor.inspect (checkNumber time) w.trackers).2.1
    Path checkNumber w.stage
        (.found found :: (found.flatMap (turn w.now) ++ [.swept (w.sweepAt time).2]))
        (w.sweepAt time).1.stage ∧
      (w.sweepAt time).1.fired = (found.map fun e => (e.id, e.idleFor)).reverse ++ w.fired := by
  intro found
  obtain ⟨told, fired⟩ := path_foldl_notify
    { w with
      supervisor := (w.supervisor.inspect (checkNumber time) w.trackers).1
      trackers := (w.supervisor.inspect (checkNumber time) w.trackers).2.2 } found found
  have ended := told.append (.cons (.swept ..) (.nil _))
  exact ⟨.cons (.found time (.refl _) rfl) ended, fired⟩

/-- Two registrations, each of which takes the other one out, when both have expired. -/
def rivals : Watch :=
  let made := ((start .standard).create "a" (.ofMillis 1000)).create "b" (.ofMillis 1000)
  let watching := (made.register ⟨1⟩ "a" (.deregister ⟨2⟩)).register ⟨2⟩ "b" (.deregister ⟨1⟩)
  watching.wait (.ofMillis 2000)

/-- The second one is called although the first one has just taken it out. -/
theorem called_though_deregistered :
    let (supervisor, found, trackers) :=
      rivals.supervisor.inspect (checkNumber rivals.now) rivals.trackers
    let begun : Watch := { rivals with supervisor, trackers }
    ∃ first second, found = [first, second] ∧ first.id = ⟨1⟩ ∧ second.id = ⟨2⟩ ∧
      begun.supervisor.entries.map (·.1) = [⟨1⟩, ⟨2⟩] ∧
      (begun.notify first).supervisor.entries.map (·.1) = [⟨1⟩] ∧
      rivals.sweep.1.fired.map (·.1) = [⟨2⟩, ⟨1⟩] ∧ rivals.sweep.2 = 2 :=
  ⟨_, _, rfl, rfl, rfl, by decide, by decide, by decide, by decide⟩

end Watch

/-- The sweep was under way, had found the one that was taken out, and had not called it. -/
theorem called_after_deregistering_rivals :
    ∃ before between e after s,
      Path Watch.checkNumber (.start (.ofMillis 250) Watch.rivals.trackers)
        (before ++ .did (.deregister ⟨2⟩) :: (between ++ .called e :: after)) s ∧ e.id = ⟨2⟩ ∧
      (∀ entry, .did (.register ⟨2⟩ entry) ∉ between) ∧
      ∃ earlier found during, before = earlier ++ .found found :: during ∧
        (∀ m, .swept m ∉ during ++ between) ∧ e ∈ found ∧
        ∀ x ∈ calls (during ++ between), x.id ≠ ⟨2⟩ := by
  obtain ⟨swept, -⟩ := Watch.path_sweepAt Watch.rivals Watch.rivals.now
  let e (n : Nat) (own other : UInt64) : Expiry Registration :=
    ⟨⟨own⟩, ⟨n, .deregister ⟨other⟩⟩, ⟨2000000000⟩⟩
  have path : Path Watch.checkNumber (.start (.ofMillis 250) Watch.rivals.trackers)
      ([.did (.register ⟨1⟩ ⟨0, .deregister ⟨2⟩⟩), .did (.register ⟨2⟩ ⟨1, .deregister ⟨1⟩⟩),
        .found [e 0 1 2, e 1 2 1], .called (e 0 1 2)] ++
        .did (.deregister ⟨2⟩) :: ([] ++ .called (e 1 2 1) :: [.did (.deregister ⟨1⟩), .swept 2]))
      Watch.rivals.sweep.1.stage :=
    .cons (.did _) (.cons (.did _) swept)
  have unregistered (entry : Registration) :
      (.did (.register ⟨2⟩ entry) : Event Registration (List Tracked)) ∉ [] := by simp
  exact ⟨_, _, _, _, _, path, rfl, unregistered,
    (called_after_deregistering path).2 _ _ _ _ _ rfl rfl unregistered⟩

end WebSocketEngine.Idle
