import WebSocketEngine.Proofs.Connection.Schedule
import WebSocketEngine.Proofs.Idle.Sweeping

/-!
Which expiries a registration is told of.

An expiry is found by whoever checks first, and finding it sets the flag.

    not expired ── a holder's check finds it ──▶ expired     nobody is told
    not expired ── a sweep finds it ──────────▶ expired     one call, within the sweep
    expired     ── reset ─────────────────────▶ not expired

So the registration is called once for each expiry that a sweep finds, and never otherwise
(`calls_of_moves`); the sweeps that time brings about are among them (`exists_run_wait`).  An expiry
that a holder's check finds is never told of: the sweeps after it see a flag that is set already
(`silent_of_expired`).
-/

namespace WebSocketEngine.Idle

/-! ### Histories -/

/-- What can happen to trackers and registrations, at any time of the clock. -/
inductive Move
  | create (name : String) (timeout : Duration)
  | drop (name : String)
  | touch (name : String) (time : Instant)
  | setTimeout (name : String) (timeout : Duration)
  | reset (name : String)
  /-- A holder of the tracker checks it. -/
  | check (name : String) (time : Instant)
  | register (id : ConnectionId) (name : String) (reaction : Reaction)
  | deregister (id : ConnectionId)
  | sweep (time : Instant)
  /-- The clock goes on, and the sweepers are set anew. -/
  | clock (now : Instant) (sweepers : Sweepers)

/-- The move leaves it at the one tracker of that name and the one registration of that id. -/
def Move.Spares (id : ConnectionId) (name : String) : Move → Prop
  | .create n _ | .drop n => n ≠ name
  | .register i n reaction => i ≠ id ∧ n ≠ name ∧ ∀ j, reaction = .deregister j → j ≠ id
  | .deregister i => i ≠ id
  | .touch _ _ | .setTimeout _ _ | .reset _ | .check _ _ | .sweep _ | .clock _ _ => True

/-- Who finds that a tracker has expired. -/
inductive Finder
  | holder
  | sweeper
  deriving DecidableEq

namespace Watch

def act (w : Watch) : Move → Watch
  | .create name timeout => w.create name timeout
  | .drop name => w.drop name
  | .touch name time => w.touch name time
  | .setTimeout name timeout => w.setTimeout name timeout
  | .reset name => w.reset name
  | .check name time => (w.check name time).1
  | .register id name reaction => w.register id name reaction
  | .deregister id => w.deregister id
  | .sweep time => (w.sweepAt time).1
  | .clock now sweepers => { w with now, sweepers }

def run (w : Watch) (ms : List Move) : Watch := ms.foldl act w

/-- The tracker of a name has expired, and that was found. -/
def isExpired (w : Watch) (name : String) : Bool := (w.find? name).any (·.tracker.expired)

/-- How long the tracker of a name has been idle, if a check would find now that it has expired. -/
def expiry? (w : Watch) (name : String) (time : Instant) : Option Duration :=
  (w.find? name).bind (·.expiry? time)

/-- The expiry that a move finds, and who finds it. -/
def finds? (w : Watch) (name : String) : Move → Option (Finder × Duration)
  | .check n time => if n = name then (w.expiry? name time).map (.holder, ·) else none
  | .sweep time => (w.expiry? name time).map (.sweeper, ·)
  | .create _ _ | .drop _ | .touch _ _ | .setTimeout _ _ | .reset _ | .register _ _ _
  | .deregister _ | .clock _ _ => none

/-- The expiries that are found in the course of a history. -/
def findings (name : String) : Watch → List Move → List (Finder × Duration)
  | _, [] => []
  | w, m :: ms => (w.finds? name m).toList ++ findings name (w.act m) ms

end Watch

/-! ### What time does -/

namespace Watch

theorem run_append (w : Watch) (ms ns : List Move) : w.run (ms ++ ns) = (w.run ms).run ns :=
  List.foldl_append

/-- The sweepers sweep, and do nothing else. -/
theorem exists_run_ticks (count : Nat) (w : Watch) :
    ∃ ms, (∀ m ∈ ms, ∀ id name, m.Spares id name) ∧ ticks count w = w.run ms := by
  induction count generalizing w with
  | zero => exact ⟨[], List.forall_mem_nil _, rfl⟩
  | succ count ih =>
    rw [ticks]
    cases w.sweepers.next? with
    | none => exact ⟨[], List.forall_mem_nil _, rfl⟩
    | some next =>
      obtain ⟨ms, spare, later⟩ := ih (w.tick next)
      let swept := ({ w with now := next }.sweepAt next).1
      let first : List Move := [.clock next w.sweepers, .sweep next,
        .clock swept.now (swept.sweepers.swept swept.supervisor.rest next)]
      have ticked : w.tick next = w.run first := rfl
      refine ⟨first ++ ms, ?_, ?_⟩
      · intro m mem
        rcases List.mem_append.mp mem with now | then_
        · rcases List.mem_cons.mp now with rfl | now
          · exact fun _ _ => trivial
          · rcases List.mem_cons.mp now with rfl | now
            · exact fun _ _ => trivial
            · rw [List.mem_singleton.mp now]
              exact fun _ _ => trivial
        · exact spare m then_
      · rw [run_append, ← ticked]
        exact later

/-- Time passes, and the sweepers sweep. -/
theorem exists_run_wait (w : Watch) (d : Duration) :
    ∃ ms, (∀ m ∈ ms, ∀ id name, m.Spares id name) ∧ w.wait d = w.run ms := by
  obtain ⟨ms, spare, swept⟩ :=
    exists_run_ticks (w.sweepers.dueUntil w.supervisor.rest (w.now + d.nanos)) w
  refine ⟨ms ++ [.clock (w.now + d.nanos) (w.run ms).sweepers], ?_, ?_⟩
  · intro m mem
    rcases List.mem_append.mp mem with swept | last
    · exact spare m swept
    · rw [List.mem_singleton.mp last]
      exact fun _ _ => trivial
  · rw [run_append, ← swept]
    rfl

end Watch

/-! ### One move -/

/-- The tracker after a move. -/
def Tracked.after (t : Tracked) (now : Instant) (reaction : Reaction) : Move → Tracked
  | .touch name time => if t.name = name then { t with tracker := t.tracker.touch time } else t
  | .setTimeout name timeout =>
    if t.name = name then { t with config := t.config.setIdleTimeout timeout } else t
  | .reset name => if t.name = name then { t with tracker := t.tracker.reset now } else t
  | .check name time => if t.name = name then t.checked time else t
  | .sweep time => t.swept time now reaction
  | .create _ _ | .drop _ | .register _ _ _ | .deregister _ | .clock _ _ => t

/-- The calls that a move makes. -/
def Tracked.notices (t : Tracked) : Move → List Duration
  | .sweep time => (t.expiry? time).toList
  | .create _ _ | .drop _ | .touch _ _ | .setTimeout _ _ | .reset _ | .check _ _
  | .register _ _ _ | .deregister _ | .clock _ _ => []

@[simp] theorem Tracked.after_name {t : Tracked} {now : Instant} {reaction : Reaction} (m : Move) :
    (t.after now reaction m).name = t.name := by
  cases m <;> simp only [Tracked.after, Tracked.swept_name] <;> split <;> rfl

namespace Watch

variable {w : Watch} {id : ConnectionId} {reaction : Reaction} {t : Tracked}

theorem Watched.modify (watched : w.Watched id reaction t) (name : String) {f : Tracked → Tracked}
    (number : ∀ u, (f u).number = u.number) (names : ∀ u, (f u).name = u.name) :
    (w.modify name f).Watched id reaction (if t.name = name then f t else t) := by
  refine watched.map (fun u => ?_) (fun u => ?_)
  · split
    · exact number u
    · rfl
  · split
    · exact names u
    · rfl

/-- Trackers of other names come and go. -/
theorem Watched.drop (watched : w.Watched id reaction t) {name : String} (ne : name ≠ t.name) :
    (w.drop name).Watched id reaction t where
  lives := by
    show (w.trackers.filter (·.name != name)).filter (·.number = t.number) = _
    rw [List.filter_comm, watched.lives, List.filter_cons_of_pos (by simpa using ne.symm)]
    rfl
  named u mem := watched.named u (List.mem_filter.mp mem).1
  counted := watched.counted
  registered := watched.registered
  own := watched.own
  stays := watched.stays

theorem Watched.create (watched : w.Watched id reaction t) {name : String} (ne : name ≠ t.name)
    (timeout : Duration) : (w.create name timeout).Watched id reaction t where
  lives := by
    show ((w.drop name).trackers ++ [_]).filter (fun u : Tracked => u.number = t.number) = _
    rw [List.filter_append, (watched.drop ne).lives,
      List.filter_cons_of_neg (by simpa using (Nat.ne_of_lt watched.counted).symm)]
    rfl
  named := by
    intro u mem same
    rcases List.mem_append.mp mem with old | new
    · exact (watched.drop ne).named u old same
    · rw [List.mem_singleton.mp new] at same
      exact absurd same ne
  counted := Nat.lt_succ_of_lt watched.counted
  registered := watched.registered
  own := watched.own
  stays := watched.stays

/-- Trackers of other names are watched. -/
theorem Watched.register (watched : w.Watched id reaction t) {i : ConnectionId} {name : String}
    {r : Reaction} (other : i ≠ id) (ne : name ≠ t.name)
    (stays : ∀ j, r = .deregister j → j ≠ id) :
    (w.register i name r).Watched id reaction t := by
  unfold Watch.register
  cases found : w.find? name with
  | none => exact watched
  | some u =>
    have number : u.number ≠ t.number := by
      intro same
      have under : u ∈ w.trackers.filter (·.number = t.number) :=
        List.mem_filter.mpr ⟨List.mem_of_find?_eq_some found, by simpa using same⟩
      rw [watched.lives, List.mem_singleton] at under
      have called : u.name = name := by simpa using List.find?_some found
      exact ne (by rw [← called, under])
    have others := watched.deregister other
    refine ⟨watched.lives, watched.named, watched.counted, ?_, ?_, ?_⟩
    · show ((w.deregister i).supervisor.entries ++ [(i, _)]).filter _ = _
      rw [List.filter_append, others.registered, List.filter_cons_of_neg (by simpa using number)]
      rfl
    · intro e mem same
      rcases List.mem_append.mp mem with old | new
      · exact others.own e old same
      · rw [List.mem_singleton.mp new] at same
        exact absurd same other
    · intro e mem
      rcases List.mem_append.mp mem with old | new
      · exact others.stays e old
      · rw [List.mem_singleton.mp new]
        exact stays

/-- A new tracker is watched, as soon as it is registered. -/
theorem watched_create_register {w : Watch} (numbered : ∀ u ∈ w.trackers, u.number < w.made)
    (entered : ∀ e ∈ w.supervisor.entries, e.2.number < w.made)
    (stays : ∀ e ∈ w.supervisor.entries, ∀ i, e.2.reaction = .deregister i → i ≠ id)
    (name : String) (timeout : Duration) (own : ∀ i, reaction = .deregister i → i ≠ id) :
    ((w.create name timeout).register id name reaction).Watched id reaction
      ⟨w.made, name, Config.standard.setIdleTimeout timeout, .start w.now⟩ := by
  have gone : (w.drop name).trackers.find? (·.name == name) = none :=
    List.find?_eq_none.mpr fun u mem => by simpa using (List.mem_filter.mp mem).2
  have found : (w.create name timeout).find? name =
      some ⟨w.made, name, Config.standard.setIdleTimeout timeout, .start w.now⟩ := by
    show ((w.drop name).trackers ++ [_]).find? (fun u : Tracked => u.name == name) = _
    rw [List.find?_append, gone, Option.none_or, List.find?_cons_of_pos (by simp)]
  unfold Watch.register
  rw [found]
  refine ⟨?_, ?_, Nat.lt_succ_self _, ?_, ?_, ?_⟩
  · show ((w.drop name).trackers ++ [_]).filter (fun u : Tracked => u.number = w.made) = _
    have older : (w.drop name).trackers.filter (fun u => u.number = w.made) = [] :=
      List.filter_eq_nil_iff.mpr fun u mem => by
        simpa using Nat.ne_of_lt (numbered u (List.mem_filter.mp mem).1)
    rw [List.filter_append, older, List.filter_cons_of_pos (by simp)]
    rfl
  · intro u mem same
    rcases List.mem_append.mp mem with old | new
    · exact absurd same (by simpa using (List.mem_filter.mp old).2)
    · rw [List.mem_singleton.mp new]
  · show ((w.deregister id).supervisor.entries ++ [(id, _)]).filter
      (fun e : ConnectionId × Registration => e.2.number = w.made) = _
    have older : (w.deregister id).supervisor.entries.filter (fun e => e.2.number = w.made) = [] :=
      List.filter_eq_nil_iff.mpr fun e mem => by
        simpa using Nat.ne_of_lt (entered e (List.mem_filter.mp mem).1)
    rw [List.filter_append, older, List.filter_cons_of_pos (by simp)]
    rfl
  · intro e mem same
    rcases List.mem_append.mp mem with old | new
    · exact absurd same (by simpa using (List.mem_filter.mp old).2)
    · rw [List.mem_singleton.mp new]
  · intro e mem
    rcases List.mem_append.mp mem with old | new
    · exact stays e (List.mem_filter.mp old).1
    · rw [List.mem_singleton.mp new]
      exact own

/-- What one move does to the tracker, and what its registration is told. -/
theorem watched_act (watched : w.Watched id reaction t) {m : Move} (spares : m.Spares id t.name) :
    (w.act m).Watched id reaction (t.after w.now reaction m) ∧
      (w.act m).calls id = w.calls id ++ t.notices m := by
  cases m with
  | create name timeout => exact ⟨watched.create spares timeout, (List.append_nil _).symm⟩
  | drop name => exact ⟨watched.drop spares, (List.append_nil _).symm⟩
  | touch name time =>
    exact ⟨watched.modify name (fun _ => rfl) (fun _ => rfl), (List.append_nil _).symm⟩
  | setTimeout name timeout =>
    exact ⟨watched.modify name (fun _ => rfl) (fun _ => rfl), (List.append_nil _).symm⟩
  | reset name =>
    exact ⟨watched.modify name (fun _ => rfl) (fun _ => rfl), (List.append_nil _).symm⟩
  | check name time =>
    have calls : (w.check name time).1.calls id = w.calls id := by
      unfold Watch.check
      split <;> rfl
    refine ⟨?_, calls.trans (List.append_nil _).symm⟩
    -- A name leads to one tracker only: to this one just if it is its own.
    show (w.check name time).1.Watched id reaction (if t.name = name then t.checked time else t)
    unfold Watch.check
    cases found : w.find? name with
    | none =>
      have ne : t.name ≠ name := by
        rintro rfl
        rw [watched.find?_name] at found
        cases found
      rw [if_neg ne]
      exact watched
    | some u =>
      by_cases same : t.name = name
      · subst same
        obtain rfl : t = u := Option.some.inj (watched.find?_name.symm.trans found)
        have checked := watched.modify t.name
          (f := fun v => { v with tracker := (t.tracker.check t.config.idleTimeout time).1 })
          (fun _ => rfl) (fun _ => rfl)
        rw [if_pos rfl] at checked ⊢
        exact checked
      · have checked := watched.modify name
          (f := fun v => { v with tracker := (u.tracker.check u.config.idleTimeout time).1 })
          (fun _ => rfl) (fun _ => rfl)
        rw [if_neg same] at checked ⊢
        exact checked
  | register i name r =>
    refine ⟨watched.register spares.1 spares.2.1 spares.2.2, ?_⟩
    show (w.register i name r).calls id = _
    unfold Watch.register
    split <;> exact (List.append_nil _).symm
  | deregister i => exact ⟨watched.deregister spares, (List.append_nil _).symm⟩
  | sweep time => exact watched_sweepAt watched time
  | clock now sweepers =>
    exact ⟨⟨watched.lives, watched.named, watched.counted, watched.registered, watched.own,
      watched.stays⟩, (List.append_nil _).symm⟩

/-! ### Findings -/

theorem isExpired_eq (watched : w.Watched id reaction t) :
    w.isExpired t.name = t.tracker.expired := by
  rw [isExpired, watched.find?_name]
  rfl

theorem finds?_sweep (watched : w.Watched id reaction t) (time : Instant) :
    w.finds? t.name (.sweep time) = (t.expiry? time).map (.sweeper, ·) := by
  rw [finds?, expiry?, watched.find?_name]
  rfl

/-- The calls of a move are for what it finds in the place of the sweeper. -/
theorem notices_eq (watched : w.Watched id reaction t) (m : Move) :
    t.notices m = ((w.finds? t.name m).toList.filter (·.1 = .sweeper)).map (·.2) := by
  cases m with
  | sweep time =>
    rw [finds?_sweep watched, Tracked.notices]
    cases t.expiry? time <;> rfl
  | check n time =>
    rw [Tracked.notices, finds?]
    split
    · cases w.expiry? t.name time <;> rfl
    · rfl
  | create _ _ | drop _ | touch _ _ | setTimeout _ _ | reset _ | register _ _ _ | deregister _
  | clock _ _ => rfl

end Watch

/-- A check finds an expiry just when it sets the flag. -/
theorem Tracked.check_cases (t : Tracked) (time : Instant) :
    (t.expiry? time = none ∧ t.checked time = t) ∨
      ∃ d, t.expiry? time = some d ∧ t.tracker.expired = false ∧
        (t.checked time).tracker.expired = true := by
  rcases t.tracker.check_cases t.config.idleTimeout time with
    ⟨quiet, same, -⟩ | ⟨found, changed, reported, -⟩
  · refine .inl ⟨quiet, ?_⟩
    rw [Tracked.checked, same]
  · refine .inr ⟨_, found, reported, ?_⟩
    rw [Tracked.checked, changed]

theorem Tracked.expiry?_of_expired {t : Tracked} (expired : t.tracker.expired = true)
    (time : Instant) : t.expiry? time = none := by
  rcases t.check_cases time with ⟨quiet, -⟩ | ⟨d, -, reported, -⟩
  · exact quiet
  · rw [expired] at reported
    cases reported

theorem Tracked.swept_of_none {t : Tracked} {time now : Instant} {reaction : Reaction}
    (quiet : t.expiry? time = none) : t.swept time now reaction = t := by
  rcases t.check_cases time with ⟨-, same⟩ | ⟨d, found, -⟩
  · rw [Tracked.swept, quiet, Option.elim_none, same]
  · rw [quiet] at found
    cases found

/-- Only a reset clears the flag. -/
theorem Tracked.expired_after {t : Tracked} {now : Instant} {reaction : Reaction} {m : Move}
    (unreset : m ≠ .reset t.name) (expired : t.tracker.expired = true) :
    (t.after now reaction m).tracker.expired = true := by
  cases m with
  | touch name time | setTimeout name timeout =>
    rw [Tracked.after]
    split <;> exact expired
  | reset name =>
    have ne : t.name ≠ name := fun same => unreset (by rw [same])
    rw [Tracked.after, if_neg ne]
    exact expired
  | check name time =>
    rw [Tracked.after]
    split
    · rcases t.check_cases time with ⟨-, same⟩ | ⟨d, -, -, flagged⟩
      · rw [same]
        exact expired
      · exact flagged
    · exact expired
  | sweep time =>
    rw [Tracked.after, Tracked.swept_of_none (Tracked.expiry?_of_expired expired time)]
    exact expired
  | create _ _ | drop _ | register _ _ _ | deregister _ | clock _ _ => exact expired

namespace Watch

variable {w : Watch} {id : ConnectionId} {reaction : Reaction} {t : Tracked}

/-- The flag is set just by whoever finds the expiry; a reaction may clear it at once. -/
theorem raised_iff_finds (watched : w.Watched id reaction t) (m : Move) :
    (t.tracker.expired = false → (t.after w.now reaction m).tracker.expired = true →
        w.finds? t.name m ≠ none) ∧
      (w.finds? t.name m ≠ none → t.tracker.expired = false ∧
        ((t.after w.now reaction m).tracker.expired = true ∨
          (∃ time, m = .sweep time) ∧ reaction = .reset)) := by
  have stuck : ∀ t' : Tracked, t'.tracker.expired = t.tracker.expired →
      t.tracker.expired = false → t'.tracker.expired = true → False := by
    intro t' same calm expired
    rw [same, calm] at expired
    cases expired
  cases m with
  | sweep time =>
    rw [finds?_sweep watched, Tracked.after]
    rcases t.check_cases time with ⟨quiet, -⟩ | ⟨d, found, calm, flagged⟩
    · rw [Tracked.swept_of_none quiet, quiet]
      exact ⟨fun calm expired => (stuck t rfl calm expired).elim, fun ne => (ne rfl).elim⟩
    · refine ⟨fun _ _ => by rw [found]; exact Option.some_ne_none _, fun _ => ⟨calm, ?_⟩⟩
      rw [Tracked.swept, found, Option.elim_some]
      cases reaction with
      | nothing | deregister i => exact .inl flagged
      | reset => exact .inr ⟨⟨time, rfl⟩, rfl⟩
  | check name time =>
    rw [finds?, Tracked.after, expiry?, watched.find?_name, Option.bind_some]
    by_cases same : t.name = name
    · rw [if_pos same, if_pos same.symm]
      rcases t.check_cases time with ⟨quiet, unchanged⟩ | ⟨d, found, calm, flagged⟩
      · rw [unchanged, quiet]
        exact ⟨fun calm expired => (stuck t rfl calm expired).elim, fun ne => (ne rfl).elim⟩
      · exact ⟨fun _ _ => by rw [found]; exact Option.some_ne_none _,
          fun _ => ⟨calm, .inl flagged⟩⟩
    · rw [if_neg same, if_neg (Ne.symm same)]
      exact ⟨fun calm expired => (stuck t rfl calm expired).elim, fun ne => (ne rfl).elim⟩
  | touch name time | setTimeout name timeout =>
    refine ⟨fun calm expired => (stuck _ ?_ calm expired).elim, fun ne => (ne rfl).elim⟩
    rw [Tracked.after]
    split <;> rfl
  | reset name =>
    refine ⟨fun calm expired => ?_, fun ne => (ne rfl).elim⟩
    rw [Tracked.after] at expired
    split at expired
    · cases expired
    · exact (stuck t rfl calm expired).elim
  | create _ _ | drop _ | register _ _ _ | deregister _ | clock _ _ =>
    exact ⟨fun calm expired => (stuck t rfl calm expired).elim, fun ne => (ne rfl).elim⟩

/-! ### Histories of one registration -/

theorem watched_run {ms : List Move} {w : Watch} {t : Tracked} (watched : w.Watched id reaction t)
    (spare : ∀ m ∈ ms, m.Spares id t.name) :
    (∃ t', t'.name = t.name ∧ (w.run ms).Watched id reaction t') ∧
      (w.run ms).calls id =
        w.calls id ++ ((findings t.name w ms).filter (·.1 = .sweeper)).map (·.2) := by
  induction ms generalizing w t with
  | nil => exact ⟨⟨t, rfl, watched⟩, (List.append_nil _).symm⟩
  | cons m ms ih =>
    obtain ⟨still, called⟩ := watched_act watched (spare m List.mem_cons_self)
    have later : ∀ m' ∈ ms, m'.Spares id (t.after w.now reaction m).name := by
      intro m' mem
      rw [Tracked.after_name]
      exact spare m' (List.mem_cons_of_mem _ mem)
    obtain ⟨⟨t', name, ends⟩, calls⟩ := ih still later
    rw [Tracked.after_name] at name calls
    refine ⟨⟨t', name, ends⟩, ?_⟩
    show ((w.act m).run ms).calls id = _
    rw [calls, called, findings, notices_eq watched, List.filter_append, List.map_append,
      List.append_assoc]

/-- As long as the flag is set, nobody is told. -/
theorem silent_of_expired {ms : List Move} {w : Watch} {t : Tracked}
    (watched : w.Watched id reaction t) (expired : w.isExpired t.name = true)
    (spare : ∀ m ∈ ms, m.Spares id t.name) (unreset : .reset t.name ∉ ms) :
    (w.run ms).calls id = w.calls id ∧ (w.run ms).isExpired t.name = true := by
  induction ms generalizing w t with
  | nil => exact ⟨rfl, expired⟩
  | cons m ms ih =>
    rw [isExpired_eq watched] at expired
    obtain ⟨still, called⟩ := watched_act watched (spare m List.mem_cons_self)
    have flagged : (t.after w.now reaction m).tracker.expired = true :=
      Tracked.expired_after (fun same => unreset (by rw [same]; exact List.mem_cons_self)) expired
    have unnoticed : t.notices m = [] := by
      cases m with
      | sweep time => rw [Tracked.notices, Tracked.expiry?_of_expired expired]; rfl
      | _ => rfl
    rw [← isExpired_eq still, Tracked.after_name] at flagged
    have rest := ih (t := t.after w.now reaction m) still
      (by rw [Tracked.after_name]; exact flagged)
      (fun m' mem => by rw [Tracked.after_name]; exact spare m' (List.mem_cons_of_mem _ mem))
      (by rw [Tracked.after_name]; exact fun mem => unreset (List.mem_cons_of_mem _ mem))
    rw [Tracked.after_name, called, unnoticed, List.append_nil] at rest
    exact rest

/-- The registration is called once for each expiry that a sweep finds, within that sweep and with
    how long the tracker had been idle, and never otherwise.  The flag is set just by whoever finds
    the expiry, so every expiry is told of if, and only if, no holder's check has found one. -/
theorem calls_of_moves (w : Watch) (id : ConnectionId) (reaction : Reaction) (t : Tracked)
    (watched : w.Watched id reaction t) (ms : List Move) (spare : ∀ m ∈ ms, m.Spares id t.name) :
    ((w.run ms).calls id =
      w.calls id ++ ((findings t.name w ms).filter (·.1 = .sweeper)).map (·.2)) ∧
    ((w.run ms).calls id = w.calls id ++ (findings t.name w ms).map (·.2) ↔
      ∀ f ∈ findings t.name w ms, f.1 = .sweeper) ∧
    ∀ pre m post, ms = pre ++ m :: post →
      let before := w.run pre
      let after := w.run (pre ++ [m])
      (before.isExpired t.name = false → after.isExpired t.name = true →
        before.finds? t.name m ≠ none) ∧
      (before.finds? t.name m ≠ none → before.isExpired t.name = false ∧
        (after.isExpired t.name = true ∨ (∃ time, m = .sweep time) ∧ reaction = .reset)) ∧
      after.calls id = before.calls id ++
        match m with
        | .sweep time => (before.expiry? t.name time).toList
        | _ => [] := by
  obtain ⟨-, calls⟩ := watched_run watched spare
  refine ⟨calls, ?_, ?_⟩
  · rw [calls, List.append_cancel_left_eq]
    constructor
    · -- As many calls as there are findings leave none out.
      intro all
      have lengths := congrArg List.length all
      rw [List.length_map, List.length_map] at lengths
      exact fun f mem => by
        simpa using List.filter_eq_self.mp ((List.filter_sublist).eq_of_length lengths) f mem
    · intro all
      rw [List.filter_eq_self.mpr fun f mem => by simpa using all f mem]
  · rintro pre m post rfl before after
    obtain ⟨⟨t', name, watches⟩, -⟩ := watched_run watched
      (fun m' mem => spare m' (List.mem_append_left _ mem))
    have spares : m.Spares id t'.name := by
      rw [name]
      exact spare m (List.mem_append_right _ List.mem_cons_self)
    obtain ⟨still, called⟩ := watched_act watches spares
    have next : after = before.act m := List.foldl_append ..
    have flag : after.isExpired t.name = (t'.after before.now reaction m).tracker.expired := by
      rw [next, ← isExpired_eq still, Tracked.after_name, name]
    obtain ⟨raised, finds⟩ := raised_iff_finds watches m
    rw [name] at raised finds
    refine ⟨?_, ?_, ?_⟩
    · rw [flag, ← name, isExpired_eq watches, name]
      exact raised
    · rw [flag, ← name, isExpired_eq watches, name]
      exact finds
    · rw [next, called]
      cases m with
      | sweep time =>
        show _ = _ ++ (before.expiry? t.name time).toList
        rw [Watch.expiry?, ← name, watches.find?_name]
        rfl
      | _ => rfl

/-- A tracker that is swept in time, late, and again after its reaction has armed it. -/
theorem calls_of_moves_rearmed :
    let w := ((Watch.start (.every (.ofMillis 250))).create "a" (.ofMillis 1000)).register ⟨1⟩ "a"
      .reset
    let t : Tracked := ⟨0, "a", Config.standard.setIdleTimeout (.ofMillis 1000), .start 0⟩
    let ms : List Move :=
      [.touch "a" 500000000, .sweep 1000000000, .clock 2000000000 .none, .sweep 2000000000,
        .sweep 3000000000]
    w.Watched ⟨1⟩ .reset t ∧ (∀ m ∈ ms, m.Spares ⟨1⟩ t.name) ∧
      (w.run ms).calls ⟨1⟩ = [.ofMillis 1500, .ofMillis 1000] := by
  intro w t ms
  have watched : w.Watched ⟨1⟩ .reset t :=
    watched_create_register (List.forall_mem_nil _) (List.forall_mem_nil _) (List.forall_mem_nil _)
      "a" (.ofMillis 1000) nofun
  have spare : ∀ m ∈ ms, m.Spares ⟨1⟩ t.name := by simp [ms, Move.Spares]
  refine ⟨watched, spare, ?_⟩
  rw [(calls_of_moves w ⟨1⟩ .reset t watched ms spare).1]
  decide

/-- A holder's check finds the expiry first: the sweep after it finds the flag set and calls nobody,
    and in the same way a connection that was checked by a holder is not aborted. -/
theorem untold_after_check :
    let w := ((Watch.start (.every (.ofMillis 250))).create "a" (.ofMillis 1000)).register ⟨1⟩ "a"
      .nothing
    let late := w.act (.clock 2000000000 .none)
    let checked := late.act (.check "a" 2000000000)
    let swept := checked.act (.sweep 2000000000)
    let app : Application Unit := ⟨.none, fun s _ => (s, ⟨[], .succeed⟩), fun _ => false⟩
    let config := Config.standard.setIdleTimeout (.ofMillis 1000)
    let c := Connection.establish true () .direct ⟨1⟩ config (.ofMillis 250) .empty
    let found := ((c.act app (.wait (.ofMillis 2000))).1.act app .checkIdle).1
    (late.isExpired "a" = false ∧ checked.isExpired "a" = true ∧ swept.isExpired "a" = true ∧
      swept.calls ⟨1⟩ = []) ∧
    c.supervised = true ∧ c.host.session.tracker.expired = false ∧
      found.host.session.tracker.expired = true ∧ found.sweep.1.host.session.abortReason = none := by
  decide

end Watch

end WebSocketEngine.Idle
