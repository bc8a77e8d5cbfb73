import WebSocketEngine.Failure
import WebSocketEngine.Frame
import Mathlib.Data.List.Induction

/-!
One who watches a driver at its work.

The watcher sees signs: the handler is opened, a frame is handed over, the completion of the last
callback has its outcome, the session is shut, a PONG is queued, the driver goes on to read.  A
driver that takes one thing after another is never caught out of turn:

    unopened ── opened ──▶ waiting none ─┐
                                         ├── resolved ok ──▶ clear, or owing a PONG, or closed
    free ── handed f ───▶ waiting f ─────┘── resolved error ──▶ closed
    owing p ── ponged p, shut ──▶ clear ── reads ──▶ free
    anything else ──▶ stuck

The session is shut when a CLOSE was sent or the writer is gone; then no PONG is owed.
-/

namespace WebSocketEngine.Connection

inductive Sign
  | opened
  | handed (f : Frame)
  /-- The completion of the last callback has its outcome. -/
  | resolved (o : Outcome)
  /-- A CLOSE was sent, or the writer has gone. -/
  | shut
  /-- The driver has queued a PONG. -/
  | ponged (f : Frame)
  /-- The driver goes on to read. -/
  | reads
  deriving DecidableEq

namespace Sign

def frame? : Sign → Option Frame
  | handed f => some f
  | opened | resolved _ | shut | ponged _ | reads => none

/-- A callback, its outcome, and that the driver goes on. -/
def isTurn : Sign → Bool
  | opened | handed _ | resolved _ | reads => true
  | shut | ponged _ => false

def isPonged : Sign → Bool
  | ponged _ => true
  | opened | handed _ | resolved _ | shut | reads => false

end Sign

/-- How things stand for the watcher. -/
inductive Stand
  | unopened
  /-- The opening, or a frame, has no outcome yet. -/
  | waiting (f : Option Frame)
  | owing (payload : Bytes)
  /-- The last callback has succeeded, and nothing is owed. -/
  | clear
  | free
  /-- No frame may follow. -/
  | closed
  /-- Something came out of turn. -/
  | stuck
  deriving DecidableEq

structure Watch where
  stand : Stand
  shut : Bool

namespace Watch

def start : Watch := ⟨.unopened, false⟩

/-- After the success of the opening or of a frame. -/
def after (shut : Bool) : Option Frame → Stand
  | none => .clear
  | some f =>
    if f.op = .close then .closed else if f.op = .ping && !shut then .owing f.payload else .clear

/-- Where a callback stands, by what was heard of it. -/
def heard (shut : Bool) (x : Option Frame) : Option Outcome → Stand
  | none => .waiting x
  | some (.ok _) => after shut x
  | some (.error _) => .closed

/-- A shut session owes nothing. -/
def mute (w : Watch) : Watch where
  stand := match w.stand with
    | .owing _ => .clear
    | s => s
  shut := true

def trans : Watch → Sign → Watch
  | w, .shut => w.mute
  | ⟨.unopened, s⟩, .opened => ⟨.waiting none, s⟩
  | ⟨.free, s⟩, .handed f => ⟨.waiting (some f), s⟩
  | ⟨.waiting x, s⟩, .resolved o => ⟨heard s x (some o), s⟩
  | ⟨.owing p, s⟩, .ponged f => ⟨if f = .pong p then .clear else .stuck, s⟩
  | ⟨.clear, s⟩, .reads => ⟨.free, s⟩
  | ⟨_, s⟩, _ => ⟨.stuck, s⟩

/-- What may be seen in turn. -/
inductive InTurn : Stand → Sign → Prop
  | opened : InTurn .unopened .opened
  | handed (f : Frame) : InTurn .free (.handed f)
  | resolved (x : Option Frame) (o : Outcome) : InTurn (.waiting x) (.resolved o)
  | ponged (p : Bytes) : InTurn (.owing p) (.ponged (.pong p))
  | reads : InTurn .clear .reads
  | shut (s : Stand) : InTurn s .shut

theorem inTurn_of_trans {w : Watch} {s : Sign} (well : (w.trans s).stand ≠ .stuck) :
    InTurn w.stand s := by
  obtain ⟨stand, shut⟩ := w
  cases s with
  | opened =>
    cases stand with
    | unopened => exact .opened
    | waiting _ | owing _ | clear | free | closed | stuck => exact (well rfl).elim
  | handed f =>
    cases stand with
    | free => exact .handed f
    | unopened | waiting _ | owing _ | clear | closed | stuck => exact (well rfl).elim
  | resolved o =>
    cases stand with
    | waiting x => exact .resolved x o
    | unopened | owing _ | clear | free | closed | stuck => exact (well rfl).elim
  | ponged f =>
    cases stand with
    | owing p =>
      by_cases same : f = .pong p
      · rw [same]
        exact .ponged p
      · exact (well (if_neg same)).elim
    | unopened | waiting _ | clear | free | closed | stuck => exact (well rfl).elim
  | reads =>
    cases stand with
    | clear => exact .reads
    | unopened | waiting _ | owing _ | free | closed | stuck => exact (well rfl).elim
  | shut => exact .shut stand

theorem trans_ponged (p : Bytes) (shut : Bool) :
    trans ⟨.owing p, shut⟩ (.ponged (.pong p)) = ⟨.clear, shut⟩ :=
  congrArg (Watch.mk · shut) (if_pos rfl)

def run (w : Watch) (signs : List Sign) : Watch := signs.foldl trans w

theorem run_concat (w : Watch) (signs : List Sign) (s : Sign) :
    w.run (signs ++ [s]) = (w.run signs).trans s := by
  rw [run, run, List.foldl_append]
  rfl

theorem run_append (w : Watch) (signs more : List Sign) :
    w.run (signs ++ more) = (w.run signs).run more :=
  List.foldl_append

theorem trans_of_stuck {w : Watch} (stuck : w.stand = .stuck) (s : Sign) :
    (w.trans s).stand = .stuck := by
  obtain ⟨stand, shut⟩ := w
  obtain rfl : stand = .stuck := stuck
  cases s <;> rfl

/-- Who is caught out of turn remains so. -/
theorem run_of_stuck {w : Watch} (stuck : w.stand = .stuck) (signs : List Sign) :
    (w.run signs).stand = .stuck := by
  induction signs generalizing w with
  | nil => exact stuck
  | cons s signs ih => exact ih (trans_of_stuck stuck s)

theorem run_before {w : Watch} {signs more : List Sign}
    (well : (w.run (signs ++ more)).stand ≠ .stuck) : (w.run signs).stand ≠ .stuck :=
  fun stuck => well (by rw [run_append]; exact run_of_stuck stuck more)

/-- A sign in turn, whatever comes after it. -/
theorem inTurn_of_run {w : Watch} {pre post : List Sign} {s : Sign}
    (well : (w.run (pre ++ s :: post)).stand ≠ .stuck) :
    (w.run pre).stand ≠ .stuck ∧ InTurn (w.run pre).stand s := by
  rw [List.append_cons] at well
  have seen := run_before well
  exact ⟨run_before seen, inTurn_of_trans (by rwa [run_concat] at seen)⟩

/-! ### What a trace in turn says -/

/-- The opening and some frames, one after another. -/
def course (fs : List Frame) : List Sign :=
  .opened :: .resolved (.ok ()) :: .reads ::
    fs.flatMap fun f => [.handed f, .resolved (.ok ()), .reads]

theorem course_concat (fs : List Frame) (f : Frame) :
    course fs ++ [.handed f] ++ [.resolved (.ok ())] ++ [.reads] = course (fs ++ [f]) := by
  simp [course]

/-- What the callbacks and their outcomes were. -/
def Followed (turns : List Sign) : Stand → Prop
  | .unopened => turns = []
  | .waiting none => turns = [.opened]
  | .waiting (some f) => ∃ fs, turns = course fs ++ [.handed f] ∧ ∀ g ∈ fs, g.op ≠ .close
  | .owing _ | .clear => ∃ fs, turns ++ [.reads] = course fs ∧ ∀ g ∈ fs, g.op ≠ .close
  | .free => ∃ fs, turns = course fs ∧ ∀ g ∈ fs, g.op ≠ .close
  | .closed => True
  | .stuck => False

theorem followed_after {turns : List Sign} {x : Option Frame}
    (followed : Followed turns (.waiting x)) (shut : Bool) :
    Followed (turns ++ [.resolved (.ok ())]) (after shut x) := by
  cases x with
  | none =>
    obtain rfl : turns = [.opened] := followed
    exact ⟨[], rfl, by simp⟩
  | some f =>
    obtain ⟨fs, rfl, unclosed⟩ := followed
    have course (going : f.op ≠ .close) : ∃ gs,
        Watch.course fs ++ [.handed f] ++ [.resolved (.ok ())] ++ [.reads] = Watch.course gs ∧
          ∀ g ∈ gs, g.op ≠ .close := by
      refine ⟨fs ++ [f], course_concat fs f, fun g mem => ?_⟩
      rcases List.mem_append.mp mem with before | last
      · exact unclosed g before
      · rwa [List.mem_singleton.mp last]
    by_cases close : f.op = .close
    · rw [after, if_pos close]
      trivial
    · rw [after, if_neg close]
      split <;> exact course close

theorem followed_trans {w : Watch} {turns : List Sign} (followed : Followed turns w.stand)
    {s : Sign} (well : (w.trans s).stand ≠ .stuck) :
    Followed (turns ++ [s].filter Sign.isTurn) (w.trans s).stand := by
  have turn := inTurn_of_trans well
  obtain ⟨stand, shut⟩ := w
  cases turn with
  | opened =>
    obtain rfl : turns = [] := followed
    rfl
  | handed f =>
    obtain ⟨fs, rfl, unclosed⟩ := followed
    exact ⟨fs, rfl, unclosed⟩
  | resolved x o =>
    cases o with
    | ok u => exact followed_after followed shut
    | error e => trivial
  | ponged p =>
    rw [trans_ponged, show [Sign.ponged (.pong p)].filter Sign.isTurn = [] from rfl,
      List.append_nil]
    exact followed
  | reads => exact followed
  | shut =>
    rw [show [Sign.shut].filter Sign.isTurn = [] from rfl, List.append_nil]
    cases stand <;> exact followed

theorem followed_run {signs : List Sign} (well : (start.run signs).stand ≠ .stuck) :
    Followed (signs.filter Sign.isTurn) (start.run signs).stand := by
  induction signs using List.reverseRecOn with
  | nil => rfl
  | append_singleton signs s ih =>
    have before := ih (run_before well)
    rw [run_concat] at well ⊢
    rw [List.filter_append]
    exact followed_trans before well

/-- A frame is handed over after the success of the opening and of all frames before it, none of
    which was a CLOSE. -/
theorem course_of_handed {pre post : List Sign} {f : Frame}
    (well : (start.run (pre ++ .handed f :: post)).stand ≠ .stuck) :
    ∃ fs, pre.filter Sign.isTurn = course fs ∧ ∀ g ∈ fs, g.op ≠ .close := by
  obtain ⟨before, turn⟩ := inTurn_of_run well
  have followed := followed_run before
  generalize (start.run pre).stand = stand at followed turn
  cases turn
  exact followed

/-! ### What a trace in turn says of PONGs -/

theorem shut_trans (w : Watch) {s : Sign} (other : s ≠ .shut) : (w.trans s).shut = w.shut := by
  obtain ⟨stand, shut⟩ := w
  cases s with
  | shut => exact (other rfl).elim
  | opened | handed _ | resolved _ | ponged _ | reads => cases stand <;> rfl

theorem shut_run_of_unshut (w : Watch) {signs : List Sign} (unshut : .shut ∉ signs) :
    (w.run signs).shut = w.shut := by
  induction signs generalizing w with
  | nil => rfl
  | cons s signs ih =>
    rw [List.mem_cons, not_or] at unshut
    exact (ih (w.trans s) unshut.2).trans (w.shut_trans (Ne.symm unshut.1))

theorem shut_run (signs : List Sign) : (start.run signs).shut = true ↔ .shut ∈ signs := by
  induction signs using List.reverseRecOn with
  | nil => simp [run, start]
  | append_singleton signs s ih =>
    rw [run_concat, List.mem_append, ← ih, List.mem_singleton]
    by_cases other : s = .shut
    · subst other
      exact iff_of_true rfl (.inr rfl)
    · rw [shut_trans _ other]
      exact ⟨.inl, fun either => either.resolve_right (Ne.symm other)⟩

/-- What came after a frame, up to the next one. -/
def Answered (f : Frame) (mid : List Sign) (shut : Bool) : Stand → Prop
  | .waiting x => x = some f ∧ ∀ s ∈ mid, s = .shut
  | .owing p => f.op = .ping ∧ p = f.payload ∧ shut = false ∧ .resolved (.ok ()) ∈ mid ∧
      ∀ s ∈ mid, s.isPonged = false
  | .clear => f.op = .ping → .ponged (.pong f.payload) ∈ mid ∨ shut = true
  | .free => .reads ∈ mid
  | .closed => f.op ≠ .close → .resolved (.ok ()) ∉ mid
  | .unopened | .stuck => False

theorem answered_heard {f : Frame} {mid : List Sign} (still : ∀ s ∈ mid, s = .shut) (shut : Bool)
    (o : Outcome) : Answered f (mid ++ [.resolved o]) shut (heard shut (some f) (some o)) := by
  cases o with
  | error e =>
    intro _ mem
    rcases List.mem_append.mp mem with before | last
    · cases still _ before
    · cases List.mem_singleton.mp last
  | ok u =>
    rw [heard, after]
    split
    · next close => exact fun going => (going close).elim
    · split
      · next ping =>
        obtain ⟨ping, unshut⟩ := (Bool.and_eq_true _ _).mp ping
        refine ⟨of_decide_eq_true ping, rfl, by simpa using unshut, by simp, fun s mem => ?_⟩
        rcases List.mem_append.mp mem with before | last
        · rw [still s before]
          rfl
        · rw [List.mem_singleton.mp last]
          rfl
      · next quiet =>
        intro ping
        exact .inr (by simpa [ping] using quiet)

theorem answered_trans {f : Frame} {mid : List Sign} {w : Watch}
    (answered : Answered f mid w.shut w.stand) {s : Sign} (same : s.frame? = none)
    (well : (w.trans s).stand ≠ .stuck) :
    Answered f (mid ++ [s]) (w.trans s).shut (w.trans s).stand := by
  have turn := inTurn_of_trans well
  obtain ⟨stand, shut⟩ := w
  cases turn with
  | opened => exact answered.elim
  | handed g => cases same
  | resolved x o =>
    obtain ⟨rfl, still⟩ := answered
    exact answered_heard still shut o
  | ponged p =>
    obtain ⟨-, rfl, -⟩ := answered
    rw [trans_ponged]
    exact fun _ => .inl (by simp)
  | reads => exact List.mem_append_right _ (List.mem_singleton_self _)
  | shut =>
    cases stand with
    | waiting x =>
      obtain ⟨rfl, still⟩ := answered
      refine ⟨rfl, fun s mem => ?_⟩
      rcases List.mem_append.mp mem with before | last
      · exact still s before
      · exact List.mem_singleton.mp last
    | owing _ | clear => exact fun _ => .inr rfl
    | free => exact List.mem_append_left _ answered
    | closed =>
      intro going mem
      rcases List.mem_append.mp mem with before | last
      · exact answered going before
      · cases List.mem_singleton.mp last
    | unopened | stuck => exact answered.elim

theorem answered_run {head mid : List Sign} {f : Frame} (within : ∀ s ∈ mid, s.frame? = none)
    (well : (start.run (head ++ .handed f :: mid)).stand ≠ .stuck) :
    Answered f mid (start.run (head ++ .handed f :: mid)).shut
      (start.run (head ++ .handed f :: mid)).stand := by
  induction mid using List.reverseRecOn with
  | nil =>
    have turn := (inTurn_of_run well).2
    rw [run_concat]
    generalize start.run head = w at turn
    obtain ⟨stand, shut⟩ := w
    cases turn
    exact ⟨rfl, nofun⟩
  | append_singleton mid s ih =>
    rw [← List.cons_append, ← List.append_assoc] at well ⊢
    have before := ih (fun s mem => within s (List.mem_append_left _ mem)) (run_before well)
    rw [run_concat] at well ⊢
    exact answered_trans before (within s (by simp)) well

/-- The last frame that was handed over, if there is one. -/
theorem exists_last (signs : List Sign) :
    (∀ s ∈ signs, s.frame? = none) ∨ ∃ head f mid,
      signs = head ++ .handed f :: mid ∧ ∀ s ∈ mid, s.frame? = none := by
  induction signs using List.reverseRecOn with
  | nil => exact .inl nofun
  | append_singleton signs s ih =>
    cases frame : s.frame? with
    | some f =>
      cases s with
      | handed g => exact .inr ⟨signs, g, [], rfl, nofun⟩
      | opened | resolved _ | shut | ponged _ | reads => cases frame
    | none =>
      have also {signs : List Sign} (before : ∀ t ∈ signs, t.frame? = none) (t)
          (mem : t ∈ signs ++ [s]) : t.frame? = none := by
        rcases List.mem_append.mp mem with old | last
        · exact before t old
        · rwa [List.mem_singleton.mp last]
      rcases ih with never | ⟨head, f, mid, rfl, within⟩
      · exact .inl (also never)
      · refine .inr ⟨head, f, mid ++ [s], ?_, also within⟩
        rw [List.append_assoc, List.cons_append]

/-- How things may stand before the first frame. -/
def Early : Stand → Prop
  | .unopened | .waiting none | .clear | .free | .closed => True
  | .waiting (some _) | .owing _ | .stuck => False

theorem early_of_unhanded {signs : List Sign} (never : ∀ s ∈ signs, s.frame? = none)
    (well : (start.run signs).stand ≠ .stuck) : Early (start.run signs).stand := by
  induction signs using List.reverseRecOn with
  | nil => trivial
  | append_singleton signs s ih =>
    have before := ih (fun t mem => never t (List.mem_append_left _ mem)) (run_before well)
    have last := never s (by simp)
    rw [run_concat] at well ⊢
    have turn := inTurn_of_trans well
    generalize start.run signs = w at before turn
    obtain ⟨stand, shut⟩ := w
    cases turn with
    | opened | reads => trivial
    | handed f => cases last
    | ponged p => exact before.elim
    | shut =>
      cases stand with
      | owing p => trivial
      | unopened | waiting _ | clear | free | closed | stuck => exact before
    | resolved x o =>
      cases x with
      | some f => exact before.elim
      | none => cases o <;> trivial

/-- A PONG answers the last frame, a PING that has succeeded, and is the first to do so. -/
theorem ping_of_ponged {pre post : List Sign} {g : Frame}
    (well : (start.run (pre ++ .ponged g :: post)).stand ≠ .stuck) :
    ∃ (head mid : List Sign) (f : Frame), pre = head ++ .handed f :: mid ∧ f.op = .ping ∧
      g = .pong f.payload ∧ .resolved (.ok ()) ∈ mid ∧ .shut ∉ pre ∧
      ∀ s ∈ mid, s.frame? = none ∧ s.isPonged = false := by
  obtain ⟨before, turn⟩ := inTurn_of_run well
  rcases exists_last pre with never | ⟨head, f, mid, rfl, within⟩
  · have early := early_of_unhanded never before
    generalize (start.run pre).stand = stand at early turn
    cases turn
    exact early.elim
  · have answered := answered_run within before
    have unshut := shut_run (head ++ .handed f :: mid)
    generalize start.run (head ++ .handed f :: mid) = w at turn answered unshut
    obtain ⟨stand, shut⟩ := w
    cases turn
    obtain ⟨ping, rfl, rfl, ok, unponged⟩ := answered
    refine ⟨head, mid, f, rfl, ping, rfl, ok, fun shut => ?_, fun s mem =>
      ⟨within s mem, unponged s mem⟩⟩
    cases unshut.mpr shut

/-- Where the driver goes on after a PING, and the session is not shut, the PONG is queued. -/
theorem ponged_of_reads {head mid post : List Sign} {f : Frame}
    (well : (start.run (head ++ .handed f :: mid ++ .reads :: post)).stand ≠ .stuck)
    (within : ∀ s ∈ mid, s.frame? = none) (ping : f.op = .ping)
    (unshut : .shut ∉ head ++ .handed f :: mid) : .ponged (.pong f.payload) ∈ mid := by
  obtain ⟨before, turn⟩ := inTurn_of_run well
  have answered := answered_run within before
  have shut := shut_run (head ++ .handed f :: mid)
  generalize start.run (head ++ .handed f :: mid) = w at turn answered shut
  obtain ⟨stand, isShut⟩ := w
  cases turn
  exact (answered ping).resolve_right fun isShut => unshut (shut.mp isShut)

/-- The driver has gone on after a frame that has succeeded, or it is about to. -/
theorem reads_of_resolved {head mid : List Sign} {f : Frame}
    (well : (start.run (head ++ .handed f :: mid)).stand ≠ .stuck)
    (within : ∀ s ∈ mid, s.frame? = none) (going : f.op ≠ .close)
    (ok : .resolved (.ok ()) ∈ mid) :
    .reads ∈ mid ∨ (∃ p, (start.run (head ++ .handed f :: mid)).stand = .owing p) ∨
      (start.run (head ++ .handed f :: mid)).stand = .clear := by
  have answered := answered_run within well
  generalize start.run (head ++ .handed f :: mid) = w at answered
  obtain ⟨stand, shut⟩ := w
  cases stand with
  | waiting x => cases answered.2 _ ok
  | owing p => exact .inr (.inl ⟨p, rfl⟩)
  | clear => exact .inr (.inr rfl)
  | free => exact .inl answered
  | closed => exact (answered going ok).elim
  | unopened | stuck => exact answered.elim

end Watch

end WebSocketEngine.Connection
