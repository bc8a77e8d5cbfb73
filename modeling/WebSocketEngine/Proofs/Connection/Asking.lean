import WebSocketEngine.Proofs.Connection.Stopping
import Mathlib.Data.List.DropRight

/-!
Whether a frame needs a unit of demand is asked once, when the driver begins to read.

    begins to read ── asked: yes ──▶ takes a unit ──▶ hands a frame over
           │                                               ▲
           └──────────── asked: no ────────────────────────┘

So the units between two frames are one or none by the answer of that moment (`Settled`), whatever
the handler says later on while the driver waits.  A change of its mind counts from the next frame
that the driver begins to read, not from the one that it waits for already.
-/

namespace WebSocketEngine

variable {σ : Type}

/-! ### Units between frames -/

/-- The units that the driver has taken since the last frame was handed over. -/
def Host.paid (h : Host σ) : Nat := (h.tolls.rtakeWhile Option.isNone).length

theorem Host.Bears.paid {h k : Host σ} (bears : Host.Bears [] h k) : k.paid = h.paid := by
  rw [Host.paid, bears.tolls, List.append_nil, Host.paid]

theorem Host.Bears.paid_unit {h k : Host σ} (bears : Host.Bears [none] h k) :
    k.paid = h.paid + 1 := by
  rw [Host.paid, bears.tolls, List.rtakeWhile_concat_pos _ _ _ rfl, List.length_append, Host.paid]
  rfl

theorem Host.Bears.paid_frame {h k : Host σ} {f : Frame} (bears : Host.Bears [some f] h k) :
    k.paid = 0 := by
  rw [Host.paid, bears.tolls, List.rtakeWhile_concat_neg _ _ _ Bool.false_ne_true]
  rfl

namespace Connection

variable {app : Application σ} {c d : Connection σ} {past pre mid : List Beat}

/-! ### One reading -/

/-- With the last beat of `pre` the driver has begun to read, and it has read all through `mid`. -/
structure Reads (app : Application σ) (c : Connection σ) (pre mid : List Beat) : Prop where
  begun : ∃ early b, pre = early ++ [b] ∧ (beats app c early).isReading = false
  reading : ∀ head, head <+: mid → (beats app c (pre ++ head)).isReading = true

/-- The handler asked for frames itself when the driver began to read. -/
def asked (app : Application σ) (c : Connection σ) (pre : List Beat) : Bool :=
  (beats app c pre).host.demanding app

/-- The unit for the frame to come has been taken if it was asked for, unless it still lacks. -/
def Settled (app : Application σ) (c : Connection σ) (past : List Beat) (h : Host σ) : Phase → Prop
  | .reading needsUnit => ∃ pre mid, past = pre ++ mid ∧ Reads app c pre mid ∧
      (needsUnit = true → asked app c pre = true) ∧
      h.paid = if !needsUnit && asked app c pre then 1 else 0
  | .idle | .starting | .opening | .serving _ => h.paid = 0
  | .finished _ => True

theorem reads_of_begun {b : Beat} (busy : (beats app c past).isReading = false)
    (reading : (beats app c (past ++ [b])).isReading = true) : Reads app c (past ++ [b]) [] := by
  refine ⟨⟨past, b, rfl, busy⟩, fun head empty => ?_⟩
  rwa [List.prefix_nil.mp empty, List.append_nil]

theorem Reads.onward (reads : Reads app c pre mid) {b : Beat}
    (reading : (beats app c (pre ++ mid ++ [b])).isReading = true) :
    Reads app c pre (mid ++ [b]) := by
  refine ⟨reads.begun, fun head before => ?_⟩
  rcases List.prefix_concat_iff.mp before with rfl | within
  · rwa [← List.append_assoc]
  · exact reads.reading head within

/-- A beat in which nothing is paid. -/
theorem Settled.still {b : Beat} {h k : Host σ} {phase phase' : Phase}
    (settled : Settled app c past h phase) (paid : k.paid = h.paid) (same : phase' = phase)
    (reading : ∀ needsUnit, phase' = .reading needsUnit →
      (beats app c (past ++ [b])).isReading = true) :
    Settled app c (past ++ [b]) k phase' := by
  subst same
  cases phase' with
  | reading needsUnit =>
    obtain ⟨pre, mid, rfl, reads, needs, sum⟩ := settled
    exact ⟨pre, mid ++ [b], List.append_assoc _ _ _, reads.onward (reading needsUnit rfl), needs,
      paid.trans sum⟩
  | idle | starting | opening | serving _ => exact paid.trans settled
  | finished _ => trivial

/-- A driver that neither reads nor is over has taken nothing. -/
theorem Settled.unpaid (settled : Settled app c past d.host d.phase) (busy : d.isReading = false)
    (unfinished : ¬ d.Done) : d.host.paid = 0 := by
  cases phase : d.phase with
  | idle | starting | opening | serving _ =>
    rw [phase] at settled
    exact settled
  | reading needsUnit =>
    rw [isReading_of_reading phase] at busy
    cases busy
  | finished ending => exact (unfinished ⟨ending, phase⟩).elim

theorem settled_of_unpaid (busy : d.isReading = false) (unpaid : d.host.paid = 0) :
    Settled app c past d.host d.phase := by
  cases phase : d.phase with
  | idle | starting | opening | serving _ => exact unpaid
  | reading needsUnit =>
    rw [isReading_of_reading phase] at busy
    cases busy
  | finished ending => trivial

/-- Every beat settles what is paid for the frame to come. -/
theorem settled_beat {b : Beat} (atOnce : b.atOnce = true) (now : beats app c past = d)
    (settled : Settled app c past d.host d.phase) :
    Settled app c (past ++ [b]) (d.beat app b).host (d.beat app b).phase := by
  obtain ⟨ts, pays, bears⟩ := pays_beat app d atOnce
  have next : beats app c (past ++ [b]) = d.beat app b := by rw [beats_concat, now]
  have reading {needsUnit : Bool} (reads : (d.beat app b).phase = .reading needsUnit) :
      (beats app c (past ++ [b])).isReading = true := by
    rw [next]
    exact isReading_of_reading reads
  generalize d.beat app b = e at *
  cases pays with
  | nothing reads ends =>
    by_cases later : d.isReading = true ∨ d.Done
    · rcases ends later with same | ⟨_, finished⟩
      · exact settled.still bears.paid same fun _ => reading
      · rw [finished]
        trivial
    · have busy : d.isReading = false := Bool.eq_false_iff.mpr fun reads => later (.inl reads)
      have unpaid : e.host.paid = 0 :=
        bears.paid.trans (settled.unpaid busy fun done => later (.inr done))
      cases begins : e.isReading with
      | false => exact settled_of_unpaid begins unpaid
      | true =>
        -- The driver begins to read, and asks.
        rcases reads begins with same | ⟨-, phase⟩
        · rw [isReading, same] at begins
          exact (Bool.false_ne_true (busy.symm.trans begins)).elim
        · rw [phase]
          have asks : asked app c (past ++ [b]) = e.host.demanding app := by rw [asked, next]
          refine ⟨past ++ [b], [], (List.append_nil _).symm,
            reads_of_begun (now ▸ busy) (reading phase), asks.trans, ?_⟩
          rw [unpaid, asks]
          cases e.host.demanding app <;> rfl
  | unit free before paid =>
    rw [before] at settled
    obtain ⟨pre, mid, rfl, reads, needs, sum⟩ := settled
    rw [paid]
    refine ⟨pre, mid ++ [b], List.append_assoc _ _ _, reads.onward (reading paid),
      Bool.noConfusion, ?_⟩
    rw [bears.paid_unit, sum, needs rfl]
    rfl
  | frame free before handed => exact settled_of_unpaid handed bears.paid_frame

theorem settled_beats {bs : List Beat} (atOnce : ∀ b ∈ bs, b.atOnce = true)
    (first : Settled app c [] c.host c.phase) :
    Settled app c bs (beats app c bs).host (beats app c bs).phase := by
  induction bs using List.reverseRecOn with
  | nil => exact first
  | append_singleton past b ih =>
    rw [beats_concat]
    exact settled_beat (atOnce b (by simp)) rfl
      (ih fun b mem => atOnce b (List.mem_append_left _ mem))

theorem settled_establish (supervised : Bool) (memory : σ) (handler : Handler) (id : ConnectionId)
    (config : Config) (interval : Duration) (house : House) :
    let c := establish supervised memory handler id config interval house
    Settled app c [] c.host c.phase := by
  cases supervised <;> exact rfl

/-! ### Every schedule -/

/-- Before each frame that is handed over, the driver has taken exactly one unit of demand since
    the frame before if the handler asked for frames itself when the driver began to read, and none
    if it did not. -/
theorem one_unit_if_asked (app : Application σ) (supervised : Bool) (memory : σ) (handler : Handler)
    (id : ConnectionId) (config : Config) (interval : Duration) (house : House) (bs : List Beat)
    (atOnce : ∀ b ∈ bs, b.atOnce = true) :
    let c := establish supervised memory handler id config interval house
    ∀ (past post : List Beat) (b : Beat) (f : Frame), bs = past ++ b :: post →
      let d := beats app c past
      (d.beat app b).host.events.filterMap Call.frame? =
          d.host.events.filterMap Call.frame? ++ [f] →
        ∃ pre mid, past = pre ++ mid ∧ Reads app c pre mid ∧
          d.host.paid = if (beats app c pre).host.demanding app then 1 else 0 := by
  intro c past post b f split d handed
  have settled : Settled app c past d.host d.phase :=
    settled_beats (fun b mem => atOnce b (split ▸ List.mem_append_left _ mem))
      (settled_establish supervised memory handler id config interval house)
  obtain ⟨ts, pays, bears⟩ := pays_beat app d (atOnce b (split ▸ by simp))
  rw [Host.frames_eq, Host.frames_eq, bears.tolls, List.reduceOption_append,
    List.append_cancel_left_eq] at handed
  cases pays with
  | nothing _ _ | unit _ _ _ => cases handed
  | frame free reading _ =>
    rw [reading] at settled
    obtain ⟨pre, mid, split, reads, -, sum⟩ := settled
    exact ⟨pre, mid, split, reads, sum⟩

/-- A handler that asks for frames, one unit, and a text. -/
theorem one_unit_if_asked_of_granted :
    let app : Application Unit :=
      ⟨{ Hooks.none with onText := true }, fun s _ => (s, ⟨[], .succeed⟩), fun _ => false⟩
    let f : Frame := .text "hi"
    let past : List Beat := [.act (.start false), .step, .step, .step, .act (.demand 1),
      .act (.arrive [f]), .step]
    let c := establish false () (.assembling .fresh) ⟨1⟩ (Config.standard.setDemanding true) .zero
      .empty
    let d := beats app c past
    (∀ b ∈ past ++ [.step], b.atOnce = true) ∧
      (d.beat app .step).host.events.filterMap Call.frame? =
        d.host.events.filterMap Call.frame? ++ [f] ∧
      ∃ pre mid, past = pre ++ mid ∧ Reads app c pre mid ∧
        d.host.paid = if (beats app c pre).host.demanding app then 1 else 0 := by
  intro app f past
  dsimp only
  obtain ⟨c, born⟩ : ∃ c : Connection Unit, establish false () (.assembling .fresh) ⟨1⟩
    (Config.standard.setDemanding true) .zero .empty = c := ⟨_, rfl⟩
  have atOnce : ∀ b ∈ past ++ [.step], b.atOnce = true := by decide
  have handed : ((beats app c past).beat app .step).host.events.filterMap Call.frame? =
      (beats app c past).host.events.filterMap Call.frame? ++ [f] := by
    rw [← born]
    decide
  have run := one_unit_if_asked app false () (.assembling .fresh) ⟨1⟩
    (Config.standard.setDemanding true) .zero .empty (past ++ [.step]) atOnce past [] .step f rfl
  dsimp only at run
  rw [born] at run ⊢
  exact ⟨atOnce, handed, run handed⟩

/-- The handler begins to ask for frames while the driver waits for one: it gets that one without a
    unit. -/
theorem unpaid_after_asking :
    let app : Application Unit :=
      ⟨{ Hooks.none with onText := true }, fun s _ => (s, ⟨[], .succeed⟩), fun _ => false⟩
    let f : Frame := .text "hi"
    let past : List Beat := [.act (.start false), .step, .step, .step,
      .act (.change { Config.Change.nothing with demanding := some true }), .act (.arrive [f])]
    let c := establish false () (.assembling .fresh) ⟨1⟩ .standard .zero .empty
    let d := beats app c past
    (∀ b ∈ past, b.atOnce = true) ∧ d.host.demanding app = true ∧ d.host.paid = 0 ∧
      (d.beat app .step).host.events.filterMap Call.frame? =
        d.host.events.filterMap Call.frame? ++ [f] := by
  decide

/-- Where nobody has anything to do while the connection runs, and the last callback has its
    outcome, no frame is left to be read, unless there is no demand and the handler asked for frames
    itself when the driver began to read. -/
theorem frames_flow_unless_asked (app : Application σ) (supervised : Bool) (memory : σ)
    (handler : Handler) (id : ConnectionId) (config : Config) (interval : Duration) (house : House)
    (bs : List Beat) (atOnce : ∀ b ∈ bs, b.atOnce = true) :
    let c := establish supervised memory handler id config interval house
    let d := beats app c bs
    d.running = true → d.step app = none → d.host.verdict ≠ none →
      d.inbound = [] ∨ d.host.session.demand = 0 ∧
        ∃ pre mid, bs = pre ++ mid ∧ Reads app c pre mid ∧
          (beats app c pre).host.demanding app = true := by
  intro c d running quiet decided
  have settled : Settled app c bs d.host d.phase :=
    settled_beats atOnce (settled_establish supervised memory handler id config interval house)
  have awake : d.Awake :=
    awake_beats (awake_establish supervised memory handler id config interval house) atOnce
  have lacks := awake.lacks quiet
  unfold Lacks at lacks
  unfold Connection.running at running
  cases phase : d.phase with
  | idle | finished _ =>
    rw [phase] at running
    cases running
  | starting =>
    rw [phase] at lacks
    exact lacks.elim
  | opening | serving _ =>
    rw [phase] at lacks
    exact (decided lacks.1).elim
  | reading needsUnit =>
    rw [phase] at lacks settled
    cases needsUnit with
    | false => exact .inl lacks.2.1
    | true =>
      obtain ⟨pre, mid, split, reads, needs, -⟩ := settled
      exact .inr ⟨lacks.2, pre, mid, split, reads, needs rfl⟩

/-- A text that waits for a unit of demand. -/
theorem frames_flow_unless_asked_of_ungranted :
    let app : Application Unit :=
      ⟨{ Hooks.none with onText := true }, fun s _ => (s, ⟨[], .succeed⟩), fun _ => false⟩
    let bs : List Beat :=
      [.act (.start false), .step, .step, .step, .act (.arrive [.text "hi"]), .step]
    let c := establish false () (.assembling .fresh) ⟨1⟩ (Config.standard.setDemanding true) .zero
      .empty
    let d := beats app c bs
    (∀ b ∈ bs, b.atOnce = true) ∧ d.running = true ∧ d.step app = none ∧ d.host.verdict ≠ none ∧
      (d.inbound = [] ∨ d.host.session.demand = 0 ∧
        ∃ pre mid, bs = pre ++ mid ∧ Reads app c pre mid ∧
          (beats app c pre).host.demanding app = true) := by
  refine ⟨by decide, by decide, rfl, by decide, ?_⟩
  exact frames_flow_unless_asked _ false () (.assembling .fresh) ⟨1⟩
    (Config.standard.setDemanding true) .zero .empty _ (by decide) (by decide) rfl (by decide)

/-- The handler asks for frames, and takes that back while the driver waits for a unit: the text
    that has arrived is left to be read. -/
theorem left_after_taking_back :
    let app : Application Unit :=
      ⟨{ Hooks.none with onText := true }, fun s _ => (s, ⟨[], .succeed⟩), fun _ => false⟩
    let f : Frame := .text "hi"
    let bs : List Beat := [.act (.start false), .step, .step, .step, .act (.arrive [f]), .step,
      .act (.change { Config.Change.nothing with demanding := some false })]
    let c := establish false () (.assembling .fresh) ⟨1⟩ (Config.standard.setDemanding true) .zero
      .empty
    let d := beats app c bs
    (∀ b ∈ bs, b.atOnce = true) ∧ d.running = true ∧ d.step app = none ∧
      d.host.demanding app = false ∧ d.host.verdict = some (.ok ()) ∧ d.inbound = [f] := by
  refine ⟨by decide, by decide, rfl, by decide, by decide, by decide⟩

end Connection

end WebSocketEngine
