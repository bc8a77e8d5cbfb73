import WebSocketEngine.Proofs.Session.Books

/-!
What a call does to a host, as a whole.

    open     every frame goes to the end of the queue, and nobody hears of anything yet
    shut     no frame is accepted, and the caller hears of a transport failure, once

A session is shut when a CLOSE was sent or the writer is gone.  The tokens of a message that is
refused are resolved one after another; only the last of them brings the caller its outcome.
-/

namespace WebSocketEngine

open Completion (Ledger Token Split failure?)

namespace Assembly

theorem fragments_ne_nil (kind : MessageKind) (chunks : List Bytes) :
    fragments kind chunks ≠ [] := by
  rcases chunks with _ | ⟨c, _ | ⟨d, cs⟩⟩ <;> simp [fragments]

theorem op_of_mem_continuations {chunks : List Bytes} {f : Frame} (mem : f ∈ continuations chunks) :
    f.op = .continuation := by
  fun_induction continuations chunks with
  | case1 => cases mem
  | case2 c =>
    cases List.mem_singleton.mp mem
    rfl
  | case3 c cs _ ih =>
    rcases List.mem_cons.mp mem with rfl | later
    · rfl
    · exact ih later

/-- A message has data frames only. -/
theorem op_of_mem_fragments {kind : MessageKind} {chunks : List Bytes} {f : Frame}
    (mem : f ∈ fragments kind chunks) : f.op ≠ .close := by
  rcases chunks with _ | ⟨c, _ | ⟨d, cs⟩⟩
  · cases List.mem_singleton.mp mem
    cases kind <;> decide
  · cases List.mem_singleton.mp mem
    cases kind <;> nofun
  · rcases List.mem_cons.mp mem with rfl | later
    · cases kind <;> nofun
    · rw [op_of_mem_continuations later]
      decide

end Assembly

/-! ### Reading the record -/

def Note.sent? : Note → Option (Frame × Bool)
  | .accepted f batch => some (f, batch)
  | _ => none

def Note.got? : Note → Option (Frame × Bool)
  | .fetched f batch => some (f, batch)
  | _ => none

def Note.settled? : Note → Option (Nat × Outcome)
  | .settled n o => some (n, o)
  | _ => none

namespace Host

variable {σ : Type} {h k l : Host σ} {t : Ticket} {n : Nat}

/-- The accepted frames, with their batch flags. -/
abbrev sent (h : Host σ) : List (Frame × Bool) := h.record Note.sent?

/-- The frames that the writer has received. -/
abbrev got (h : Host σ) : List (Frame × Bool) := h.record Note.got?

/-- What callers have heard. -/
abbrev outcomes (h : Host σ) : List (Nat × Outcome) := h.record Note.settled?

theorem record_of_journal (same : k.journal = h.journal) {α : Type} (read : Note → Option α) :
    k.record read = h.record read := by
  rw [record, record, same]

/-! ### Resolving -/

section Deliver

variable (h : Host σ) (d : Option (Completion.Delivery Sink)) (t : Ticket) (o : Outcome)

theorem session_deliver : (h.deliver d).session = h.session := by
  unfold deliver
  split
  · rfl
  · rfl
  · rfl
  · split <;> rfl

theorem ledger_deliver : (h.deliver d).ledger = h.ledger := by
  unfold deliver
  split
  · rfl
  · rfl
  · rfl
  · split <;> rfl

theorem outcomes_deliver : (h.deliver d).outcomes = h.outcomes ++ Books.hearing d := by
  unfold deliver
  split
  · exact (List.append_nil _).symm
  · exact (List.append_nil _).symm
  · exact record_note _ _ _
  · split <;> exact (List.append_nil _).symm

/-- A reading that passes over what callers hear finds nothing new. -/
theorem record_deliver {α : Type} {read : Note → Option α}
    (passes : ∀ n o, read (.settled n o) = none) : (h.deliver d).record read = h.record read := by
  unfold deliver
  split
  · rfl
  · rfl
  · refine (record_note _ _ _).trans ?_
    rw [passes]
    exact List.append_nil _
  · split <;> rfl

theorem session_resolve : (h.resolve t o).session = h.session :=
  session_deliver { h with ledger := _ } _

theorem ledger_resolve : (h.resolve t o).ledger = (h.ledger.resolve t o).1 :=
  ledger_deliver { h with ledger := _ } _

theorem outcomes_resolve :
    (h.resolve t o).outcomes = h.outcomes ++ Books.hearing (h.ledger.resolve t o).2 :=
  outcomes_deliver { h with ledger := _ } _

theorem sent_resolve : (h.resolve t o).sent = h.sent :=
  record_deliver { h with ledger := _ } _ fun _ _ => rfl

theorem got_resolve : (h.resolve t o).got = h.got :=
  record_deliver { h with ledger := _ } _ fun _ _ => rfl

end Deliver

/-! ### Calls that are taken -/

/-- What a call leaves behind that is taken with all of its frames. -/
structure Takes (h k : Host σ) (frames : List (Frame × Bool)) (t : Ticket)
    (queue : List Outbound) (extra : List Split) : Prop where
  outbox : k.session.outbox = some (queue ++ frames.map fun p => ⟨p.1, t, p.2⟩)
  closeSent : k.session.closeSent = frames.any fun p => p.1.op = .close
  ledger : k.ledger.splits = h.ledger.splits ++ extra
  sent : k.sent = h.sent ++ frames
  got : k.got = h.got
  outcomes : k.outcomes = h.outcomes

theorem takes_send (unsent : h.session.closeSent = false) {queue : List Outbound}
    (writer : h.session.outbox = some queue) (f : Frame) (t : Ticket) (batch : Bool) :
    Takes h (h.send f t batch) [(f, batch)] t queue [] := by
  rw [send_of_open h unsent writer]
  exact
    { outbox := rfl
      closeSent := by simp [accept]; rfl
      ledger := (List.append_nil _).symm
      sent := record_note _ _ _
      got := (record_note _ _ _).trans (List.append_nil _)
      outcomes := (record_note _ _ _).trans (List.append_nil _) }

/-- Data frames, one after another. -/
theorem takes_foldl (unsent : h.session.closeSent = false) {queue : List Outbound}
    (writer : h.session.outbox = some queue) {fs : List Frame} (data : ∀ f ∈ fs, f.op ≠ .close)
    (t : Ticket) (batch : Bool) :
    Takes h (fs.foldl (fun h f => h.send f t (batch || !f.fin)) h)
      (fs.map fun f => (f, batch || !f.fin)) t queue [] := by
  induction fs generalizing h queue with
  | nil =>
    exact ⟨by simpa using writer, unsent, (List.append_nil _).symm, (List.append_nil _).symm, rfl,
      rfl⟩
  | cons f fs ih =>
    have first := takes_send unsent writer f t (batch || !f.fin)
    have still : (h.send f t (batch || !f.fin)).session.closeSent = false := by
      rw [first.closeSent]
      simpa using data f (by simp)
    have rest := ih still first.outbox fun g mem => data g (by simp [mem])
    exact
      { outbox := by simpa using rest.outbox
        closeSent := by
          have op := data f (by simp)
          simpa [op] using rest.closeSent
        ledger := rest.ledger.trans (congrArg (· ++ []) first.ledger |>.trans (List.append_nil _))
        sent := by simpa [first.sent] using rest.sent
        got := rest.got.trans first.got
        outcomes := rest.outcomes.trans first.outcomes }

/-! ### Calls that are refused -/

/-- Nothing is accepted any more. -/
def Shut (h : Host σ) : Prop := h.session.closeSent = true ∨ h.session.outbox = none

/-- What a call leaves behind that is refused, where its caller has number `n`. -/
structure Refuses (h k : Host σ) (n : Nat) (frames : List (Frame × Bool)) (extra : Nat) :
    Prop where
  outbox : k.session.outbox = h.session.outbox
  closeSent : k.session.closeSent = (h.session.closeSent || frames.any fun p => p.1.op = .close)
  length : k.ledger.splits.length = h.ledger.splits.length + extra
  ledger : ∀ s < h.ledger.splits.length, k.ledger.splits[s]? = h.ledger.splits[s]?
  sent : k.sent = h.sent
  got : k.got = h.got
  outcomes : ∃ reason, k.outcomes = h.outcomes ++ [(n, .error (.transport reason))]

/-- A frame that is refused has its token resolved, and leaves nothing else behind. -/
theorem send_of_shut (shut : h.Shut) (f : Frame) (t : Ticket) (batch : Bool) :
    ∃ (k : Host σ) (reason : String), h.send f t batch = k.resolve t (.error (.transport reason)) ∧
      k.session.outbox = h.session.outbox ∧
      k.session.closeSent = (h.session.closeSent || decide (f.op = .close)) ∧
      k.ledger = h.ledger ∧ k.journal = h.journal := by
  cases unsent : h.session.closeSent with
  | true => exact ⟨h, _, send_of_closed h unsent, rfl, by simp [unsent], rfl, rfl⟩
  | false =>
    have gone : h.session.outbox = none := by
      rcases shut with sent | gone
      · rw [unsent] at sent
        cases sent
      · exact gone
    exact ⟨h.lose f, _, send_of_gone h unsent gone, rfl, rfl, rfl, rfl⟩

theorem refuses_send (shut : h.Shut) (f : Frame) (n : Nat) (batch : Bool) :
    Refuses h (h.send f (.root (.caller n)) batch) n [(f, batch)] 0 := by
  obtain ⟨k, reason, sent, outbox, closeSent, ledger, journal⟩ :=
    send_of_shut shut f (.root (.caller n)) batch
  have outcomes : k.outcomes = h.outcomes := record_of_journal journal _
  rw [sent]
  exact
    { outbox := (congrArg _ (session_resolve k _ _)).trans outbox
      closeSent := by rw [session_resolve, closeSent]; simp
      length := by rw [ledger_resolve, ← ledger]; rfl
      ledger := fun s _ => by rw [ledger_resolve, ← ledger]; rfl
      sent := (sent_resolve k _ _).trans (record_of_journal journal _)
      got := (got_resolve k _ _).trans (record_of_journal journal _)
      outcomes := ⟨reason, by rw [outcomes_resolve, outcomes]; rfl⟩ }

/-- Data frames are refused one after another; only split `s` learns of them. -/
structure Declines (h k : Host σ) (s : Nat) : Prop where
  outbox : k.session.outbox = h.session.outbox
  closeSent : k.session.closeSent = h.session.closeSent
  length : k.ledger.splits.length = h.ledger.splits.length
  elsewhere : ∀ s' ≠ s, k.ledger.splits[s']? = h.ledger.splits[s']?
  sent : k.sent = h.sent
  got : k.got = h.got

theorem Declines.trans {s : Nat} (a : Declines h k s) (b : Declines k l s) : Declines h l s where
  outbox := b.outbox.trans a.outbox
  closeSent := b.closeSent.trans a.closeSent
  length := b.length.trans a.length
  elsewhere s' other := (b.elsewhere s' other).trans (a.elsewhere s' other)
  sent := b.sent.trans a.sent
  got := b.got.trans a.got

/-- One of several frames: its split waits for one frame less, and the last one brings the
    outcome. -/
theorem declines_send (shut : h.Shut) {f : Frame} (data : f.op ≠ .close) {s left : Nat}
    {failure : Option Failure} (transport : ∀ e, failure = some e → ∃ reason, e = .transport reason)
    (entry : h.ledger.splits[s]? = some ⟨left + 1, failure⟩) (n : Nat) (batch : Bool) :
    let k := h.send f (.part s (.root (.caller n))) batch
    Declines h k s ∧ ∃ reason, k.ledger.splits[s]? = some ⟨left, some (.transport reason)⟩ ∧
      k.outcomes = h.outcomes ++ if left = 0 then [(n, .error (.transport reason))] else [] := by
  obtain ⟨k, reason, sent, outbox, closeSent, ledger, journal⟩ :=
    send_of_shut shut f (.part s (.root (.caller n))) batch
  have outcomes : k.outcomes = h.outcomes := record_of_journal journal _
  obtain ⟨first, firstly⟩ : ∃ first, failure.or (some (.transport reason)) =
      some (.transport first) := by
    cases failure with
    | none => exact ⟨reason, rfl⟩
    | some e =>
      obtain ⟨first, rfl⟩ := transport e rfl
      exact ⟨first, rfl⟩
  have recorded : Split.record ⟨left + 1, failure⟩ (.error (.transport reason)) =
      ⟨left, some (.transport first)⟩ := by
    rw [Split.record_eq, ← firstly]
    rfl
  have resolved := resolve_part (ledger ▸ entry) (.caller n) (.error (.transport reason))
  rw [recorded] at resolved
  dsimp only
  rw [sent]
  refine ⟨⟨?_, ?_, ?_, fun s' other => ?_, ?_, ?_⟩, first, ?_, ?_⟩
  · rw [session_resolve, outbox]
  · rw [session_resolve, closeSent]
    simp [data]
  · rw [ledger_resolve, resolved, ← ledger]
    exact List.length_set
  · rw [ledger_resolve, resolved, ← ledger]
    exact List.getElem?_set_ne other.symm
  · exact (sent_resolve k _ _).trans (record_of_journal journal _)
  · exact (got_resolve k _ _).trans (record_of_journal journal _)
  · rw [ledger_resolve, resolved]
    exact List.getElem?_set_self (ledger ▸ (List.getElem?_eq_some_iff.mp entry).1)
  · rw [outcomes_resolve, resolved, outcomes]
    by_cases last : left = 0 <;> simp [last, Books.hearing, Split.outcome]

/-- All frames of a split that waits for no others. -/
theorem declines_foldl (shut : h.Shut) {fs : List Frame} (frames : fs ≠ [])
    (data : ∀ f ∈ fs, f.op ≠ .close) {s : Nat} {failure : Option Failure}
    (transport : ∀ e, failure = some e → ∃ reason, e = .transport reason)
    (entry : h.ledger.splits[s]? = some ⟨fs.length, failure⟩) (n : Nat) (batch : Bool) :
    let k := fs.foldl (fun h f => h.send f (.part s (.root (.caller n))) (batch || !f.fin)) h
    Declines h k s ∧ ∃ reason, k.outcomes = h.outcomes ++ [(n, .error (.transport reason))] := by
  induction fs generalizing h failure with
  | nil => exact (frames rfl).elim
  | cons f fs ih =>
    obtain ⟨first, reason, entry', heard⟩ :=
      declines_send shut (data f (by simp)) transport entry n (batch || !f.fin)
    rcases eq_or_ne fs [] with rfl | more
    · exact ⟨first, reason, heard⟩
    · have shut' : (h.send f (.part s (.root (.caller n))) (batch || !f.fin)).Shut := by
        rw [Shut, first.closeSent, first.outbox]
        exact shut
      obtain ⟨rest, reason', heard'⟩ := ih shut' more (fun g mem => data g (by simp [mem]))
        (fun e same => ⟨reason, (Option.some.inj same).symm⟩) entry'
      refine ⟨first.trans rest, reason', heard'.trans ?_⟩
      rw [heard, if_neg (by simpa using more), List.append_nil]

/-! ### Messages -/

theorem foldl_zip_replicate {α β γ : Type} (f : γ → α × β → γ) (c : γ) (xs : List α) (y : β) :
    (xs.zip (List.replicate xs.length y)).foldl f c = xs.foldl (fun c x => f c (x, y)) c := by
  induction xs generalizing c with
  | nil => rfl
  | cons x xs ih => exact ih _

/-- The host with one more split, for some parts. -/
def share (h : Host σ) (parts : Nat) : Host σ :=
  { h with ledger := ⟨h.ledger.splits ++ [⟨parts, none⟩]⟩ }

/-- A message is one split, and its frames one after another. -/
theorem sendMessage_eq (h : Host σ) (kind : MessageKind) (chunks : List Bytes) (t : Ticket)
    (batch : Bool) :
    h.sendMessage kind chunks t batch =
      (Assembly.fragments kind chunks).foldl
        (fun k f => k.send f (.part h.ledger.splits.length t) (batch || !f.fin))
        (h.share (Assembly.fragments kind chunks).length) := by
  have nonempty : (Assembly.fragments kind chunks).length ≠ 0 :=
    mt List.length_eq_zero_iff.mp (Assembly.fragments_ne_nil kind chunks)
  rw [sendMessage, Ledger.split, if_neg nonempty]
  exact foldl_zip_replicate _ _ _ _

theorem takes_sendMessage (unsent : h.session.closeSent = false) {queue : List Outbound}
    (writer : h.session.outbox = some queue) (kind : MessageKind) (chunks : List Bytes)
    (t : Ticket) (batch : Bool) :
    Takes h (h.sendMessage kind chunks t batch)
      ((Assembly.fragments kind chunks).map fun f => (f, batch || !f.fin))
      (.part h.ledger.splits.length t) queue
      [⟨(Assembly.fragments kind chunks).length, none⟩] := by
  rw [sendMessage_eq]
  have data (f : Frame) (mem : f ∈ Assembly.fragments kind chunks) : f.op ≠ .close :=
    Assembly.op_of_mem_fragments mem
  have takes := takes_foldl (h := h.share (Assembly.fragments kind chunks).length) unsent writer
    data (.part h.ledger.splits.length t) batch
  exact
    { outbox := takes.outbox
      closeSent := takes.closeSent
      ledger := takes.ledger.trans (List.append_nil _)
      sent := takes.sent
      got := takes.got
      outcomes := takes.outcomes }

theorem refuses_sendMessage (shut : h.Shut) (kind : MessageKind) (chunks : List Bytes) (n : Nat)
    (batch : Bool) :
    Refuses h (h.sendMessage kind chunks (.root (.caller n)) batch) n
      ((Assembly.fragments kind chunks).map fun f => (f, batch || !f.fin)) 1 := by
  rw [sendMessage_eq]
  have untouched (e : Failure) (same : none = some e) : ∃ reason, e = .transport reason :=
    nomatch same
  obtain ⟨declines, heard⟩ := declines_foldl (h := h.share _) shut
    (Assembly.fragments_ne_nil kind chunks) (fun f mem => Assembly.op_of_mem_fragments mem)
    untouched List.getElem?_concat_length n batch
  have data : (((Assembly.fragments kind chunks).map fun f => (f, batch || !f.fin)).any
      fun p => decide (p.1.op = .close)) = false := by
    simpa using fun f mem => Assembly.op_of_mem_fragments mem
  exact
    { outbox := declines.outbox
      closeSent := by rw [data, Bool.or_false]; exact declines.closeSent
      length := declines.length.trans List.length_append
      ledger := fun s old => (declines.elsewhere s old.ne).trans (List.getElem?_append_left old)
      sent := declines.sent
      got := declines.got
      outcomes := heard }

end Host

end WebSocketEngine
