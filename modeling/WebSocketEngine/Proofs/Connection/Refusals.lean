import WebSocketEngine.Proofs.Connection.Strokes

/-!
What a send leaves behind that is refused.

    a CLOSE was sent before    nothing, the session is as it was
    the writer is gone         activity; and if it is a CLOSE, one counts as sent from now on

So as long as the writer is there, a CLOSE counts as sent exactly if one was accepted, and never was
more than one.  Once it is gone, one may count as sent that nobody has accepted (`refused_send_leaves`).
-/

namespace WebSocketEngine

variable {σ : Type}

namespace Host

/-- The CLOSE frames that were accepted. -/
abbrev closes (h : Host σ) : List Frame := h.accepted.filter (·.op = .close)

/-- One CLOSE was accepted and counts as sent, or none was, and one counts as sent only if the writer
    is gone. -/
def Marked (h : Host σ) : Prop :=
  (∃ f, h.closes = [f]) ∧ h.session.closeSent = true ∨
    h.closes = [] ∧ (h.session.closeSent = true → h.session.outbox = none)

variable {h k : Host σ}

theorem Marked.same (marked : h.Marked) (closes : k.closes = h.closes)
    (closeSent : k.session.closeSent = h.session.closeSent)
    (outbox : k.session.outbox = h.session.outbox) : k.Marked := by
  unfold Marked
  rwa [closes, closeSent, outbox]

theorem Marked.unsent (marked : h.Marked) (unsent : h.session.closeSent = false) :
    h.closes = [] := by
  rcases marked with ⟨-, sent⟩ | ⟨without, -⟩
  · cases unsent.symm.trans sent
  · exact without

/-- An entry of nothing that went in or out is none of a frame that was accepted. -/
theorem closes_note (h : Host σ) {n : Note} (quiet : n.frame? = none) :
    (h.note n).closes = h.closes := by
  rw [closes, accepted, record_note, quiet]
  exact congrArg _ (List.append_nil _)

theorem frame?_of_passed? {n : Note} (quiet : n.passed? = none) : n.frame? = none := by
  cases n with
  | accepted f batch => cases quiet
  | handed | called | fetched | settled | served | took | logged => rfl

theorem marked_of_stir (marked : h.Marked) (stir : Stir h k) : k.Marked := by
  cases stir with
  | aside now session journal =>
    have same : k.closes = h.closes := by
      unfold closes accepted record
      rw [journal]
    exact marked.same same (by rw [session]) (by rw [session])
  | note n quiet => exact marked.same (closes_note h (frame?_of_passed? quiet)) rfl rfl
  | configure f => exact marked
  | demand n => exact marked
  | abort e first => exact marked
  | accept out queue unsent writer =>
    have closes : (h.accept out queue).closes = [out.frame].filter (·.op = .close) := by
      rw [Host.closes, accepted, accept, record_note]
      exact (List.filter_append ..).trans (congrArg (· ++ _) (marked.unsent unsent))
    by_cases closing : out.frame.op = .close
    · rw [List.filter_singleton, closing] at closes
      exact .inl ⟨⟨_, closes⟩, decide_eq_true closing⟩
    · rw [List.filter_singleton] at closes
      refine .inr ⟨closes.trans (by simp [closing]), fun sent => ?_⟩
      exact (closing (of_decide_eq_true sent)).elim
  | lose f unsent gone => exact .inr ⟨marked.unsent unsent, fun _ => gone⟩

theorem marked_of_stroke (stroke : Stroke h k) (marked : h.Marked) : k.Marked := by
  cases stroke with
  | stir stir => exact marked_of_stir marked stir
  | clock now => exact marked
  | track tracker => exact marked
  | hand f => exact marked.same (closes_note h rfl) rfl rfl
  | empty queue writer =>
    refine marked.imp_right fun ⟨without, lost⟩ => ⟨without, fun sent => ?_⟩
    cases writer.symm.trans (lost sent)
  | hangUp => exact marked.imp_right fun ⟨without, _⟩ => ⟨without, fun _ => rfl⟩

/-! ### Refusals -/

theorem house_resolve (h : Host σ) (t : Ticket) (o : Outcome) : (h.resolve t o).house = h.house := by
  unfold resolve deliver
  dsimp only
  split
  · rfl
  · rfl
  · rfl
  · split <;> rfl

theorem accepted_resolve (h : Host σ) (t : Ticket) (o : Outcome) :
    (h.resolve t o).accepted = h.accepted :=
  record_deliver { h with ledger := _ } _ fun _ _ => rfl

/-- A frame is refused where a CLOSE was sent before or the writer is gone. -/
theorem send_of_refused {f : Frame} {t : Ticket} {batch : Bool} {e : Failure}
    (refused : (h.session.offer h.now ⟨f, t, batch⟩).2 = some e) :
    e = Session.alreadyClosed ∧ h.session.closeSent = true ∧
        h.send f t batch = h.resolve t (.error e) ∨
      e = Session.writerGone ∧ h.session.closeSent = false ∧ h.session.outbox = none ∧
        h.send f t batch = (h.lose f).resolve t (.error e) := by
  cases sent : h.session.closeSent with
  | true =>
    have closed : e = Session.alreadyClosed := by
      simpa [Session.offer, sent] using refused.symm
    exact .inl ⟨closed, rfl, by rw [send_of_closed h sent, closed]⟩
  | false =>
    cases writer : h.session.outbox with
    | some queue => simp [Session.offer, sent, writer] at refused
    | none =>
      have gone : e = Session.writerGone := by
        simpa [Session.offer, sent, writer] using refused.symm
      exact .inr ⟨gone, rfl, rfl, by rw [send_of_gone h sent writer, gone]⟩

end Host

namespace Connection

theorem marked_establish (supervised : Bool) (memory : σ) (handler : Handler) (id : ConnectionId)
    (config : Config) (interval : Duration) (house : House) :
    (establish supervised memory handler id config interval house).host.Marked := by
  unfold establish
  dsimp only
  split <;> exact .inr ⟨rfl, nofun⟩

/-- After every run a CLOSE counts as sent if just one was accepted; if none was, one counts as sent
    only if the writer is gone.  A frame that is refused then leaves the record of accepted frames and
    all counters as they are.  Where a CLOSE was sent before, it leaves the whole session as it is;
    where the writer is gone, it counts as activity, and a CLOSE as sent. -/
theorem refused_send_leaves (app : Application σ) (supervised : Bool) (memory : σ)
    (handler : Handler) (id : ConnectionId) (config : Config) (interval : Duration) (house : House)
    (bs : List Beat) :
    let h := (beats app (establish supervised memory handler id config interval house) bs).host
    h.Marked ∧
      ∀ f t batch e, (h.session.offer h.now ⟨f, t, batch⟩).2 = some e →
        let k := h.send f t batch
        k.accepted = h.accepted ∧ k.house = h.house ∧
          (e = Session.alreadyClosed ∧ h.session.closeSent = true ∧ k.session = h.session ∨
            e = Session.writerGone ∧ h.session.closeSent = false ∧ h.session.outbox = none ∧
              k.session = { h.session with
                closeSent := f.op = OpCode.close
                tracker := h.session.tracker.touch h.now }) := by
  intro h
  have first := marked_establish supervised memory handler id config interval house
  refine ⟨host_beats (fun _ _ => Host.marked_of_stroke) first bs, fun f t batch e refused => ?_⟩
  rcases Host.send_of_refused refused with ⟨closed, sent, same⟩ | ⟨gone, unsent, without, lost⟩
  · dsimp only
    rw [same]
    exact ⟨Host.accepted_resolve h t _, Host.house_resolve h t _,
      .inl ⟨closed, sent, Host.session_resolve h t _⟩⟩
  · dsimp only
    rw [lost]
    exact ⟨Host.accepted_resolve (h.lose f) t _, Host.house_resolve (h.lose f) t _,
      .inr ⟨gone, unsent, without, Host.session_resolve (h.lose f) t _⟩⟩

/-- A text is refused, five seconds after the writer went away. -/
theorem refused_send_leaves_activity :
    let app : Application Unit := ⟨.none, fun s _ => (s, ⟨[], .succeed⟩), fun _ => false⟩
    let bs : List Beat := [.act .dropWriter, .clock 5000000000 .none]
    let h := (beats app (establish false () .direct ⟨1⟩ .standard .zero .empty) bs).host
    let t : Ticket := .root (.caller 0)
    let k := h.send (.text "hi") t false
    (h.session.offer h.now ⟨.text "hi", t, false⟩).2 = some Session.writerGone ∧
      k.accepted = h.accepted ∧ k.house = h.house ∧
        (Session.writerGone = Session.alreadyClosed ∧ h.session.closeSent = true ∧
            k.session = h.session ∨
          Session.writerGone = Session.writerGone ∧ h.session.closeSent = false ∧
            h.session.outbox = none ∧
            k.session = { h.session with
              closeSent := (Frame.text "hi").op = OpCode.close
              tracker := h.session.tracker.touch h.now }) := by
  intro app bs h t k
  have refused : (h.session.offer h.now ⟨.text "hi", t, false⟩).2 = some Session.writerGone := rfl
  obtain ⟨-, left⟩ :=
    refused_send_leaves app false () .direct ⟨1⟩ .standard .zero .empty bs
  exact ⟨refused, left (.text "hi") t false Session.writerGone refused⟩

/-- A CLOSE that is refused five seconds after the writer went away counts as sent, and as activity. -/
theorem refused_close_counts :
    let app : Application Unit := ⟨.none, fun s _ => (s, ⟨[], .succeed⟩), fun _ => false⟩
    let bs : List Beat := [.act .dropWriter, .clock 5000000000 .none]
    let h := (beats app (establish false () .direct ⟨1⟩ .standard .zero .empty) bs).host
    let f : Frame := .close .normal "bye"
    let t : Ticket := .root (.caller 0)
    let k := h.send f t false
    (h.session.offer h.now ⟨f, t, false⟩).2 = some Session.writerGone ∧
      k.session.closeSent ≠ h.session.closeSent ∧
      k.session.tracker.lastActivity ≠ h.session.tracker.lastActivity ∧
      k.session.closeSent = true ∧ k.accepted = [] := by
  decide

end Connection

end WebSocketEngine
