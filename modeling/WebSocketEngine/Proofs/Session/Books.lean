import WebSocketEngine.Proofs.Completion.End
import WebSocketEngine.Proofs.Host.Sending
import Mathlib.Data.List.Count

/-!
Keeping book of the tokens of calls.

A call gives the session some frames, each with a token; the tokens of one call are alike.  A call
is taken or refused as a whole.  The books are balanced if each token of a call that was taken is
outstanding or has been answered, and the caller has heard of the whole when all are answered and
not before:

    frames  =  outstanding + answered          caller hears:  the first failure among the answers,
                                                              or success

`Balanced.settle` answers one token, and `Balanced.enter` makes a new call.
-/

namespace WebSocketEngine

open Completion (Ledger Token Split failure?)

/-- One call. -/
structure Sent where
  /-- Its frames, with the batch flags. -/
  frames : List (Frame × Bool)
  /-- The token that each of the frames carries. -/
  ticket : Ticket
  /-- The session was open and had a writer. -/
  taken : Bool
  /-- The writer was gone. -/
  gone : Bool

namespace Sent

/-- The outcome of a whole, by the answers to its parts in their order. -/
def verdict (answers : List Outcome) : Outcome :=
  match answers.findSome? failure? with
  | some e => .error e
  | none => .ok ()

theorem verdict_single (o : Outcome) : verdict [o] = o := by
  cases o <;> rfl

theorem verdict_eq_ok_iff {answers : List Outcome} :
    verdict answers = .ok () ↔ ∀ o ∈ answers, o = .ok () := by
  have each (o : Outcome) : failure? o = none ↔ o = .ok () := by
    cases o <;> simp [failure?]
  have none_iff : answers.findSome? failure? = none ↔ ∀ o ∈ answers, o = .ok () := by
    simp only [List.findSome?_eq_none_iff, each]
  rw [← none_iff, verdict]
  cases answers.findSome? failure? <;> simp

/-- What a split has after some answers, and what it has after one more. -/
theorem record_answer (left : Nat) (answers : List Outcome) (o : Outcome) :
    Split.record ⟨left + 1, answers.findSome? failure?⟩ o =
      ⟨left, (answers ++ [o]).findSome? failure?⟩ := by
  rw [List.findSome?_append, Split.record_eq]
  cases o <;> rfl

end Sent

theorem resolve_part {l : Ledger} {s : Nat} {w : Split} (entry : l.splits[s]? = some w)
    (sink : Sink) (o : Outcome) :
    l.resolve (.part s (.root sink)) o = (⟨l.splits.set s (w.record o)⟩,
      if w.remaining = 1 then some (sink, (w.record o).outcome) else none) := by
  rw [Ledger.resolve, Ledger.record, entry]
  by_cases last : w.remaining = 1 <;> simp only [last, if_true, if_false, Ledger.resolve]

/-- Which tokens are outstanding, which were answered and how, and what the callers have heard. -/
structure Books where
  calls : List Sent
  ledger : Ledger
  outstanding : List Ticket
  answers : List (Ticket × Outcome)
  heard : List (Nat × Outcome)

namespace Books

/-- The answers to tokens like this one. -/
def answersTo (b : Books) (t : Ticket) : List Outcome :=
  b.answers.filterMap fun a => if a.1 = t then some a.2 else none

/-- What a caller has heard. -/
def heardBy (b : Books) (n : Nat) : List Outcome :=
  b.heard.filterMap fun x => if x.1 = n then some x.2 else none

/-- The token of a call leads to its caller, alone or through a split of its own. -/
def Leads (ledger : Ledger) (n : Nat) (c : Sent) : Prop :=
  c.ticket = .root (.caller n) ∧ c.frames.length = 1 ∨
    ∃ s, c.ticket = .part s (.root (.caller n)) ∧ s < ledger.splits.length ∧ c.frames ≠ []

/-- All that is known of a call that was taken. -/
structure Accounts (b : Books) (n : Nat) (c : Sent) : Prop where
  counted : b.outstanding.count c.ticket + (b.answersTo c.ticket).length = c.frames.length
  ledger : ∀ s t, c.ticket = .part s t → b.ledger.splits[s]? =
    some ⟨b.outstanding.count c.ticket, (b.answersTo c.ticket).findSome? failure?⟩
  heard : b.heardBy n =
    if b.outstanding.count c.ticket = 0 then [Sent.verdict (b.answersTo c.ticket)] else []

structure Balanced (b : Books) : Prop where
  leads : ∀ (n : Nat) (c : Sent), b.calls[n]? = some c → Leads b.ledger n c
  apart : ∀ (n m : Nat) (c d : Sent) (s : Nat) (t u : Ticket), b.calls[n]? = some c →
    b.calls[m]? = some d → c.ticket = .part s t → d.ticket = .part s u → n = m
  known : ∀ t ∈ b.outstanding, ∃ (n : Nat) (c : Sent),
    b.calls[n]? = some c ∧ c.taken = true ∧ t = c.ticket
  answered : ∀ a ∈ b.answers, ∃ (n : Nat) (c : Sent), b.calls[n]? = some c ∧ a.1 = c.ticket
  heard : ∀ x ∈ b.heard, x.1 < b.calls.length
  accounts : ∀ (n : Nat) (c : Sent), b.calls[n]? = some c → c.taken = true → b.Accounts n c
  refused : ∀ (n : Nat) (c : Sent), b.calls[n]? = some c → c.taken = false →
    ∃ reason, b.heardBy n = [.error (.transport reason)]

/-! ### Tokens are told apart -/

theorem Leads.sink {ledger : Ledger} {n : Nat} {c : Sent} (leads : Leads ledger n c) :
    c.ticket.sink = .caller n := by
  rcases leads with ⟨root, -⟩ | ⟨s, part, -⟩
  · rw [root]
    rfl
  · rw [part]
    rfl

theorem Leads.frames {ledger : Ledger} {n : Nat} {c : Sent} (leads : Leads ledger n c) :
    c.frames.length ≠ 0 := by
  rcases leads with ⟨-, single⟩ | ⟨s, -, -, frames⟩
  · omega
  · exact mt List.length_eq_zero_iff.mp frames

variable {b : Books} {n m : Nat} {c d : Sent} {t : Ticket} {o : Outcome}

/-- The tokens of one call are not those of another. -/
theorem Balanced.eq_of_ticket (balanced : b.Balanced) (call : b.calls[n]? = some c)
    (call' : b.calls[m]? = some d) (same : c.ticket = d.ticket) : n = m := by
  have first := (balanced.leads n c call).sink
  rw [same, (balanced.leads m d call').sink] at first
  exact (Sink.caller.inj first).symm

/-- A split that a call has is there. -/
theorem Balanced.lt_splits (balanced : b.Balanced) (call : b.calls[n]? = some c) {s : Nat}
    (part : c.ticket = .part s t) : s < b.ledger.splits.length := by
  rcases balanced.leads n c call with ⟨root, -⟩ | ⟨s', part', bound, -⟩
  · cases root.symm.trans part
  · cases part'.symm.trans part
    exact bound

/-- Nothing has changed for a call. -/
theorem Accounts.same (accounts : b.Accounts n c) {b' : Books}
    (count : b'.outstanding.count c.ticket = b.outstanding.count c.ticket)
    (answers : b'.answersTo c.ticket = b.answersTo c.ticket)
    (ledger : ∀ s t, c.ticket = .part s t → b'.ledger.splits[s]? = b.ledger.splits[s]?)
    (heard : b'.heardBy n = b.heardBy n) : b'.Accounts n c where
  counted := by rw [count, answers, accounts.counted]
  ledger s t part := by rw [ledger s t part, accounts.ledger s t part, count, answers]
  heard := by rw [heard, accounts.heard, count, answers]

/-! ### One token is answered -/

/-- What a caller hears of a delivery. -/
def hearing : Option (Completion.Delivery Sink) → List (Nat × Outcome)
  | some (.caller n, o) => [(n, o)]
  | some (.silent, _) | some (.driver _, _) | none => []

/-- The books after an answer to a token, where `rest` is what remains outstanding. -/
def settle (b : Books) (t : Ticket) (rest : List Ticket) (o : Outcome) : Books :=
  { b with
    ledger := (b.ledger.resolve t o).1
    outstanding := rest
    answers := b.answers ++ [(t, o)]
    heard := b.heard ++ hearing (b.ledger.resolve t o).2 }

theorem answersTo_settle (b : Books) (t u : Ticket) (rest : List Ticket) (o : Outcome) :
    (b.settle t rest o).answersTo u = b.answersTo u ++ if t = u then [o] else [] := by
  by_cases same : t = u <;> simp [answersTo, settle, same]

theorem heardBy_settle (b : Books) (t : Ticket) (rest : List Ticket) (o : Outcome) (n : Nat) :
    (b.settle t rest o).heardBy n =
      b.heardBy n ++ (hearing (b.ledger.resolve t o).2).filterMap fun x =>
        if x.1 = n then some x.2 else none := by
  simp [heardBy, settle]

/-- The answer to a token settles its call if it was the last one, and nothing but that. -/
theorem Balanced.resolve (balanced : b.Balanced) {rest : List Ticket}
    (perm : b.outstanding.Perm (c.ticket :: rest)) (call : b.calls[n]? = some c)
    (taken : c.taken = true) (o : Outcome) :
    (∀ s, (∀ t, c.ticket ≠ .part s t) →
      (b.ledger.resolve c.ticket o).1.splits[s]? = b.ledger.splits[s]?) ∧
    (b.ledger.resolve c.ticket o).1.splits.length = b.ledger.splits.length ∧
    (∀ s t, c.ticket = .part s t → (b.ledger.resolve c.ticket o).1.splits[s]? =
      some ⟨rest.count c.ticket, (b.answersTo c.ticket ++ [o]).findSome? failure?⟩) ∧
    hearing (b.ledger.resolve c.ticket o).2 =
      if rest.count c.ticket = 0 then [(n, Sent.verdict (b.answersTo c.ticket ++ [o]))]
      else [] := by
  have accounts := balanced.accounts n c call taken
  have count : b.outstanding.count c.ticket = rest.count c.ticket + 1 := by
    rw [perm.count_eq, List.count_cons_self]
  have counted := accounts.counted
  rcases balanced.leads n c call with ⟨root, single⟩ | ⟨s, part, bound, -⟩
  · have last : rest.count c.ticket = 0 := by omega
    have first : b.answersTo c.ticket = [] := List.length_eq_zero_iff.mp (by omega)
    rw [if_pos last, first, List.nil_append, Sent.verdict_single, root]
    exact ⟨fun _ _ => rfl, rfl, fun _ _ part => (nomatch part), rfl⟩
  · have entry := accounts.ledger s _ part
    rw [count] at entry
    rw [part, resolve_part entry, Sent.record_answer, ← part]
    refine ⟨fun s' other => ?_, List.length_set, fun s' t part' => ?_, ?_⟩
    · refine List.getElem?_set_ne ?_
      rintro rfl
      exact other _ part
    · cases part.symm.trans part'
      exact List.getElem?_set_self bound
    · by_cases last : rest.count c.ticket = 0
      · rw [if_pos last, if_pos (by simp [last])]
        rfl
      · rw [if_neg last, if_neg (by simpa using last)]
        rfl

theorem Balanced.settle (balanced : b.Balanced) {rest : List Ticket}
    (perm : b.outstanding.Perm (t :: rest)) (o : Outcome) : (b.settle t rest o).Balanced := by
  obtain ⟨n, c, call, taken, rfl⟩ := balanced.known t (perm.mem_iff.mpr (List.mem_cons_self))
  obtain ⟨elsewhere, length, entry, hears⟩ := balanced.resolve perm call taken o
  have accounts := balanced.accounts n c call taken
  have count (u : Ticket) : b.outstanding.count u =
      rest.count u + if c.ticket = u then 1 else 0 := by
    rw [perm.count_eq, List.count_cons]
    simp
  have heard_other (m) (other : m ≠ n) : (b.settle c.ticket rest o).heardBy m = b.heardBy m := by
    rw [heardBy_settle, hears]
    split <;> simp [other.symm]
  refine
    { leads := fun m d call' => ?_
      apart := balanced.apart
      known := fun u mem => balanced.known u (perm.mem_iff.mpr (List.mem_cons_of_mem _ mem))
      answered := fun a mem => ?_
      heard := fun x mem => ?_
      accounts := fun m d call' taken' => ?_
      refused := fun m d call' untaken => ?_ }
  · exact (balanced.leads m d call').imp_right fun ⟨s, part, bound, frames⟩ =>
      ⟨s, part, bound.trans_eq length.symm, frames⟩
  · rcases List.mem_append.mp mem with old | fresh
    · exact balanced.answered a old
    · rw [List.mem_singleton.mp fresh]
      exact ⟨n, c, call, rfl⟩
  · rcases List.mem_append.mp mem with old | fresh
    · exact balanced.heard x old
    · rw [hears] at fresh
      split at fresh
      · rw [List.mem_singleton.mp fresh]
        exact (List.getElem?_eq_some_iff.mp call).1
      · cases fresh
  · by_cases same : m = n
    · subst same
      cases call.symm.trans call'
      have counted := accounts.counted
      rw [count, if_pos rfl] at counted
      refine ⟨?_, fun s t part => ?_, ?_⟩
      · rw [answersTo_settle, if_pos rfl, List.length_append, List.length_singleton]
        show rest.count _ + _ = _
        omega
      · rw [answersTo_settle, if_pos rfl]
        exact entry s t part
      · rw [heardBy_settle, answersTo_settle, if_pos rfl, hears, accounts.heard, count, if_pos rfl,
          if_neg (by omega), List.nil_append]
        show _ = if rest.count c.ticket = 0 then _ else _
        split <;> simp
    · have distinct : c.ticket ≠ d.ticket := fun eq =>
        same (balanced.eq_of_ticket call' call eq.symm)
      refine (balanced.accounts m d call' taken').same ?_ ?_ (fun s t part => ?_)
        (heard_other m same)
      · rw [count d.ticket, if_neg distinct, Nat.add_zero]
        rfl
      · rw [answersTo_settle, if_neg distinct, List.append_nil]
      · refine elsewhere s fun u part' => ?_
        exact same (balanced.apart m n d c s t u call' call part part')
  · obtain ⟨reason, heard⟩ := balanced.refused m d call' untaken
    refine ⟨reason, (heard_other m ?_).trans heard⟩
    rintro rfl
    cases call.symm.trans call'
    rw [taken] at untaken
    cases untaken

/-! ### One more call -/

/-- The books with one more call, whose tokens are outstanding, and what its caller hears at
    once. -/
def enter (b : Books) (c : Sent) (ledger : Ledger) (tokens : Nat) (os : List Outcome) : Books :=
  { b with
    calls := b.calls ++ [c]
    ledger
    outstanding := List.replicate tokens c.ticket ++ b.outstanding
    heard := b.heard ++ os.map (b.calls.length, ·) }

theorem heardBy_enter (b : Books) (c : Sent) (ledger : Ledger) (tokens : Nat) (os : List Outcome)
    (n : Nat) : (b.enter c ledger tokens os).heardBy n =
      b.heardBy n ++ if b.calls.length = n then os else [] := by
  by_cases same : b.calls.length = n <;> simp [heardBy, enter, same, List.filterMap_map]

section Enter

variable {ledger : Ledger}

/-- The tokens of a new call are new. -/
theorem Balanced.ticket_ne (balanced : b.Balanced) (leads : Leads ledger b.calls.length c)
    (call : b.calls[n]? = some d) : c.ticket ≠ d.ticket := by
  intro same
  have sinks := leads.sink
  rw [same, (balanced.leads n d call).sink] at sinks
  exact (List.getElem?_eq_some_iff.mp call).1.ne (Sink.caller.inj sinks)

/-- Nothing is booked yet for a new call. -/
theorem Balanced.unbooked (balanced : b.Balanced) (leads : Leads ledger b.calls.length c) :
    b.outstanding.count c.ticket = 0 ∧ b.answersTo c.ticket = [] ∧
      b.heardBy b.calls.length = [] := by
  refine ⟨List.count_eq_zero.mpr fun mem => ?_,
    List.filterMap_eq_nil_iff.mpr fun a mem => if_neg fun same => ?_,
    List.filterMap_eq_nil_iff.mpr fun x mem => if_neg (balanced.heard x mem).ne⟩
  · obtain ⟨n, d, call, -, same⟩ := balanced.known _ mem
    exact balanced.ticket_ne leads call same
  · obtain ⟨n, d, call, eq⟩ := balanced.answered a mem
    exact balanced.ticket_ne leads call (same.symm.trans eq)

/-- What the new call has in the books. -/
theorem Balanced.enter_new (balanced : b.Balanced) (leads : Leads ledger b.calls.length c)
    (tokens : Nat) (os : List Outcome) :
    (b.enter c ledger tokens os).outstanding.count c.ticket = tokens ∧
      (b.enter c ledger tokens os).answersTo c.ticket = [] ∧
        (b.enter c ledger tokens os).heardBy b.calls.length = os := by
  obtain ⟨unknown, unanswered, unheard⟩ := balanced.unbooked leads
  refine ⟨?_, unanswered, ?_⟩
  · rw [Books.enter, List.count_append, List.count_replicate_self, unknown, Nat.add_zero]
  · rw [heardBy_enter, unheard, if_pos rfl, List.nil_append]

/-- What the other calls have is still the same. -/
theorem Balanced.enter_old (balanced : b.Balanced) (leads : Leads ledger b.calls.length c)
    (tokens : Nat) (os : List Outcome) (call : b.calls[n]? = some d) :
    (b.enter c ledger tokens os).calls[n]? = some d ∧
      (b.enter c ledger tokens os).outstanding.count d.ticket = b.outstanding.count d.ticket ∧
        (b.enter c ledger tokens os).heardBy n = b.heardBy n := by
  have lt : n < b.calls.length := (List.getElem?_eq_some_iff.mp call).1
  have distinct := balanced.ticket_ne leads call
  refine ⟨?_, ?_, ?_⟩
  · rw [Books.enter, List.getElem?_append_left lt, call]
  · rw [Books.enter, List.count_append, List.count_replicate, if_neg (by simpa using distinct),
      Nat.zero_add]
  · rw [heardBy_enter, if_neg lt.ne', List.append_nil]

/-- A new call: it is taken with all of its tokens, or refused at once. -/
theorem Balanced.enter (balanced : b.Balanced) (tokens : Nat) (os : List Outcome)
    (length : b.ledger.splits.length ≤ ledger.splits.length)
    (kept : ∀ s < b.ledger.splits.length, ledger.splits[s]? = b.ledger.splits[s]?)
    (leads : Leads ledger b.calls.length c)
    (fresh : ∀ s t, c.ticket = .part s t → b.ledger.splits.length ≤ s)
    (taken : c.taken = true → tokens = c.frames.length ∧ os = [] ∧
      ∀ s t, c.ticket = .part s t → ledger.splits[s]? = some ⟨c.frames.length, none⟩)
    (refused : c.taken = false → tokens = 0 ∧ ∃ reason, os = [.error (.transport reason)]) :
    (b.enter c ledger tokens os).Balanced := by
  have old {n : Nat} {d : Sent} (call : b.calls[n]? = some d) :=
    balanced.enter_old leads tokens os call
  obtain ⟨count, answers, heard⟩ := balanced.enter_new leads tokens os
  refine
    { leads := fun n d call => ?_
      apart := fun n m d e s t u call call' part part' => ?_
      known := fun t mem => ?_
      answered := fun a mem => ?_
      heard := fun x mem => ?_
      accounts := fun n d call taken' => ?_
      refused := fun n d call untaken => ?_ }
  · rcases Completion.getElem?_concat_cases call with before | ⟨rfl, rfl⟩
    · exact (balanced.leads n d before).imp_right fun ⟨s, part, bound, frames⟩ =>
        ⟨s, part, bound.trans_le length, frames⟩
    · exact leads
  · rcases Completion.getElem?_concat_cases call with before | ⟨rfl, rfl⟩ <;>
      rcases Completion.getElem?_concat_cases call' with before' | ⟨rfl, rfl⟩
    · exact balanced.apart n m d e s t u before before' part part'
    · exact absurd (balanced.lt_splits before part) (Nat.not_lt.mpr (fresh s u part'))
    · exact absurd (balanced.lt_splits before' part') (Nat.not_lt.mpr (fresh s t part))
    · rfl
  · rcases List.mem_append.mp mem with mine | before
    · obtain ⟨nonempty, rfl⟩ := List.mem_replicate.mp mine
      refine ⟨b.calls.length, c, List.getElem?_concat_length, ?_, rfl⟩
      by_contra untaken
      exact nonempty (refused (by simpa using untaken)).1
    · obtain ⟨n, d, call, taken, same⟩ := balanced.known t before
      exact ⟨n, d, (old call).1, taken, same⟩
  · obtain ⟨n, d, call, same⟩ := balanced.answered a mem
    exact ⟨n, d, (old call).1, same⟩
  · show x.1 < (b.calls ++ [c]).length
    rw [List.length_append, List.length_singleton]
    rcases List.mem_append.mp mem with before | mine
    · exact (balanced.heard x before).trans (Nat.lt_succ_self _)
    · obtain ⟨o, -, rfl⟩ := List.mem_map.mp mine
      exact Nat.lt_succ_self _
  · rcases Completion.getElem?_concat_cases call with before | ⟨rfl, rfl⟩
    · obtain ⟨-, count, heard⟩ := old before
      exact (balanced.accounts n d before taken').same count rfl
        (fun s t part => kept s (balanced.lt_splits before part)) heard
    · obtain ⟨all, silent, entry⟩ := taken taken'
      refine ⟨?_, fun s t part => ?_, ?_⟩
      · rw [count, answers, all]
        rfl
      · rw [count, answers, all]
        exact entry s t part
      · rw [count, heard, silent, if_neg (all.trans_ne leads.frames)]
  · rcases Completion.getElem?_concat_cases call with before | ⟨rfl, rfl⟩
    · obtain ⟨reason, heard⟩ := balanced.refused n d before untaken
      exact ⟨reason, (old before).2.2.trans heard⟩
    · obtain ⟨-, reason, silent⟩ := refused untaken
      exact ⟨reason, heard.trans silent⟩

end Enter

theorem Balanced.perm (balanced : b.Balanced) (outstanding : List Ticket)
    (perm : b.outstanding.Perm outstanding) : { b with outstanding }.Balanced :=
  { leads := balanced.leads
    apart := balanced.apart
    known := fun t mem => balanced.known t (perm.mem_iff.mpr mem)
    answered := balanced.answered
    heard := balanced.heard
    accounts := fun n c call taken =>
      (balanced.accounts n c call taken).same (perm.count_eq _).symm rfl (fun _ _ _ => rfl) rfl
    refused := balanced.refused }

end Books

end WebSocketEngine
