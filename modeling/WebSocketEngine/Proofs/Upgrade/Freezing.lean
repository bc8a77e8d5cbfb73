import WebSocketEngine.Proofs.Upgrade.Writing

/-!
A response, written to one field at a time.

    look | look | ... | store | store | ...      committed := true
    `-- may break off --'`-- cannot fail --'

Each write is taken apart here into what it looks at and what it stores.  Work that breaks off keeps
what it had stored by then, so that a write is all or nothing only because everything it looks at
comes before the first thing that it stores (`Atomic`).  Taken together, the pieces do what is done
in one go elsewhere (`perform_eq_write`), and nothing is stored once a write has committed the
response (`frozen_from_commit_on`).
-/

namespace WebSocketEngine.Upgrade.Response

open Http (FieldName FieldValue Status)

/-! ### Work on a response -/

/-- Something done to a response, with a result.  Where it breaks off, what it stored stays. -/
abbrev Work (α : Type) := EStateM Fault Response α

namespace Work

variable {α β : Type}

/-- Goes on only if the response is open. -/
def ensureOpen : Work Unit := do
  let r ← get
  if r.committed then throw (.committed r.status)

/-- Goes on only with a value that is allowed. -/
def checked : Except Fault α → Work α
  | .ok a => pure a
  | .error e => throw e

def storeStatus (s : Status) : Work Unit := modify fun r => { r with status := s }

def storeReason (reason : String) : Work Unit := modify fun r => { r with reason := some reason }

def storeHeader (n : FieldName) (v : FieldValue) : Work Unit :=
  modify fun r => { r with headers := r.headers.insert n v }

/-- Stores a header that may be left out. -/
def storeHeader? (n : FieldName) : Option FieldValue → Work Unit
  | some v => storeHeader n v
  | none => pure ()

def storeCommitted : Work Unit := modify fun r => { r with committed := true }

/-- Checks a value and stores it under a name. -/
def setHeader (n : FieldName) (value : String) : Work Unit := do
  ensureOpen
  let v ← checked (valueFor n value)
  storeHeader n v

/-! ### What the pieces do -/

theorem run_bind_of_ok {x : Work α} {f : α → Work β} {r r' : Response} {a : α}
    (done : x.run r = .ok a r') : (x >>= f).run r = (f a).run r' := by
  simp only [EStateM.run, bind, EStateM.bind] at *
  rw [done]

theorem run_bind_of_error {x : Work α} {f : α → Work β} {r r' : Response} {e : Fault}
    (failed : x.run r = .error e r') : (x >>= f).run r = .error e r' := by
  simp only [EStateM.run, bind, EStateM.bind] at *
  rw [failed]

theorem run_ensureOpen (r : Response) :
    ensureOpen.run r =
      (if r.committed = true then throw (.committed r.status) else pure () : Work Unit).run r := rfl

theorem run_ensureOpen_of_open {r : Response} (unsent : r.committed = false) :
    ensureOpen.run r = .ok () r := by
  rw [run_ensureOpen, unsent]
  rfl

theorem run_ensureOpen_of_committed {r : Response} (sent : r.committed = true) :
    ensureOpen.run r = .error (.committed r.status) r := by
  rw [run_ensureOpen, if_pos sent]
  rfl

/-- How work ends that comes to a response, or to none and leaves the one there is. -/
def ending (r : Response) : Written → EStateM.Result Fault Response Unit
  | .ok next => .ok () next
  | .error e => .error e r

/-- What starts by asking for an open response is a write that is refused otherwise. -/
theorem run_guarded {f : Unit → Work Unit} {r : Response} {write : Written}
    (then_run : (f ()).run r = ending r write) :
    (ensureOpen >>= f).run r = ending r (r.whileOpen write) := by
  cases sent : r.committed with
  | false =>
    rw [run_bind_of_ok (run_ensureOpen_of_open sent), then_run]
    simp [whileOpen, sent]
  | true =>
    rw [run_bind_of_error (run_ensureOpen_of_committed sent)]
    simp [whileOpen, sent, ending]

/-! ### Looking and storing -/

/-- The response is the same afterwards, whether the work was done or broke off. -/
def Looks (x : Work α) : Prop :=
  ∀ r, (∃ a, x.run r = .ok a r) ∨ ∃ e, x.run r = .error e r

/-- The work is always done. -/
def Sure (x : Work α) : Prop := ∀ r, ∃ a r', x.run r = .ok a r'

/-- Work that breaks off has stored nothing. -/
def Atomic (x : Work α) : Prop := ∀ r e r', x.run r = .error e r' → r' = r

theorem looks_ensureOpen : Looks ensureOpen := by
  intro r
  cases sent : r.committed with
  | false => exact .inl ⟨(), run_ensureOpen_of_open sent⟩
  | true => exact .inr ⟨.committed r.status, run_ensureOpen_of_committed sent⟩

theorem looks_checked : ∀ value : Except Fault α, Looks (checked value)
  | .ok a, _ => .inl ⟨a, rfl⟩
  | .error e, _ => .inr ⟨e, rfl⟩

theorem sure_modify (change : Response → Response) : Sure (modify change : Work Unit) := by
  intro r
  exact ⟨(), change r, rfl⟩

theorem sure_storeHeader? (n : FieldName) : ∀ v, Sure (storeHeader? n v)
  | some _ => sure_modify _
  | none => by
    intro r
    exact ⟨(), r, rfl⟩

theorem sure_bind {x : Work α} {f : α → Work β} (sure : Sure x) (then_sure : ∀ a, Sure (f a)) :
    Sure (x >>= f) := by
  intro r
  obtain ⟨a, r', done⟩ := sure r
  rw [run_bind_of_ok done]
  exact then_sure a r'

theorem atomic_of_sure {x : Work α} (sure : Sure x) : Atomic x := by
  intro r e r' failed
  obtain ⟨a, r'', done⟩ := sure r
  rw [done] at failed
  cases failed

/-- It is the order that makes work atomic: first it looks, then it does what is atomic. -/
theorem atomic_bind {x : Work α} {f : α → Work β} (looks : Looks x)
    (then_atomic : ∀ a, Atomic (f a)) : Atomic (x >>= f) := by
  intro r e r' failed
  rcases looks r with ⟨a, done⟩ | ⟨e', broke⟩
  · rw [run_bind_of_ok done] at failed
    exact then_atomic a r e r' failed
  · rw [run_bind_of_error broke] at failed
    cases failed
    rfl

theorem atomic_setHeader (n : FieldName) (value : String) : Atomic (setHeader n value) := by
  refine atomic_bind looks_ensureOpen fun _ => ?_
  refine atomic_bind (looks_checked _) fun _ => ?_
  exact atomic_of_sure (sure_modify _)

theorem run_setHeader (n : FieldName) (value : String) (r : Response) :
    (setHeader n value).run r = ending r (r.setHeader n value) := by
  refine run_guarded ?_
  cases valueFor n value <;> rfl

end Work

/-! ### Writes, piece by piece -/

open Work in
/-- The pieces of a write, in the order in which they come. -/
def Write.work : Write → Work Unit
  | .status s => do
    ensureOpen
    storeStatus s
  | .header n value => Work.setHeader n value
  | .subprotocol name => Work.setHeader .webSocketProtocol name
  | .extensions names => Work.setHeader .webSocketExtensions (joined names)
  | .accept p es => do
    ensureOpen
    let v ← checked (valueFor? .webSocketProtocol p)
    let w ← checked (valueFor? .webSocketExtensions (extensionsValue es))
    storeStatus .switchingProtocols
    storeHeader? .webSocketProtocol v
    storeHeader? .webSocketExtensions w
    storeCommitted
  | .error s reason => do
    ensureOpen
    storeStatus s
    storeReason reason
    storeCommitted
  | .commit => storeCommitted

/-- The response as the pieces of a write leave it. -/
def perform (r : Response) (w : Write) : Response × Result :=
  match w.work.run r with
  | .ok () next => (next, .ok ())
  | .error e next => (next, .error e)

def performAll (r : Response) : List Write → Response × List Result
  | [] => (r, [])
  | w :: ws =>
    let next := r.perform w
    let rest := next.1.performAll ws
    (rest.1, next.2 :: rest.2)

theorem Write.atomic_work (w : Write) : w.work.Atomic := by
  cases w with
  | status s =>
    exact Work.atomic_bind Work.looks_ensureOpen fun _ => Work.atomic_of_sure (Work.sure_modify _)
  | header n value => exact Work.atomic_setHeader n value
  | subprotocol name => exact Work.atomic_setHeader _ name
  | extensions names => exact Work.atomic_setHeader _ _
  | accept p es =>
    -- Both values are checked before the first of the four fields is stored.
    refine Work.atomic_bind Work.looks_ensureOpen fun _ => ?_
    refine Work.atomic_bind (Work.looks_checked _) fun v => ?_
    refine Work.atomic_bind (Work.looks_checked _) fun w => Work.atomic_of_sure ?_
    refine Work.sure_bind (Work.sure_modify _) fun _ => ?_
    refine Work.sure_bind (Work.sure_storeHeader? _ v) fun _ => ?_
    exact Work.sure_bind (Work.sure_storeHeader? _ w) fun _ => Work.sure_modify _
  | error s reason =>
    refine Work.atomic_bind Work.looks_ensureOpen fun _ => Work.atomic_of_sure ?_
    refine Work.sure_bind (Work.sure_modify _) fun _ => ?_
    exact Work.sure_bind (Work.sure_modify _) fun _ => Work.sure_modify _
  | commit => exact Work.atomic_of_sure (Work.sure_modify _)

/-- A write that fails leaves the response as it was. -/
theorem perform_of_error {r : Response} {w : Write} {e : Fault}
    (failed : (r.perform w).2 = .error e) : (r.perform w).1 = r := by
  rw [perform] at *
  cases run : w.work.run r with
  | ok u next =>
    rw [run] at failed
    cases failed
  | error e' next => exact w.atomic_work r e' next run

/-- The pieces do what is done in one go. -/
theorem Write.run_work (w : Write) (r : Response) : w.work.run r = Work.ending r (r.attempt w) := by
  cases w with
  | status s | error s reason => exact Work.run_guarded rfl
  | header n value => exact Work.run_setHeader n value r
  | subprotocol name => exact Work.run_setHeader _ name r
  | extensions names => exact Work.run_setHeader _ _ r
  | accept p es =>
    refine Work.run_guarded ?_
    rw [← extensionsValue]
    cases valueFor? .webSocketProtocol p with
    | error e => rfl
    | ok v =>
      cases valueFor? .webSocketExtensions (extensionsValue es) with
      | error e => rfl
      | ok w => cases v <;> cases w <;> rfl
  | commit => rfl

theorem perform_eq_write (r : Response) (w : Write) : r.perform w = r.write w := by
  rw [perform, write, w.run_work]
  cases r.attempt w <;> rfl

theorem performAll_eq_writeAll (r : Response) (ws : List Write) :
    r.performAll ws = r.writeAll ws := by
  induction ws generalizing r with
  | nil => rfl
  | cons w ws ih =>
    simp only [performAll, writeAll, ih, perform_eq_write]

/-! ### Committing -/

/-- A write that commits the response, unless it fails. -/
def Write.commits : Write → Bool
  | .accept _ _ | .error _ _ | .commit => true
  | .status _ | .header _ _ | .subprotocol _ | .extensions _ => false

/-- What comes of a write to a response that was committed with a status.  To commit it once more is
    no failure. -/
def Write.tooLate (s : Status) : Write → Result
  | .commit => .ok ()
  | .status _ | .header _ _ | .subprotocol _ | .extensions _ | .accept _ _ | .error _ _ =>
    .error (.committed s)

theorem perform_of_committed {r : Response} (sent : r.committed = true) (w : Write) :
    r.perform w = (r, w.tooLate r.status) := by
  have refused : ∀ write, r.whileOpen write = .error (.committed r.status) := by
    intro write
    rw [whileOpen, if_pos sent]
  have same : (r.perform w).1 = r := by
    rw [perform_eq_write]
    exact write_of_committed sent w
  refine Prod.ext same ?_
  rw [perform_eq_write]
  cases w with
  | commit => rfl
  | status _ | header _ _ | subprotocol _ | extensions _ | accept _ _ | error _ _ =>
    simp only [write, attempt, setStatus, setHeader, setSubprotocol, setExtensions, accept,
      sendError, refused, Write.tooLate]

theorem performAll_of_committed {r : Response} (sent : r.committed = true) (ws : List Write) :
    r.performAll ws = (r, ws.map (·.tooLate r.status)) := by
  induction ws with
  | nil => rfl
  | cons w ws ih => simp only [performAll, perform_of_committed sent, ih, List.map_cons]

/-- Of an open response, a write that succeeds commits it or leaves it open, by its kind. -/
theorem committed_of_attempt {r next : Response} {w : Write} (unsent : r.committed = false)
    (attempted : r.attempt w = .ok next) : next.committed = w.commits := by
  have whileOpen_eq : ∀ write, r.whileOpen write = write := by
    intro write
    simp [whileOpen, unsent]
  have set : ∀ {n value}, r.setHeader n value = .ok next → next.committed = false := by
    intro n value set
    rw [setHeader, whileOpen_eq] at set
    cases written : valueFor n value with
    | error e =>
      rw [written] at set
      cases set
    | ok v =>
      rw [written] at set
      cases set
      exact unsent
  cases w with
  | status s =>
    rw [attempt, setStatus, whileOpen_eq] at attempted
    cases attempted
    exact unsent
  | header n value => exact set attempted
  | subprotocol name => exact set attempted
  | extensions names => exact set attempted
  | accept p es => exact (told_accept attempted).1
  | error s reason =>
    rw [attempt, sendError, whileOpen_eq] at attempted
    cases attempted
    rfl
  | commit =>
    cases attempted
    rfl

theorem committed_perform (r : Response) (w : Write) :
    (r.perform w).1.committed = (r.committed || w.commits && (r.perform w).2.isOk) := by
  cases sent : r.committed with
  | true => rw [perform_of_committed sent, sent, Bool.true_or]
  | false =>
    rw [perform_eq_write, write, Bool.false_or]
    cases attempted : r.attempt w with
    | error e => simpa [Except.isOk, Except.toBool] using sent
    | ok next => simpa [Except.isOk, Except.toBool] using committed_of_attempt sent attempted

theorem performAll_append (r : Response) (ws vs : List Write) :
    r.performAll (ws ++ vs) =
      (((r.performAll ws).1.performAll vs).1,
        (r.performAll ws).2 ++ ((r.performAll ws).1.performAll vs).2) := by
  induction ws generalizing r with
  | nil => rfl
  | cons w ws ih => simp only [List.cons_append, performAll, ih]

/-- A write that fails changes nothing, whatever was written before.  Once a write has committed the
    response, it stays as that write left it: whatever comes after is told that it is too late, with
    the status that was committed. -/
theorem frozen_from_commit_on (r : Response) (before : List Write) (w : Write)
    (after : List Write) :
    let now := (r.performAll before).1
    let next := (now.perform w).1
    let result := (now.perform w).2
    let whole := r.performAll (before ++ w :: after)
    whole = r.writeAll (before ++ w :: after) ∧
      (∀ e, result = .error e → next = now) ∧
      next.committed = (now.committed || w.commits && result.isOk) ∧
      (next.committed = true →
        whole = (next, (r.performAll before).2 ++ result :: after.map (·.tooLate next.status))) := by
  intro now next result whole
  refine ⟨performAll_eq_writeAll r _, ?_, committed_perform now w, ?_⟩
  · intro e failed
    exact perform_of_error failed
  · intro sent
    have rest : next.performAll after = (next, after.map (·.tooLate next.status)) :=
      performAll_of_committed sent after
    have last : now.performAll (w :: after) =
        (next, result :: after.map (·.tooLate next.status)) := by
      simp only [performAll]
      rw [rest]
    simp only [whole, performAll_append]
    rw [last]

/-- The name of a subprotocol is allowed and that of an extension is not: neither is stored.  Then an
    error is sent, and it is too late to accept. -/
theorem frozen_after_bad_extensions :
    let bad : Write := .accept (some "chat") ["a\nb"]
    let good : Write := .accept (some "chat") []
    let sent : Response := ⟨.serviceUnavailable, some "full", .empty, true⟩
    fresh.perform bad = (fresh, .error (.invalidHeader .extensions)) ∧
      fresh.performAll [bad, .error .serviceUnavailable "full", good, .commit] =
        (sent, [.error (.invalidHeader .extensions), .ok (),
          .error (.committed .serviceUnavailable), .ok ()]) := by
  intro bad good sent
  have allowed : "chat".all Http.isValueChar = true := by rw [String.all_bool_eq]; decide
  have split : (joined ["a\nb"]).all Http.isValueChar = false := by
    rw [String.all_bool_eq]
    decide
  have failed : (fresh.perform bad).2 = .error (.invalidHeader .extensions) := by
    simp [bad, perform_eq_write, write, attempt, accept, whileOpen, fresh, valueFor?, valueFor,
      FieldValue.ofText?, allowed, split, Except.map, bind, Except.bind, labelOf]
    decide
  obtain ⟨-, atomic, -, -⟩ := frozen_from_commit_on fresh [] bad []
  have unchanged : fresh.perform bad = (fresh, .error (.invalidHeader .extensions)) :=
    Prod.ext (atomic _ failed) failed
  obtain ⟨-, -, -, frozen⟩ :=
    frozen_from_commit_on fresh [bad] (.error .serviceUnavailable "full") [good, .commit]
  simp only [performAll, unchanged] at frozen
  exact ⟨unchanged, frozen rfl⟩

end WebSocketEngine.Upgrade.Response
