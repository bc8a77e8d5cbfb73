import WebSocketEngine.Proofs.Http.Fields
import WebSocketEngine.Upgrade.Response

/-!
What is written to a response.

A committed response stays as it is (`writeAll_of_committed`).  An open one can accept any offer of
a client (`exists_accept`), and what the client is told then is what was accepted; where nothing was
accepted, it is what had been written before (`told_accept`).  A write changes nothing under names
that it does not write to (`told_write`).
-/

namespace WebSocketEngine.Upgrade.Response

open Http (FieldName FieldValue Readable Headers)

/-! ### Committed responses -/

theorem write_of_committed {r : Response} (committed : r.committed = true) (w : Write) :
    (r.write w).1 = r := by
  cases w with
  | commit =>
    show { r with committed := true } = r
    rw [← committed]
  | status _ | header _ _ | subprotocol _ | extensions _ | accept _ _ | error _ _ =>
    simp [write, attempt, setStatus, setHeader, setSubprotocol, setExtensions, accept, sendError,
      whileOpen, committed]

theorem writeAll_of_committed {r : Response} (committed : r.committed = true) (ws : List Write) :
    (r.writeAll ws).1 = r := by
  induction ws with
  | nil => rfl
  | cons w ws ih =>
    show ((r.write w).1.writeAll ws).1 = r
    rw [write_of_committed committed, ih]

/-! ### What the client is told -/

/-- The values of a header, as the client sees them. -/
def told (r : Response) (n : FieldName) : List String := (r.headers.values n).map (·.raw)

/-- Texts with commas between them are text. -/
theorem readable_joined : ∀ {es : List String}, (∀ e ∈ es, Readable e) → Readable (joined es)
  | [], _ => by
    intro c mem
    simp [joined] at mem
  | [e], readable => by
    rw [joined, String.intercalate_singleton]
    exact readable e List.mem_cons_self
  | e :: f :: es, readable => by
    intro c mem
    have rest : Readable (joined (f :: es)) :=
      readable_joined fun g mem => readable g (List.mem_cons_of_mem _ mem)
    rw [joined, String.intercalate_cons_cons, String.toList_append, String.toList_append,
      List.mem_append, List.mem_append] at mem
    rcases mem with (first | comma) | later
    · exact readable e List.mem_cons_self c first
    · have signs : c = ',' ∨ c = ' ' := by simpa using comma
      rcases signs with rfl | rfl <;> decide
    · exact rest c later

theorem exists_valueFor? (n : FieldName) :
    ∀ {value : Option String}, (∀ s ∈ value, Readable s) → ∃ v, valueFor? n value = .ok v
  | none, _ => ⟨none, rfl⟩
  | some s, readable => by
    obtain ⟨v, written⟩ := FieldValue.exists_value (readable s rfl)
    exact ⟨some v, by simp [valueFor?, valueFor, written, Except.map]⟩

/-- The values of the one header are the value that was set, or stay as they were. -/
theorem values_insert? {n : FieldName} {value : Option String} {v : Option FieldValue}
    (written : valueFor? n value = .ok v) (h : Headers) :
    ((insert? h n v).values n).map (·.raw) =
      value.elim ((h.values n).map (·.raw)) fun s => [s] := by
  cases value with
  | none =>
    obtain rfl : none = v := Except.ok.inj written
    rfl
  | some s =>
    cases read : FieldValue.ofText? s with
    | none =>
      simp only [valueFor?, valueFor, read] at written
      cases written
    | some w =>
      simp only [valueFor?, valueFor, read] at written
      obtain rfl : some w = v := Except.ok.inj written
      simp [insert?, Headers.values_insert, FieldValue.raw_of_ofText? read]

theorem values_insert?_of_ne {m n : FieldName} (ne : m ≠ n) (h : Headers) (v : Option FieldValue) :
    (insert? h n v).values m = h.values m := by
  cases v with
  | none => rfl
  | some v => exact Headers.values_insert_of_ne ne

/-- The value for the accepted extensions; none where there are none. -/
def extensionsValue (es : List String) : Option String :=
  if es.isEmpty then none else some (joined es)

theorem accept_of_open {r : Response} (unsent : r.committed = false) {p : Option String}
    {es : List String} {v w : Option FieldValue} (protocol : valueFor? .webSocketProtocol p = .ok v)
    (extensions : valueFor? .webSocketExtensions (extensionsValue es) = .ok w) :
    r.accept p es = .ok { r with
      status := .switchingProtocols
      headers := insert? (insert? r.headers .webSocketProtocol v) .webSocketExtensions w
      committed := true } := by
  unfold extensionsValue at extensions
  unfold accept whileOpen
  rw [unsent, protocol, extensions]
  rfl

/-- Text can be accepted as long as the response is open. -/
theorem exists_accept {r : Response} (unsent : r.committed = false) {p : Option String}
    {es : List String} (protocol : ∀ s ∈ p, Readable s) (extensions : ∀ e ∈ es, Readable e) :
    ∃ r', r.accept p es = .ok r' := by
  obtain ⟨v, written⟩ := exists_valueFor? .webSocketProtocol protocol
  have readable : ∀ s ∈ extensionsValue es, Readable s := by
    unfold extensionsValue
    split
    · nofun
    · rintro s ⟨⟩
      exact readable_joined extensions
  obtain ⟨w, written'⟩ := exists_valueFor? .webSocketExtensions readable
  exact ⟨_, accept_of_open unsent written written'⟩

/-- What is accepted is set under the two names, and the response is committed. -/
theorem values_of_accept {r r' : Response} {p : Option String} {es : List String}
    (accepted : r.accept p es = .ok r') :
    ∃ v w, valueFor? .webSocketProtocol p = .ok v ∧
      valueFor? .webSocketExtensions (extensionsValue es) = .ok w ∧
      r' = { r with
        status := .switchingProtocols
        headers := insert? (insert? r.headers .webSocketProtocol v) .webSocketExtensions w
        committed := true } := by
  cases sent : r.committed with
  | true =>
    rw [accept, whileOpen, sent, if_pos rfl] at accepted
    cases accepted
  | false =>
    cases protocol : valueFor? .webSocketProtocol p with
    | error e =>
      rw [accept, whileOpen, sent, protocol] at accepted
      cases accepted
    | ok v =>
      cases extensions : valueFor? .webSocketExtensions (extensionsValue es) with
      | error e =>
        rw [extensionsValue] at extensions
        rw [accept, whileOpen, sent, protocol, extensions] at accepted
        cases accepted
      | ok w =>
        rw [accept_of_open sent protocol extensions] at accepted
        exact ⟨v, w, rfl, rfl, (Except.ok.inj accepted).symm⟩

/-- What is accepted is told to the client; of what is not, the client is told what was written
    before. -/
theorem told_accept {r r' : Response} {p : Option String} {es : List String}
    (accepted : r.accept p es = .ok r') :
    r'.committed = true ∧ r'.status = .switchingProtocols ∧
      r'.told .webSocketProtocol = p.elim (r.told .webSocketProtocol) (fun s => [s]) ∧
      r'.told .webSocketExtensions =
        if es = [] then r.told .webSocketExtensions else [joined es] := by
  obtain ⟨v, w, protocol, extensions, rfl⟩ := values_of_accept accepted
  refine ⟨rfl, rfl, ?_, ?_⟩
  · unfold told
    rw [values_insert?_of_ne (by decide)]
    exact values_insert? protocol r.headers
  · unfold told
    rw [values_insert? extensions, values_insert?_of_ne (by decide)]
    cases es <;> rfl

/-! ### What a write leaves alone -/

/-- The names under which something is written. -/
def Write.names : Write → List FieldName
  | .header n _ => [n]
  | .subprotocol _ => [.webSocketProtocol]
  | .extensions _ => [.webSocketExtensions]
  | .accept _ _ => [.webSocketProtocol, .webSocketExtensions]
  | .status _ | .error _ _ | .commit => []

variable {r r' : Response} {n : FieldName}

theorem told_of_setHeader {m : FieldName} {value : String} (other : n ≠ m)
    (set : r.setHeader m value = .ok r') : r'.told n = r.told n := by
  unfold setHeader whileOpen at set
  split at set
  · cases set
  · cases written : valueFor m value with
    | error e =>
      rw [written] at set
      cases set
    | ok v =>
      rw [written] at set
      cases set
      rw [told, Http.Headers.values_insert_of_ne other]
      rfl

theorem told_of_accept {p : Option String} {es : List String} (protocol : n ≠ .webSocketProtocol)
    (extensions : n ≠ .webSocketExtensions) (accepted : r.accept p es = .ok r') :
    r'.told n = r.told n := by
  obtain ⟨v, w, -, -, rfl⟩ := values_of_accept accepted
  rw [told, values_insert?_of_ne extensions, values_insert?_of_ne protocol]
  rfl

/-- A write leaves the other names alone. -/
theorem told_write {w : Write} (other : n ∉ w.names) : (r.write w).1.told n = r.told n := by
  unfold write
  cases attempted : r.attempt w with
  | error e => rfl
  | ok next =>
    cases w with
    | status s | error s reason =>
      simp only [attempt, setStatus, sendError, whileOpen] at attempted
      split at attempted
      · cases attempted
      · cases attempted
        rfl
    | commit =>
      cases attempted
      rfl
    | header m value =>
      exact told_of_setHeader (by simpa [Write.names] using other) attempted
    | subprotocol name =>
      exact told_of_setHeader (by simpa [Write.names] using other) attempted
    | extensions names =>
      exact told_of_setHeader (by simpa [Write.names] using other) attempted
    | accept p es =>
      simp only [Write.names, List.mem_cons, List.not_mem_nil, or_false, not_or] at other
      exact told_of_accept other.1 other.2 attempted

theorem told_writeAll {ws : List Write} (other : ∀ w ∈ ws, n ∉ w.names) :
    (r.writeAll ws).1.told n = r.told n := by
  induction ws generalizing r with
  | nil => rfl
  | cons w ws ih =>
    show ((r.write w).1.writeAll ws).1.told n = r.told n
    rw [ih fun w mem => other w (List.mem_cons_of_mem _ mem),
      told_write (other w List.mem_cons_self)]

end WebSocketEngine.Upgrade.Response
