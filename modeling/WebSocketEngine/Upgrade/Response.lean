import WebSocketEngine.Http.Headers
import WebSocketEngine.Upgrade.Fault

/-!
The response to a request for an upgrade.

It can be written to until it is committed.  From then on every write is refused, and nothing about
the response changes.  A write that fails changes nothing either: all that can go wrong is judged
first.
-/

namespace WebSocketEngine.Upgrade

structure Response where
  status : Http.Status
  /-- The reason given with an error. -/
  reason : Option String
  headers : Http.Headers
  committed : Bool
  deriving DecidableEq

namespace Response

open Http (FieldName FieldValue Status)

/-- Nothing was written yet. -/
def fresh : Response := ⟨.ok, none, .empty, false⟩

/-- A response, or why there is none. -/
abbrev Written := Except Fault Response

/-- A write that is refused once the response is committed. -/
def whileOpen (r : Response) (write : Written) : Written :=
  if r.committed then .error (.committed r.status) else write

def labelOf (n : FieldName) : HeaderLabel :=
  if n = .webSocketProtocol then .subprotocol
  else if n = .webSocketExtensions then .extensions
  else .other

/-- A value for a header, if HTTP can carry it. -/
def valueFor (n : FieldName) (value : String) : Except Fault FieldValue :=
  match FieldValue.ofText? value with
  | some v => .ok v
  | none => .error (.invalidHeader (labelOf n))

/-! ### Writing -/

def setStatus (r : Response) (s : Status) : Written := r.whileOpen (.ok { r with status := s })

def setHeader (r : Response) (n : FieldName) (value : String) : Written :=
  r.whileOpen ((valueFor n value).map fun v => { r with headers := r.headers.insert n v })

def setSubprotocol (r : Response) (name : String) : Written := r.setHeader .webSocketProtocol name

/-- All extensions in one value. -/
def joined (extensions : List String) : String := ", ".intercalate extensions

def setExtensions (r : Response) (extensions : List String) : Written :=
  r.setHeader .webSocketExtensions (joined extensions)

/-- Sets a header that may be left out. -/
def insert? (headers : Http.Headers) (n : FieldName) : Option FieldValue → Http.Headers
  | some v => headers.insert n v
  | none => headers

/-- The value of a header that may be left out. -/
def valueFor? (n : FieldName) : Option String → Except Fault (Option FieldValue)
  | some value => (valueFor n value).map some
  | none => .ok none

/-- Commits to switching protocols. -/
def accept (r : Response) (subprotocol : Option String) (extensions : List String) : Written :=
  r.whileOpen do
    let p ← valueFor? .webSocketProtocol subprotocol
    let e ← valueFor? .webSocketExtensions
      (if extensions.isEmpty then none else some (joined extensions))
    let headers := insert? (insert? r.headers .webSocketProtocol p) .webSocketExtensions e
    return { r with status := .switchingProtocols, headers, committed := true }

/-- Commits to an error. -/
def sendError (r : Response) (s : Status) (reason : String) : Written :=
  r.whileOpen (.ok { r with status := s, reason := some reason, committed := true })

def commit (r : Response) : Response := { r with committed := true }

/-! ### Writes as data -/

inductive Write
  | status (s : Status)
  | header (n : FieldName) (value : String)
  | subprotocol (name : String)
  | extensions (names : List String)
  | accept (subprotocol : Option String) (extensions : List String)
  | error (s : Status) (reason : String)
  | commit

def attempt (r : Response) : Write → Written
  | .status s => r.setStatus s
  | .header n value => r.setHeader n value
  | .subprotocol name => r.setSubprotocol name
  | .extensions names => r.setExtensions names
  | .accept subprotocol extensions => r.accept subprotocol extensions
  | .error s reason => r.sendError s reason
  | .commit => .ok r.commit

/-- How a write went. -/
abbrev Result := Except Fault Unit

/-- A write that leaves the response alone if it fails. -/
def write (r : Response) (w : Write) : Response × Result :=
  match r.attempt w with
  | .ok next => (next, .ok ())
  | .error e => (r, .error e)

/-- One write after the other, whether they fail or not. -/
def writeAll (r : Response) : List Write → Response × List Result
  | [] => (r, [])
  | w :: ws =>
    let (r, result) := r.write w
    let (r, results) := r.writeAll ws
    (r, result :: results)

end Response

end WebSocketEngine.Upgrade
