import WebSocketEngine.Http.Headers
import WebSocketEngine.Http.Target
import WebSocketEngine.Text.Quoted

/-!
A request that may ask for an upgrade.

It does if it is a GET with the `Upgrade` header `websocket`, the token `upgrade` among those of the
`Connection` header, version 13 and any key.  Letters count in either case, and blanks around them
do not count.
-/

namespace WebSocketEngine.Upgrade

/-- What a creator runs in: it runs its task `runs` times. -/
structure Context where
  runs : Nat
  deriving DecidableEq

structure Request where
  method : String
  path : String
  headers : Http.Headers
  /-- What a creator is to run in. -/
  context : Option Context
  deriving DecidableEq

namespace Request

open Http (FieldName FieldValue Headers)

def create (method path : String) : Request := ⟨method, path, .empty, none⟩

/-- One more header.  A value that is not allowed is left out. -/
def withHeader (r : Request) (n : FieldName) (value : String) : Request :=
  match FieldValue.ofText? value with
  | some v => { r with headers := r.headers.append n v }
  | none => r

def withContext (r : Request) (context : Context) : Request := { r with context := some context }

/-- The headers of every upgrade request. -/
def withStandardHeaders (r : Request) : Request :=
  (((r.withHeader .upgrade "websocket").withHeader .connection "keep-alive, Upgrade").withHeader
    .webSocketVersion "13").withHeader .webSocketKey "dGhlIHNhbXBsZSBub25jZQ=="

/-- A request as it came over the wire: a method, a target and headers; nothing if one of them is
    malformed. -/
def ofParts? (method target : String) (fields : List (String × String)) : Option Request := do
  let path ← Http.Target.path? target
  let lines ← fields.mapM fun f => return (← FieldName.ofText? f.1, ← FieldValue.ofText? f.2)
  if Http.isToken method then some ⟨method, path, ⟨lines⟩, none⟩ else none

/-! ### Questions -/

/-- The first value of a header without the blanks around it, in small letters. -/
def plain? (r : Request) (n : FieldName) : Option String :=
  (r.headers.text? n).map fun t => String.ofList (Text.lowerAscii (Text.trimBlank t.toList))

def isUpgrade (r : Request) : Bool :=
  r.method = "GET"
    && r.plain? .upgrade = some "websocket"
    && (r.headers.tokens .connection).any (fun t =>
      Text.lowerAscii t.toList = "upgrade".toList)
    && r.plain? .webSocketVersion = some "13"
    && r.headers.values .webSocketKey ≠ []

/-- The subprotocols that the client offers. -/
def subprotocols (r : Request) : List String := r.headers.tokens .webSocketProtocol

/-- The extensions that the client offers, with their parameters. -/
def extensions (r : Request) : List String := r.headers.tokens .webSocketExtensions

def describe (r : Request) : String :=
  Describe.record "UpgradeRequest"
    [("method", r.method), ("path", Text.quoted r.path), ("headers", r.headers.describe),
      ("context", Describe.truth r.context.isSome)]

end Request

end WebSocketEngine.Upgrade
