import WebSocketEngine.Connection.Basic
import WebSocketEngine.Upgrade.Negotiator
import WebSocketEngine.Upgrade.Routes

/-!
An attempt to upgrade a request.

A request that asks for no upgrade, or whose path leads nowhere, is left to others.  Otherwise the
negotiator at its path decides, starting from the defaults; an agreement is told to the client, and
that commits the response.
-/

namespace WebSocketEngine.Upgrade

/-- A session that was agreed upon with the client. -/
structure Upgraded (σ : Type) where
  path : String
  subprotocol : Option String
  extensions : List String
  config : Config
  application : Application σ
  memory : σ

namespace Upgraded

def describe (u : Upgraded σ) : String :=
  Describe.partly "Upgraded"
    [("path", Text.quoted u.path), ("subprotocol", Describe.maybe Text.quoted u.subprotocol),
      ("extensions", Describe.items Text.quoted u.extensions), ("config", u.config.describe)]

/-- A connection for the session, not started yet. -/
def connect (u : Upgraded σ) (id : ConnectionId) (interval : Duration) (house : House) :
    Connection σ :=
  .create u.memory (.assembling .fresh) id u.config interval house

end Upgraded

inductive Verdict (σ : Type)
  /-- Left to others; the response was not touched. -/
  | notMatched
  /-- Dealt with, without a session. -/
  | refused
  | upgraded (u : Upgraded σ)

/-- Somebody took responsibility for the request. -/
def Verdict.isHandled : Verdict σ → Bool
  | notMatched => false
  | refused | upgraded _ => true

/-- How an attempt went. -/
structure Attempt (σ : Type) where
  response : Response
  verdict : Except Fault (Verdict σ)
  /-- How often the request's context was entered. -/
  entered : Nat
  /-- How the writes of each run of application code went. -/
  runs : List (List Response.Result)
  lines : List Log.Line

namespace Attempt

/-- The label under which an attempt is counted. -/
def label (a : Attempt σ) : String :=
  match a.verdict with
  | .error _ => "failed"
  | .ok .notMatched => "not_matched"
  | .ok .refused => "refused"
  | .ok (.upgraded _) => "upgraded"

def metric (a : Attempt σ) : Metric := .upgrade a.label

/-! ### Log lines -/

def plainLine (path : String) : Log.Line :=
  ⟨.debug, "not a websocket upgrade: path=" ++ path⟩

def unmappedLine (path : String) : Log.Line :=
  ⟨.debug, "no mapping for upgrade: path=" ++ path⟩

def refusedLine (path : String) (p : Pattern) (s : Http.Status) : Log.Line :=
  ⟨.warn, "upgrade refused: path=" ++ path ++ ", spec=" ++ p.raw ++ ", status=" ++ s.text⟩

def failedLine (path : String) (e : Fault) : Log.Line :=
  ⟨.warn, "upgrade failed: path=" ++ path ++ ", error=" ++ e.message⟩

def upgradedLine (path : String) (p : Pattern) (subprotocol : Option String) : Log.Line :=
  ⟨.info, "connection upgraded: path=" ++ path ++ ", spec=" ++ p.raw ++ ", subprotocol="
    ++ Describe.maybe Text.quoted subprotocol⟩

def addedLine (p : Pattern) : Log.Line := ⟨.debug, "mapping added: spec=" ++ p.raw⟩

/-! ### Attempts -/

/-- Left to others. -/
def pass (response : Response) (line : Log.Line) : Attempt σ :=
  ⟨response, .ok .notMatched, 0, [], [line]⟩

/-- What becomes of a negotiation at a pattern. -/
def ofNegotiation (request : Request) (p : Pattern) (n : Negotiation σ) : Attempt σ :=
  let path := request.path
  let finish (response : Response) (verdict : Except Fault (Verdict σ)) (line : Log.Line) :=
    (⟨response, verdict, n.entered, n.runs, n.lines ++ [line]⟩ : Attempt σ)
  match n.result with
  | .error e => finish n.response (.error e) (failedLine path e)
  | .ok none => finish n.response (.ok .refused) (refusedLine path p n.response.status)
  | .ok (some a) =>
    match n.response.accept a.subprotocol a.extensions with
    | .error e => finish n.response (.error e) (failedLine path e)
    | .ok response =>
      let config := a.application.hooks.prepare n.config
      finish response
        (.ok (.upgraded ⟨path, a.subprotocol, a.extensions, config, a.application, a.memory⟩))
        (upgradedLine path p a.subprotocol)

end Attempt

/-- Tries to upgrade a request. -/
def Routes.upgrade (routes : Routes (Negotiator σ)) (defaults : Defaults) (request : Request)
    (response : Response) : Attempt σ :=
  if !request.isUpgrade then .pass response (Attempt.plainLine request.path)
  else
    match routes.find? request.path with
    | none => .pass response (Attempt.unmappedLine request.path)
    | some (p, negotiator) =>
      let config := (Config.ofDefaults defaults).apply negotiator.customizer
      .ofNegotiation request p (negotiator.resolve request response config)

/-! ### Handing on -/

/-- Tries to upgrade a request, and hands it on to `next` if it was left to others and the response
    is open; also says how the writes of `next` went, if it had its turn. -/
def Routes.handle (routes : Routes (Negotiator σ)) (defaults : Defaults) (request : Request)
    (response : Response) (next : Request → Response → List Response.Write) :
    Attempt σ × Option (List Response.Result) :=
  let a := routes.upgrade defaults request response
  match a.verdict with
  | .ok .notMatched =>
    if a.response.committed then (a, none)
    else
      let (response, results) := a.response.writeAll (next request a.response)
      ({ a with response }, some results)
  | .ok .refused | .ok (.upgraded _) | .error _ => (a, none)

end WebSocketEngine.Upgrade
