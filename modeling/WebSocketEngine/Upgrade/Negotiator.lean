import WebSocketEngine.Log
import WebSocketEngine.Upgrade.Endpoint
import WebSocketEngine.Upgrade.Response

/-!
Negotiators: who decides about the upgrades at a path.

A creator is application code that may write to the response and may make an endpoint.  It runs in
the request's context; without one the negotiation fails before anything has happened.

    the response is committed afterwards ──▶ no session, and the response stays as it is
    no endpoint                          ──▶ no session, and the client is refused
    otherwise                            ──▶ an agreement with the endpoint
-/

namespace WebSocketEngine.Upgrade

/-- What a creator does in one run. -/
structure Creation (σ : Type) where
  writes : List Response.Write
  endpoint : Option (Endpoint σ)

/-- A creator sees the request and the response as it is. -/
abbrev Creator (σ : Type) := Request → Response → Creation σ

/-- How a negotiation went. -/
structure Negotiation (σ : Type) where
  response : Response
  config : Config
  /-- An agreement, nothing if the request was dealt with otherwise, or a fault. -/
  result : Except Fault (Option (Agreement σ))
  /-- How often the context was entered. -/
  entered : Nat
  /-- How the writes of each run of application code went. -/
  runs : List (List Response.Result)
  lines : List Log.Line

structure Negotiator (σ : Type) where
  /-- The change to the defaults that is made first. -/
  customizer : Config.Change
  resolve : Request → Response → Config → Negotiation σ

namespace Negotiator

/-! ### Creators -/

/-- What the runs of a creator have come to. -/
structure Progress (σ : Type) where
  response : Response
  /-- What the last run made. -/
  endpoint : Option (Endpoint σ)
  /-- How the writes of each run went. -/
  runs : List (List Response.Result)

/-- One run of a creator. -/
def runOnce (creator : Creator σ) (request : Request) (p : Progress σ) : Progress σ :=
  let creation := creator request p.response
  let (response, results) := p.response.writeAll creation.writes
  ⟨response, creation.endpoint, p.runs ++ [results]⟩

/-- As many runs of a creator as its context gives it. -/
def enter (creator : Creator σ) (request : Request) (context : Context) (response : Response) :
    Progress σ :=
  Nat.repeat (runOnce creator request) context.runs ⟨response, none, []⟩

/-- The reason of a refusal. -/
def refusal : String := "WebSocket Endpoint Creation Refused"

def committedLine (request : Request) (response : Response) : Log.Line :=
  ⟨.debug, "creator committed response: path=" ++ request.path ++ ", status="
    ++ response.status.text⟩

/-- What comes of the runs of a creator. -/
def conclude (request : Request) (config : Config) (p : Progress σ) : Negotiation σ :=
  if p.response.committed then
    ⟨p.response, config, .ok none, 1, p.runs, [committedLine request p.response]⟩
  else
    match p.endpoint with
    | none =>
      match p.response.sendError .serviceUnavailable refusal with
      | .ok response => ⟨response, config, .ok none, 1, p.runs, []⟩
      | .error e => ⟨p.response, config, .error e, 1, p.runs, []⟩
    | some e =>
      ⟨p.response, config.apply e.declared, .ok (some (.reach e request)), 1, p.runs, []⟩

def negotiate (creator : Creator σ) (request : Request) (response : Response) (config : Config) :
    Negotiation σ :=
  match request.context with
  | none => ⟨response, config, .error .missingContext, 0, [], []⟩
  | some context => conclude request config (enter creator request context response)

def ofCreator (creator : Creator σ) (customizer : Config.Change) : Negotiator σ :=
  ⟨customizer, negotiate creator⟩

/-- A negotiator by a creator, as reports show it. -/
def describeCreator (customizer : Config.Change) : String :=
  Describe.partly "CreatorNegotiator" [("customizer", customizer.describe)]

/-! ### Negotiators without a creator -/

/-- How a negotiator without a creator ends. -/
inductive Ending (σ : Type)
  | decline
  /-- Fails with the status that it has set, unless the response is committed. -/
  | fail
  | agree (a : Agreement σ)

/-- Does the same for every request, outside of its context. -/
def steady (writes : List Response.Write) (ending : Ending σ) : Negotiator σ where
  customizer := .nothing
  resolve _ response config :=
    let (response, results) := response.writeAll writes
    match ending with
    | .decline => ⟨response, config, .ok none, 0, [results], []⟩
    | .agree a => ⟨response, config, .ok (some a), 0, [results], []⟩
    | .fail =>
      match response.setStatus .ok with
      | .ok response => ⟨response, config, .error .missingContext, 0, [results], []⟩
      | .error e => ⟨response, config, .error e, 0, [results], []⟩

end Negotiator

end WebSocketEngine.Upgrade
