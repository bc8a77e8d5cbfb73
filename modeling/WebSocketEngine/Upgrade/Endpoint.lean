import WebSocketEngine.Application.Basic
import WebSocketEngine.Text.Blank
import WebSocketEngine.Upgrade.Request

/-!
What an application offers at a path: the application itself, the configuration that it asks for,
and the subprotocols and extensions that it supports.

Of the client's offers, the first subprotocol that is supported is taken, and every extension whose
name is supported, with its parameters.
-/

namespace WebSocketEngine.Upgrade

structure Endpoint (σ : Type) where
  application : Application σ
  /-- The application's memory at the beginning. -/
  memory : σ
  declared : Config.Change
  subprotocols : List String
  extensions : List String

namespace Endpoint

def selectSubprotocol (e : Endpoint σ) (offers : List String) : Option String :=
  offers.find? e.subprotocols.contains

/-- The name of an extension, in front of its parameters. -/
def extensionName (offer : String) : String :=
  String.ofList (Text.trimBlank (offer.toList.takeWhile (· ≠ ';')))

def selectExtensions (e : Endpoint σ) (offers : List String) : List String :=
  offers.filter fun o => e.extensions.contains (extensionName o)

def describe (e : Endpoint σ) : String :=
  Describe.record "Endpoint"
    [("hooks", e.application.hooks.describe), ("declared", e.declared.describe),
      ("subprotocols", Describe.items Text.quoted e.subprotocols),
      ("extensions", Describe.items Text.quoted e.extensions)]

end Endpoint

/-- A session that is agreed upon: who serves it, and what the client is told. -/
structure Agreement (σ : Type) where
  application : Application σ
  memory : σ
  subprotocol : Option String
  extensions : List String

namespace Agreement

/-- What an endpoint and a request agree upon. -/
def reach (e : Endpoint σ) (r : Request) : Agreement σ where
  application := e.application
  memory := e.memory
  subprotocol := e.selectSubprotocol r.subprotocols
  extensions := e.selectExtensions r.extensions

def describe (a : Agreement σ) : String :=
  Describe.partly "NegotiatedHandler"
    [("subprotocol", Describe.maybe Text.quoted a.subprotocol),
      ("extensions", Describe.items Text.quoted a.extensions)]

end Agreement

end WebSocketEngine.Upgrade
