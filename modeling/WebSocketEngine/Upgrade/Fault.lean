import WebSocketEngine.Http.Status
import WebSocketEngine.Text.Quoted
import WebSocketEngine.Upgrade.Pattern

/-!
What can go wrong with an upgrade.
-/

namespace WebSocketEngine.Upgrade

/-- A header whose value was not allowed, as far as messages tell headers apart. -/
inductive HeaderLabel
  | subprotocol
  | extensions
  | other
  deriving DecidableEq

def HeaderLabel.name : HeaderLabel → String
  | subprotocol => "sec-websocket-protocol"
  | extensions => "sec-websocket-extensions"
  | other => "response header"

inductive Fault
  /-- There is nothing to run a creator in. -/
  | missingContext
  | invalidPattern (raw : String) (fault : PatternFault)
  /-- The response had been committed. -/
  | committed (status : Http.Status)
  | invalidHeader (label : HeaderLabel)
  deriving DecidableEq

namespace Fault

def label : Fault → String
  | missingContext => "MissingContext"
  | invalidPattern .. => "InvalidPathSpec"
  | committed _ => "ResponseCommitted"
  | invalidHeader _ => "InvalidHeader"

def message : Fault → String
  | missingContext => "upgrade request has no execution context"
  | invalidPattern raw fault => "invalid path spec " ++ Text.quoted raw ++ ": " ++ fault.reason
  | committed status => "response already committed with status " ++ status.text
  | invalidHeader label => "invalid value for header " ++ label.name

end Fault

end WebSocketEngine.Upgrade
