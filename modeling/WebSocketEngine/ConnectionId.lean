/-!
The number that a connection is known by.
-/

namespace WebSocketEngine

structure ConnectionId where
  value : UInt64
  deriving DecidableEq

def ConnectionId.text (id : ConnectionId) : String :=
  "ConnectionId(" ++ toString id.value.toNat ++ ")"

end WebSocketEngine
