import WebSocketEngine.ConnectionId
import WebSocketEngine.Failure
import WebSocketEngine.Log
import WebSocketEngine.Panic

/-!
What a connection writes to the log about its own life.
-/

namespace WebSocketEngine.Connection

def openedLine (id : ConnectionId) (active : Nat) : Log.Line :=
  ⟨.info, "connection opened: id=" ++ id.text ++ ", active=" ++ toString active⟩

def closedLine (id : ConnectionId) (code : CloseCode) : Log.Line :=
  ⟨.info, "connection closed: id=" ++ id.text ++ ", code=" ++ code.text⟩

def failedLine (id : ConnectionId) (e : Failure) : Log.Line :=
  ⟨.warn, "connection failed: id=" ++ id.text ++ ", code=" ++ e.closeCode.text ++ ", error="
    ++ e.message⟩

def releasedLine (id : ConnectionId) (remaining : Nat) : Log.Line :=
  ⟨.debug, "connection released: id=" ++ id.text ++ ", remaining=" ++ toString remaining⟩

/-- A crash is reported twice, for two kinds of readers. -/
def crashedLines (id : ConnectionId) (p : Panic) : List Log.Line :=
  [⟨.error, "connection task panicked: id=" ++ id.text ++ ", panic=" ++ p.message⟩,
    ⟨.error, "connection task panicked id=" ++ id.text ++ " panic=" ++ p.message⟩]

end WebSocketEngine.Connection
