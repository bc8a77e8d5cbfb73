import WebSocketEngine.ConnectionId
import WebSocketEngine.Duration
import WebSocketEngine.Log

/-!
What a sweep writes to the log about an expired connection.
-/

namespace WebSocketEngine.Idle

def expiryLine (id : ConnectionId) (idleFor : Duration) : Log.Line :=
  ⟨.info, "idle timeout expired: id=" ++ id.text ++ ", idle_for=" ++ idleFor.text⟩

end WebSocketEngine.Idle
