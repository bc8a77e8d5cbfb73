import WebSocketEngine.Failure

/-!
A message as frames: one frame for each chunk.

The first frame has the opcode of the message's kind, the others continue it, and the last one is
final.  A message without chunks is one empty frame.
-/

namespace WebSocketEngine.Assembly

/-- The frames after the first one. -/
def continuations : List Bytes → List Frame
  | [] => []
  | [c] => [⟨.continuation, true, c⟩]
  | c :: cs => ⟨.continuation, false, c⟩ :: continuations cs

def fragments (kind : MessageKind) : List Bytes → List Frame
  | [] => [⟨kind.op, true, []⟩]
  | [c] => [⟨kind.op, true, c⟩]
  | c :: cs => ⟨kind.op, false, c⟩ :: continuations cs

end WebSocketEngine.Assembly
