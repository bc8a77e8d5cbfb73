import WebSocketEngine.Text.Describe

/-!
What a crash leaves behind, be it one of the application or of a request that cannot be met.

Most crashes carry a text; the others carry a value that can only be shown as being there.
-/

namespace WebSocketEngine

inductive Panic
  | text (message : String)
  | value
  deriving DecidableEq

namespace Panic

/-- The text, if the crash carried one. -/
def text? : Panic → Option String
  | text m => some m
  | value => none

def message (p : Panic) : String :=
  p.text?.getD ("Any" ++ Describe.opening ++ ".." ++ Describe.closing)

end Panic

end WebSocketEngine
