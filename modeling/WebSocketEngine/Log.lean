/-!
Lines of a log.
-/

namespace WebSocketEngine.Log

inductive Level
  | debug
  | info
  | warn
  | error
  deriving DecidableEq

def Level.name : Level → String
  | debug => "DEBUG"
  | info => "INFO"
  | warn => "WARN"
  | error => "ERROR"

structure Line where
  level : Level
  message : String
  deriving DecidableEq

def Line.text (l : Line) : String := l.level.name ++ " " ++ l.message

end WebSocketEngine.Log
