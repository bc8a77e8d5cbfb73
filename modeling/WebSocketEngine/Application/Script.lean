import WebSocketEngine.Application.Basic

/-!
Applications that follow a script.

Each callback has a list of modes, one per call; the last one is used ever after, and a callback
without modes succeeds and does nothing.  The session can be used once the application was called
with `opened`, which is when it comes to know it.
-/

namespace WebSocketEngine

/-- What a callback does in one call. -/
abbrev Mode := Reaction

namespace Mode

/-- Does nothing and succeeds. -/
def idle : Mode := ⟨[], .succeed⟩

/-- The mode of the next call, and those of the calls after it. -/
def next : List Mode → Mode × List Mode
  | [] => (idle, [])
  | [m] => (m, [m])
  | m :: ms => (m, ms)

end Mode

/-- The modes of each callback; nothing where no callback is installed. -/
structure Script where
  opened : Option (List Mode)
  text : Option (List Mode)
  binary : Option (List Mode)
  control : Option (List Mode)
  frame : Option (List Mode)
  failed : Option (List Mode)
  closed : Option (List Mode)
  demanding : Bool

namespace Script

def empty : Script := ⟨none, none, none, none, none, none, none, false⟩

def hooks (s : Script) : Hooks where
  onOpen := s.opened.isSome
  onText := s.text.isSome
  onBinary := s.binary.isSome
  onControl := s.control.isSome
  onError := s.failed.isSome
  onClosed := s.closed.isSome
  demanding := s.demanding

/-- The modes that are left, and whether the session is known. -/
structure Progress where
  left : Script
  knowsSession : Bool

def start (s : Script) : Progress := ⟨s, false⟩

/-- The mode for a call, and the script that is left after it. -/
def next (s : Script) : Call → Mode × Script
  | .opened => step s.opened fun ms => { s with opened := some ms }
  | .message (.text _) => step s.text fun ms => { s with text := some ms }
  | .message (.binary _) => step s.binary fun ms => { s with binary := some ms }
  | .control _ => step s.control fun ms => { s with control := some ms }
  | .frame _ => step s.frame fun ms => { s with frame := some ms }
  | .failed _ => step s.failed fun ms => { s with failed := some ms }
  | .closed _ => step s.closed fun ms => { s with closed := some ms }
where
  /-- Takes the next mode from one callback's list. -/
  step (modes : Option (List Mode)) (write : List Mode → Script) : Mode × Script :=
    match modes with
    | none => (.idle, s)
    | some ms =>
      let (m, ms) := Mode.next ms
      (m, write ms)

def react (p : Progress) (c : Call) : Progress × Reaction :=
  let knows := p.knowsSession || c = .opened
  let (mode, left) := p.left.next c
  (⟨left, knows⟩, if knows then mode else { mode with acts := [] })

/-- The application that follows the script. -/
def application (s : Script) : Application Progress where
  hooks := s.hooks
  react := react
  demands := fun _ => false

end Script

end WebSocketEngine
