import WebSocketEngine.Config.Basic

/-!
Handles to live configurations.

Several handles may lead to one configuration: what is written through one of them is read through
all of them, and through no other.
-/

namespace WebSocketEngine.Config

structure Shared where
  configs : List Config
  /-- The number of the configuration that each handle leads to. -/
  handles : List Nat

namespace Shared

def empty : Shared := ⟨[], []⟩

/-- A new configuration and the first handle to it. -/
def create (s : Shared) (c : Config) : Shared :=
  ⟨s.configs ++ [c], s.handles ++ [s.configs.length]⟩

/-- Another handle to the configuration that `h` leads to. -/
def clone (s : Shared) (h : Nat) : Shared :=
  match s.handles[h]? with
  | none => s
  | some n => { s with handles := s.handles ++ [n] }

def read? (s : Shared) (h : Nat) : Option Config := s.handles[h]? >>= (s.configs[·]?)

/-- Changes the configuration that `h` leads to. -/
def modify (s : Shared) (h : Nat) (f : Config → Config) : Shared :=
  match s.handles[h]? with
  | none => s
  | some n => { s with configs := s.configs.modify n f }

/-- Both handles lead to one configuration. -/
def shares (s : Shared) (h k : Nat) : Bool := s.handles[h]? == s.handles[k]?

/-- What each handle reads, in the order of the handles. -/
def view (s : Shared) : List Config := s.handles.filterMap (s.configs[·]?)

end Shared

end WebSocketEngine.Config
