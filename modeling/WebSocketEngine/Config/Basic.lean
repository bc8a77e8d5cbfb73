import WebSocketEngine.Failure

/-!
What can be configured about a session: how long it may be idle, how large its messages may be, and
whether the application asks for frames itself.

Sizes are in bytes and zero lifts the limit; the idle timeout is kept in whole milliseconds and zero
turns it off.  Values are layered: defaults first, then changes, each of which touches only the
fields that it names.
-/

namespace WebSocketEngine

/-- Values that every new session starts from. -/
structure Defaults where
  idleMillis : Nat
  maxText : Nat
  maxBinary : Nat
  deriving DecidableEq

namespace Defaults

/-- Thirty seconds, and 64 KiB for a message of either kind. -/
def standard : Defaults := ⟨30000, 65536, 65536⟩

def withIdle (d : Defaults) (millis : Nat) : Defaults := { d with idleMillis := millis }

/-- One limit for both kinds of message. -/
def withMax (d : Defaults) (bytes : Nat) : Defaults :=
  { d with maxText := bytes, maxBinary := bytes }

def idleTimeout (d : Defaults) : Duration := .ofMillis d.idleMillis

end Defaults

/-- The values in force for one session. -/
structure Config where
  idleMillis : Nat
  maxText : Nat
  maxBinary : Nat
  demanding : Bool
  deriving DecidableEq

namespace Config

def ofDefaults (d : Defaults) : Config := ⟨d.idleMillis, d.maxText, d.maxBinary, false⟩

def standard : Config := ofDefaults .standard

/-! ### Reading -/

def idleTimeout (c : Config) : Duration := .ofMillis c.idleMillis

/-- A stored size as a limit. -/
def limitOf (bytes : Nat) : Option Nat := if bytes = 0 then none else some bytes

/-- The size limit for messages of a kind. -/
def limit (c : Config) : MessageKind → Option Nat
  | .text => limitOf c.maxText
  | .binary => limitOf c.maxBinary

def snapshot (c : Config) : Defaults := ⟨c.idleMillis, c.maxText, c.maxBinary⟩

/-! ### Writing -/

/-- Whole milliseconds are kept, as many as fit. -/
def setIdleTimeout (c : Config) (d : Duration) : Config :=
  { c with idleMillis := min d.millis maxMillis }

def setMaxText (c : Config) (bytes : Nat) : Config := { c with maxText := bytes }

def setMaxBinary (c : Config) (bytes : Nat) : Config := { c with maxBinary := bytes }

def setDemanding (c : Config) (demanding : Bool) : Config := { c with demanding := demanding }

/-- Overwrites the timeout and the limits, and leaves the demand flag alone. -/
def applyDefaults (c : Config) (d : Defaults) : Config :=
  ((c.setIdleTimeout d.idleTimeout).setMaxText d.maxText).setMaxBinary d.maxBinary

/-- A change of some fields. -/
structure Change where
  idle : Option Duration
  maxText : Option Nat
  maxBinary : Option Nat
  demanding : Option Bool
  deriving DecidableEq

namespace Change

def nothing : Change := ⟨none, none, none, none⟩

def isEmpty (c : Change) : Bool :=
  c.idle.isNone && c.maxText.isNone && c.maxBinary.isNone && c.demanding.isNone

def describe (c : Change) : String :=
  Describe.record "ConfigOverrides"
    [("idle_timeout", Describe.maybe Duration.text c.idle),
      ("max_text_message_size", Describe.maybe toString c.maxText),
      ("max_binary_message_size", Describe.maybe toString c.maxBinary),
      ("demanding", Describe.maybe Describe.truth c.demanding)]

end Change

/-- Writes the fields that a change names. -/
def apply (c : Config) (x : Change) : Config :=
  let c := x.idle.elim c c.setIdleTimeout
  let c := x.maxText.elim c c.setMaxText
  let c := x.maxBinary.elim c c.setMaxBinary
  x.demanding.elim c c.setDemanding

def describe (c : Config) : String :=
  Describe.record "SessionConfig"
    [("inner", Describe.record "ConfigInner"
      [("idle_timeout_ms", toString c.idleMillis),
        ("max_text_message_size", toString c.maxText),
        ("max_binary_message_size", toString c.maxBinary),
        ("demanding", Describe.truth c.demanding)])]

end Config

end WebSocketEngine
