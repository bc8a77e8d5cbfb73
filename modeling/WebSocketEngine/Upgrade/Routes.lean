import WebSocketEngine.Text.Describe
import WebSocketEngine.Upgrade.Fault

/-!
Path patterns and what they lead to.

A path leads to the most specific pattern that covers it; of equally specific ones the first that
was added wins.
-/

namespace WebSocketEngine.Upgrade

/-- Patterns in the order in which they were added. -/
structure Routes (ν : Type) where
  entries : List (Pattern × ν)

namespace Routes

def empty : Routes ν := ⟨[]⟩

def size (r : Routes ν) : Nat := r.entries.length

def isEmpty (r : Routes ν) : Bool := r.entries.isEmpty

def add (r : Routes ν) (p : Pattern) (v : ν) : Routes ν := ⟨r.entries ++ [(p, v)]⟩

/-- Adds a pattern by its text. -/
def addText (r : Routes ν) (raw : String) (v : ν) : Except Fault (Routes ν) :=
  match Pattern.parse raw with
  | .ok p => .ok (r.add p v)
  | .error e => .error (.invalidPattern raw e)

/-- What was added first for exactly this pattern. -/
def get? (r : Routes ν) (raw : String) : Option ν :=
  (r.entries.find? (·.1.raw = raw)).map (·.2)

/-- Takes out all that was added for exactly this pattern. -/
def remove (r : Routes ν) (raw : String) : Routes ν := ⟨r.entries.filter (·.1.raw ≠ raw)⟩

/-- The better of the best entry so far and a later one. -/
def better (best : Option (Pattern × ν)) (e : Pattern × ν) : Option (Pattern × ν) :=
  match best with
  | none => some e
  | some b => if e.1.outranks b.1 then some e else some b

/-- The entry that a path leads to. -/
def find? (r : Routes ν) (path : String) : Option (Pattern × ν) :=
  (r.entries.filter (·.1.covers path)).foldl better none

def map (f : ν → μ) (r : Routes ν) : Routes μ := ⟨r.entries.map fun e => (e.1, f e.2)⟩

def describe (r : Routes ν) : String := Describe.items (fun e => Text.quoted e.1.raw) r.entries

end Routes

end WebSocketEngine.Upgrade
