/-!
Path patterns, from the most to the least specific shape.

    exact     /chat            that path alone
    below     /chat/*, /*      the path in front of the wildcard and all below it; `/*` takes any
    ending    *.ws, /dir/*.ws  paths with that beginning and that end
    anything  /                any path

A pattern has at most one `*`.  Within a shape a longer pattern is more specific; lengths are in
bytes.
-/

namespace WebSocketEngine.Upgrade

/-- What a pattern asks of a path. -/
inductive Shape
  | exact
  | below (base : List Char)
  | ending (dir ext : List Char)
  | anything
  deriving DecidableEq

/-- A pattern and its text. -/
structure Pattern where
  raw : String
  shape : Shape
  deriving DecidableEq

/-- Why a text is no pattern. -/
inductive PatternFault
  | empty
  | manyWildcards
  /-- Begins with `*` and goes on other than `.ext`. -/
  | badSuffix
  | badStart
  | badWildcard
  deriving DecidableEq

def PatternFault.reason : PatternFault → String
  | empty => "empty"
  | manyWildcards => "more than one wildcard"
  | badSuffix => "suffix must have the form *.ext"
  | badStart => "must start with '/' or '*.'"
  | badWildcard => "wildcard must be a trailing /* or a *.ext segment"

namespace Pattern

/-! ### Reading a pattern -/

/-- `.ext` without a further segment. -/
def isExtension : List Char → Bool
  | '.' :: cs => !cs.contains '/'
  | _ => false

/-- The part in front of an ending, if a text has that ending. -/
def before? (ending cs : List Char) : Option (List Char) :=
  if ending.isSuffixOf cs then some (cs.take (cs.length - ending.length)) else none

def shapeOf (cs : List Char) : Except PatternFault Shape :=
  if cs = [] then .error .empty
  else if 1 < cs.count '*' then .error .manyWildcards
  else if cs = ['/'] then .ok .anything
  else
    match cs with
    | '*' :: ext => if isExtension ext then .ok (.ending [] ext) else .error .badSuffix
    | '/' :: _ =>
      match before? ['/', '*'] cs with
      | some base => .ok (.below base)
      | none =>
        let dir := cs.takeWhile (· ≠ '*')
        match cs.dropWhile (· ≠ '*') with
        | [] => .ok .exact
        | _ :: ext =>
          if ['/'].isSuffixOf dir && isExtension ext then .ok (.ending dir ext)
          else .error .badWildcard
    | _ => .error .badStart

def parse (raw : String) : Except PatternFault Pattern :=
  (shapeOf raw.toList).map fun shape => ⟨raw, shape⟩

/-! ### Matching -/

/-- What follows a beginning, if a text has that beginning. -/
def after? (beginning cs : List Char) : Option (List Char) :=
  if beginning.isPrefixOf cs then some (cs.drop beginning.length) else none

def covers (p : Pattern) (path : String) : Bool :=
  match p.shape with
  | .anything => true
  | .exact => path == p.raw
  | .below base =>
    base.isEmpty ||
      match after? base path.toList with
      | none => false
      | some [] => true
      | some (c :: _) => c = '/'
  | .ending dir ext =>
    match after? dir path.toList with
    | none => false
    | some rest => ext.isSuffixOf rest

/-! ### Specificity -/

/-- The rank of a shape; a greater one is more specific. -/
def rank (p : Pattern) : Nat :=
  match p.shape with
  | .anything => 0
  | .ending .. => 1
  | .below _ => 2
  | .exact => 3

def groupName (p : Pattern) : String :=
  match p.shape with
  | .anything => "Default"
  | .ending .. => "Suffix"
  | .below _ => "Prefix"
  | .exact => "Exact"

/-- The length that counts within a shape, in bytes. -/
def weight (p : Pattern) : Nat :=
  match p.shape with
  | .anything => 0
  | .below base => (String.ofList base).utf8ByteSize
  | .exact | .ending .. => p.raw.utf8ByteSize

/-- `p` is more specific than `q`. -/
def outranks (p q : Pattern) : Bool :=
  q.rank < p.rank || (p.rank = q.rank && q.weight < p.weight)

/-- The most specific first; patterns of equal specificity stay in order. -/
def sorted (ps : List (Pattern × α)) : List (Pattern × α) :=
  ps.mergeSort fun a b => !b.1.outranks a.1

end Pattern

end WebSocketEngine.Upgrade
