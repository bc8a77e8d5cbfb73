/-!
The path in the target of a request.

    *                                the asterisk itself
    /path?query#fragment             the path
    scheme://authority/path?query    the path, or `/` if it is empty
    authority                        no path at all

The query and the fragment are no part of the path, and the fragment may hold anything.  A target
has at most 65534 bytes.
-/

namespace WebSocketEngine.Http.Target

/-- The most bytes that a target can have. -/
def maxSize : Nat := 65534

/-- The most characters that a scheme can have. -/
def maxScheme : Nat := 64

/-! ### Characters -/

/-- Letters, digits and a few signs. -/
def isSchemeChar (c : Char) : Bool := c.isAlphanum || "+-.~".contains c

/-- A character that an authority can hold, apart from those that end it. -/
def isAuthorityChar (c : Char) : Bool := c.isAlphanum || "!$&'()*+,-.:;=@[]_~".contains c

/-- All but blanks, control characters of ASCII, `#`, `<`, `>`, `?` and the grave accent. -/
def isPathChar (c : Char) : Bool :=
  let n := c.toNat
  n == 0x21 || n == 0x22 || (0x24 ≤ n && n ≤ 0x3B) || n == 0x3D || (0x40 ≤ n && n ≤ 0x5F)
    || (0x61 ≤ n && n ≠ 0x7F)

/-- All but blanks, control characters of ASCII, the double quote, `#`, `<` and `>`. -/
def isQueryChar (c : Char) : Bool :=
  let n := c.toNat
  n == 0x21 || (0x24 ≤ n && n ≤ 0x3B) || n == 0x3D || (0x3F ≤ n && n ≠ 0x7F)

/-! ### Authority -/

/-- What matters of the part of an authority that was read. -/
structure Reading where
  /-- Colons since the last `@` or closing bracket. -/
  colons : Nat
  bracketOpened : Bool
  bracketClosed : Bool
  /-- A percent sign that is allowed only in front of an `@` or between brackets. -/
  percent : Bool

/-- The most colons that may be counted at any time. -/
def maxColons : Nat := 8

def Reading.next (r : Reading) (c : Char) : Option Reading :=
  if c = ':' then if r.colons < maxColons then some { r with colons := r.colons + 1 } else none
  else if c = '[' then
    if r.percent || r.bracketOpened then none else some { r with bracketOpened := true }
  else if c = ']' then
    if !r.bracketOpened || r.bracketClosed then none
    else some { r with bracketClosed := true, colons := 0, percent := false }
  else if c = '@' then some { r with colons := 0, percent := false }
  else if c = '%' then some { r with percent := true }
  else if isAuthorityChar c then some r
  else none

/-- The whole of an authority was read. -/
def Reading.complete (r : Reading) : Bool :=
  r.bracketOpened == r.bracketClosed && r.colons ≤ 1 && !r.percent

def isAuthority (cs : List Char) : Bool :=
  match cs.foldlM Reading.next ⟨0, false, false, false⟩ with
  | some r => r.complete && cs.getLast? != some '@'
  | none => false

/-- A character that ends an authority. -/
def endsAuthority (c : Char) : Bool := c = '/' || c = '?' || c = '#'

/-! ### Path -/

/-- The path in front of a query or a fragment. -/
def pathOf (cs : List Char) : Option (List Char) :=
  let path := cs.takeWhile fun c => c ≠ '?' && c ≠ '#'
  if !path.all isPathChar then none
  else
    match cs.drop path.length with
    | '?' :: query => if (query.takeWhile (· ≠ '#')).all isQueryChar then some path else none
    | _ => some path

/-! ### Scheme -/

/-- A beginning in letters of either case. -/
def startsWith (beginning : String) (cs : List Char) : Bool :=
  (cs.take beginning.length).map Char.toLower == beginning.toList

/-- What follows the scheme: nothing if there is no scheme, and no answer if it is too long. -/
def afterScheme (cs : List Char) : Option (Option (List Char)) :=
  if startsWith "http://" cs then some (some (cs.drop 7))
  else if startsWith "https://" cs then some (some (cs.drop 8))
  else
    let scheme := cs.takeWhile isSchemeChar
    match cs.drop scheme.length with
    | ':' :: '/' :: '/' :: rest => if maxScheme < scheme.length then none else some (some rest)
    | _ => some none

/-! ### The whole target -/

/-- The path of a target with a scheme. -/
def absolutePath (cs : List Char) : Option (List Char) :=
  let authority := cs.takeWhile (!endsAuthority ·)
  if authority = [] || !isAuthority authority then none
  else (pathOf (cs.drop authority.length)).map fun path => if path = [] then ['/'] else path

def pathOfChars (cs : List Char) : Option (List Char) :=
  if cs = ['*'] then some cs
  else if cs.head? = some '/' then pathOf cs
  else
    match afterScheme cs with
    | none => none
    | some (some rest) => absolutePath rest
    | some none => if cs ≠ [] && isAuthority cs then some [] else none

/-- The path of a target, if it is one. -/
def path? (s : String) : Option String :=
  if maxSize < s.utf8ByteSize then none else (pathOfChars s.toList).map String.ofList

end WebSocketEngine.Http.Target
