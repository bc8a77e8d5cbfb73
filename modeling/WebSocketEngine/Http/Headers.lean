import WebSocketEngine.Text.Blank
import WebSocketEngine.Text.Describe

/-!
Header fields.

A name is a token in small letters.  A value may hold any character but control characters, the tab
excepted; only a value of visible ASCII characters, spaces and tabs reads back as text.  A name may
have several values.  Values are listed name by name, in the order in which the names came first,
and within a name in the order in which the values came.

On the wire a value is a row of bytes, and those from `0x80` on need not be UTF-8.  Here it is a
`String`, so a value that is not UTF-8 is left out.  It would not read back as text any more than a
character beyond ASCII does, which may stand for it; only its bytes in `describe` would be others.
-/

namespace WebSocketEngine.Http

/-! ### Names and values -/

def isTokenChar (c : Char) : Bool := c.isAlphanum || "!#$%&'*+-.^_\x60|~".contains c

/-- A text that can stand as a method. -/
def isToken (s : String) : Bool := !s.isEmpty && s.all isTokenChar

/-- The name of a header field, in small letters. -/
structure FieldName where
  text : String
  deriving DecidableEq

namespace FieldName

/-- The most bytes that a name can have. -/
def maxSize : Nat := 65535

def ofText? (s : String) : Option FieldName :=
  if isToken s && s.utf8ByteSize ≤ maxSize then some ⟨String.ofList (Text.lowerAscii s.toList)⟩
  else none

def connection : FieldName := ⟨"connection"⟩

def upgrade : FieldName := ⟨"upgrade"⟩

def webSocketExtensions : FieldName := ⟨"sec-websocket-extensions"⟩

def webSocketKey : FieldName := ⟨"sec-websocket-key"⟩

def webSocketProtocol : FieldName := ⟨"sec-websocket-protocol"⟩

def webSocketVersion : FieldName := ⟨"sec-websocket-version"⟩

end FieldName

/-- A character that a value can hold. -/
def isValueChar (c : Char) : Bool := c = '\t' || (' ' ≤ c && c ≠ '\x7f')

/-- A character that reads back as text. -/
def isTextChar (c : Char) : Bool := c = '\t' || (' ' ≤ c && c < '\x7f')

/-- The value of a header field, which is UTF-8 here. -/
structure FieldValue where
  raw : String
  allowed : raw.all isValueChar = true
  deriving DecidableEq

namespace FieldValue

def ofText? (s : String) : Option FieldValue :=
  if allowed : s.all isValueChar = true then some ⟨s, allowed⟩ else none

/-- The value, if all of it reads back as text. -/
def text? (v : FieldValue) : Option String := if v.raw.all isTextChar then some v.raw else none

/-- The digits of a byte in base sixteen, without leading zeros. -/
def hexByte (b : UInt8) : List Char := Nat.toDigits 16 b.toNat

/-- One character between quotes; what does not read back as text is shown byte by byte. -/
def escape (c : Char) : List Char :=
  if c = '"' then ['\\', '"']
  else if isTextChar c then [c]
  else (String.singleton c).toUTF8.toList.flatMap fun b => ['\\', 'x'] ++ hexByte b

def describe (v : FieldValue) : String :=
  String.ofList ('"' :: v.raw.toList.flatMap escape ++ ['"'])

end FieldValue

/-! ### Fields -/

/-- Header fields in the order in which they were added. -/
structure Headers where
  lines : List (FieldName × FieldValue)
  deriving DecidableEq

namespace Headers

def empty : Headers := ⟨[]⟩

/-- The values of a name, in order. -/
def values (h : Headers) (n : FieldName) : List FieldValue :=
  (h.lines.filter (·.1 = n)).map (·.2)

/-- One more value of a name. -/
def append (h : Headers) (n : FieldName) (v : FieldValue) : Headers := ⟨h.lines ++ [(n, v)]⟩

/-- The only value of a name; it stands where the first one stood. -/
def insert (h : Headers) (n : FieldName) (v : FieldValue) : Headers :=
  match h.lines.span (·.1 ≠ n) with
  | (before, []) => ⟨before ++ [(n, v)]⟩
  | (before, _ :: after) => ⟨before ++ (n, v) :: after.filter (·.1 ≠ n)⟩

/-- Each name once, in the order in which they came first. -/
def names (h : Headers) : List FieldName := (h.lines.map (·.1)).eraseDups

/-- The first value of a name as text, if it has one that is. -/
def text? (h : Headers) (n : FieldName) : Option String := (h.values n).head? >>= (·.text?)

/-- The pieces between commas in all values of a name that read back as text, trimmed, those that
    are not empty. -/
def tokens (h : Headers) (n : FieldName) : List String :=
  let texts := (h.values n).filterMap (·.text?)
  let pieces := texts.flatMap fun t => (Text.pieces ',' t.toList).map Text.trimBlank
  (pieces.filter (· ≠ [])).map String.ofList

def describe (h : Headers) : String :=
  let fields := h.names.flatMap fun n => (h.values n).map fun v =>
    "\"" ++ n.text ++ "\": " ++ v.describe
  "\x7b" ++ ", ".intercalate fields ++ "\x7d"

end Headers

end WebSocketEngine.Http
