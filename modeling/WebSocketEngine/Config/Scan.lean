import WebSocketEngine.Utf8.Sequence

/-!
Reading a JSON document from the front, byte by byte.

Reading stops at the first fault.  A fault is `cutShort` if the document ended too early,
`malformed` if a byte cannot stand where it is, and `unfitting` if the value is well written and of
the wrong type.  A value that is skipped over is judged more mildly than one that is read: its
numbers may be out of range, its strings may hold lone surrogates, and a number cut off by the end
of the document is malformed.
-/

namespace WebSocketEngine.Scan

/-- Why reading stopped. -/
inductive Fault
  | malformed
  | unfitting
  | cutShort
  deriving DecidableEq

/-- A piece of the document, and what follows it. -/
abbrev Result (α : Type) := Except Fault (α × Bytes)

/-! ### Bytes -/

def isBlank (b : UInt8) : Bool := b = 0x20 || b = 0x0A || b = 0x09 || b = 0x0D

def isDigit (b : UInt8) : Bool := 0x30 ≤ b && b ≤ 0x39

def digit (b : UInt8) : Nat := b.toNat - 0x30

def hexDigit? (b : UInt8) : Option Nat :=
  if isDigit b then some (digit b)
  else if 0x61 ≤ b && b ≤ 0x66 then some (b.toNat - 0x57)
  else if 0x41 ≤ b && b ≤ 0x46 then some (b.toNat - 0x37)
  else none

def skipBlanks (bs : Bytes) : Bytes := bs.dropWhile isBlank

/-- The bytes of an ASCII character. -/
def ascii (c : Char) : UInt8 := UInt8.ofNat c.toNat

/-- The rest of a word whose first letter was seen. -/
def word : Bytes → Bytes → Except Fault Bytes
  | [], bs => .ok bs
  | _ :: _, [] => .error .cutShort
  | e :: es, b :: bs => if e = b then word es bs else .error .malformed

/-! ### Strings -/

/-- Four hexadecimal digits. -/
def hexFour : Bytes → Result Nat
  | a :: b :: c :: d :: bs =>
    match hexDigit? a, hexDigit? b, hexDigit? c, hexDigit? d with
    | some a, some b, some c, some d => .ok (((a * 16 + b) * 16 + c) * 16 + d, bs)
    | _, _, _, _ => .error .malformed
  | _ => .error .cutShort

def isLeading (n : Nat) : Bool := 0xD800 ≤ n && n ≤ 0xDBFF

def isTrailing (n : Nat) : Bool := 0xDC00 ≤ n && n ≤ 0xDFFF

/-- The character after `\u`: one group of four digits, or two groups for a surrogate pair. -/
def unicodeEscape (bs : Bytes) : Except Fault (Char × Bytes) := do
  let (n, bs) ← hexFour bs
  if isTrailing n then .error .malformed
  else if !isLeading n then .ok (Char.ofNat n, bs)
  else
    let bs ← word [0x5C, 0x75] bs
    let (m, bs) ← hexFour bs
    if isTrailing m then
      .ok (Char.ofNat ((n - 0xD800) * 0x400 + (m - 0xDC00) + 0x10000), bs)
    else .error .malformed

/-- The byte that a one-letter escape stands for. -/
def shortEscape? (b : UInt8) : Option UInt8 :=
  if b = 0x22 || b = 0x5C || b = 0x2F then some b
  else if b = ascii 'b' then some 0x08
  else if b = ascii 'f' then some 0x0C
  else if b = ascii 'n' then some 0x0A
  else if b = ascii 'r' then some 0x0D
  else if b = ascii 't' then some 0x09
  else none

/-- What a backslash and the bytes after it stand for. -/
def escape (skipping : Bool) : Bytes → Result Bytes
  | [] => .error .cutShort
  | b :: bs =>
    match shortEscape? b with
    | some c => .ok ([c], bs)
    | none =>
      if b ≠ 0x75 then .error .malformed
      else if skipping then (hexFour bs).map fun r => ([], r.2)
      else (unicodeEscape bs).map fun r => (Utf8.encode r.1.toString, r.2)

/-- The string after its opening quote; `room` bounds the steps, `out` holds the pieces that were
    read, the last one first. -/
def stringFrom (skipping : Bool) : Nat → Bytes → List Bytes → Result Bytes
  | 0, _, _ => .error .cutShort
  | _ + 1, [], _ => .error .cutShort
  | room + 1, b :: bs, out =>
    if b = 0x22 then .ok (out.reverse.flatten, bs)
    else if b = 0x5C then
      match escape skipping bs with
      | .error e => .error e
      | .ok (c, rest) => stringFrom skipping room rest (c :: out)
    else if b < 0x20 then .error .malformed
    else stringFrom skipping room bs ([b] :: out)

/-- The string after its opening quote. -/
def string (skipping : Bool) (bs : Bytes) : Result Bytes :=
  stringFrom skipping (bs.length + 1) bs []

/-! ### Numbers -/

/-- A number as far as an integer field cares. -/
inductive Number
  /-- A whole number in the range of 64 bits. -/
  | whole (n : Nat)
  /-- Any other number. -/
  | other

/-- The largest number of 64 bits. -/
def maxWhole : Nat := UInt64.size - 1

/-- `n` rounded to 53 significant bits; a tie goes to the even neighbour. -/
def roundBits (n : Nat) : Nat :=
  let unit := Nat.pow 2 (n.log2 - 52)
  let q := n / unit
  let twice := 2 * (n % unit)
  (if unit < twice || (twice = unit && q % 2 = 1) then q + 1 else q) * unit

/-- Digits times a power of ten, as binary floating point of 64 bits, is no finite number. -/
def isInfinite (digits : Nat) (exponent : Int) : Bool :=
  digits ≠ 0 && 0 ≤ exponent
    && (308 < exponent
      || Nat.pow 2 1024 - Nat.pow 2 970
        ≤ roundBits digits * roundBits (Nat.pow 10 exponent.toNat))

def bounded (digits : Nat) (exponent : Int) (bs : Bytes) : Result Number :=
  if isInfinite digits exponent then .error .malformed else .ok (.other, bs)

/-- The digits at the front as a number, as long as it stays in 64 bits. -/
def absorb (digits : Nat) : Bytes → Nat × Nat × Bytes
  | [] => (digits, 0, [])
  | b :: bs =>
    if isDigit b && digits * 10 + digit b ≤ maxWhole then
      let (n, k, rest) := absorb (digits * 10 + digit b) bs
      (n, k + 1, rest)
    else (digits, 0, b :: bs)

/-- After the `e` of a number. -/
def exponentPart (digits : Nat) (exponent : Int) (bs : Bytes) : Result Number :=
  let (negative, bs) := match bs with
    | b :: rest => if b = 0x2D then (true, rest) else if b = 0x2B then (false, rest) else (false, bs)
    | [] => (false, bs)
  match bs with
  | [] => .error .cutShort
  | b :: rest =>
    if !isDigit b then .error .malformed
    else
      let n := (rest.takeWhile isDigit).foldl (fun n b => n * 10 + digit b) (digit b)
      bounded digits (if negative then exponent - n else exponent + n) (rest.dropWhile isDigit)

def isExponentMark (b : UInt8) : Bool := b = 0x65 || b = 0x45

/-- What may follow the digits of a number that is no whole number any more. -/
def scaled (digits : Nat) (exponent : Int) : Bytes → Result Number
  | b :: bs =>
    if isExponentMark b then exponentPart digits exponent bs else bounded digits exponent (b :: bs)
  | [] => bounded digits exponent []

/-- After the point of a number. -/
def fractionPart (digits : Nat) (exponent : Int) (bs : Bytes) : Result Number :=
  let (n, places, rest) := absorb digits bs
  match rest with
  | b :: _ =>
    if isDigit b then scaled n (exponent - places) (rest.dropWhile isDigit)
    else if places = 0 then .error .malformed
    else scaled n (exponent - places) rest
  | [] => if places = 0 then .error .cutShort else scaled n (exponent - places) []

/-- After the whole part of a number, of which `dropped` digits did not fit. -/
def afterWhole (negative : Bool) (digits dropped : Nat) (bs : Bytes) : Result Number :=
  match bs with
  | b :: rest =>
    if b = 0x2E then fractionPart digits dropped rest
    else if isExponentMark b then exponentPart digits dropped rest
    else if dropped = 0 then .ok (if negative then .other else .whole digits, bs)
    else bounded digits dropped bs
  | [] =>
    if dropped = 0 then .ok (if negative then .other else .whole digits, [])
    else bounded digits dropped []

/-- The number at the front, its sign already seen. -/
def number (negative : Bool) : Bytes → Result Number
  | [] => .error .cutShort
  | b :: bs =>
    if b = 0x30 then
      match bs with
      | c :: _ => if isDigit c then .error .malformed else afterWhole negative 0 0 bs
      | [] => afterWhole negative 0 0 []
    else if isDigit b then
      let (n, _, rest) := absorb (digit b) bs
      afterWhole negative n (rest.takeWhile isDigit).length (rest.dropWhile isDigit)
    else .error .malformed

/-! ### Skipping -/

/-- At least one digit, and those that follow. -/
def someDigits : Bytes → Except Fault Bytes
  | [] => .error .malformed
  | b :: bs => if isDigit b then .ok (bs.dropWhile isDigit) else .error .malformed

def skipExponent : Bytes → Except Fault Bytes
  | [] => .ok []
  | b :: bs =>
    if !isExponentMark b then .ok (b :: bs)
    else
      match bs with
      | c :: rest => someDigits (if c = 0x2B || c = 0x2D then rest else bs)
      | [] => .error .malformed

/-- Skips a number, its sign already seen. -/
def skipNumber : Bytes → Except Fault Bytes
  | [] => .error .malformed
  | b :: bs => do
    let rest ← if b = 0x30 then
        match bs with
        | c :: _ => if isDigit c then .error .malformed else pure bs
        | [] => pure bs
      else someDigits (b :: bs)
    match rest with
    | c :: rest' => if c = 0x2E then someDigits rest' >>= skipExponent else skipExponent rest
    | [] => pure []

/-- What is open around a value that is skipped. -/
inductive Bracket
  | list
  | object
  deriving DecidableEq

def Bracket.closing : Bracket → UInt8
  | list => 0x5D
  | object => 0x7D

/-- What must come next. -/
inductive Expect
  | value
  /-- The first entry of a bracket, or its end. -/
  | entry
  | key
  /-- A comma, or the end of a bracket. -/
  | more

/-- Skips what is left of a value inside the brackets `around`, the innermost first; `room` bounds
    the steps. -/
def skipFrom : Nat → Expect → List Bracket → Bytes → Except Fault Bytes
  | 0, _, _, _ => .error .malformed
  | _ + 1, .more, [], bs => .ok bs
  | room + 1, expect, around, bs =>
    match expect, around, skipBlanks bs with
    | _, _, [] => .error .cutShort
    | .more, [], rest => .ok rest
    | .more, k :: ks, b :: rest =>
      if b = k.closing then skipFrom room .more ks rest
      else if b ≠ 0x2C then .error .malformed
      else skipFrom room (if k = .list then .value else .key) around rest
    | .entry, [], b :: rest => skipFrom room .value [] (b :: rest)
    | .entry, k :: ks, b :: rest =>
      if b = k.closing then skipFrom room .more ks rest
      else skipFrom room (if k = .list then .value else .key) around (b :: rest)
    | .key, _, b :: rest =>
      if b ≠ 0x22 then .error .malformed
      else
        match string true rest with
        | .error e => .error e
        | .ok (_, rest) =>
          match skipBlanks rest with
          | [] => .error .cutShort
          | c :: rest => if c = 0x3A then skipFrom room .value around rest else .error .malformed
    | .value, _, b :: rest =>
      if b = 0x5B then skipFrom room .entry (.list :: around) rest
      else if b = 0x7B then skipFrom room .entry (.object :: around) rest
      else
        let after := if b = ascii 'n' then word (Utf8.encode "ull") rest
          else if b = ascii 't' then word (Utf8.encode "rue") rest
          else if b = ascii 'f' then word (Utf8.encode "alse") rest
          else if b = 0x22 then (string true rest).map (·.2)
          else if b = 0x2D then skipNumber rest
          else if isDigit b then skipNumber (b :: rest)
          else .error .malformed
        match after with
        | .error e => .error e
        | .ok rest => skipFrom room .more around rest

/-- Skips one value. -/
def skip (bs : Bytes) : Except Fault Bytes := skipFrom (2 * bs.length + 2) .value [] bs

/-! ### Values of a type -/

/-- The fault of a value of the wrong type, `b` being its first byte: the value's own fault, if it
    has one, comes first. -/
def wrongType (b : UInt8) (bs : Bytes) : Fault :=
  let read : Except Fault Unit :=
    if b = ascii 'n' then (word (Utf8.encode "ull") bs).map fun _ => ()
    else if b = ascii 't' then (word (Utf8.encode "rue") bs).map fun _ => ()
    else if b = ascii 'f' then (word (Utf8.encode "alse") bs).map fun _ => ()
    else if b = 0x22 then (string false bs).map fun _ => ()
    else if b = 0x2D then (number true bs).map fun _ => ()
    else if isDigit b then (number false (b :: bs)).map fun _ => ()
    else if b = 0x5B || b = 0x7B then .ok ()
    else .error .malformed
  match read with
  | .ok _ => .unfitting
  | .error e => e

/-- A whole number of 64 bits. -/
def whole (bs : Bytes) : Result Nat :=
  match skipBlanks bs with
  | [] => .error .cutShort
  | b :: rest =>
    let read :=
      if b = 0x2D then number true rest
      else if isDigit b then number false (b :: rest)
      else .error (wrongType b rest)
    match read with
    | .ok (.whole n, rest) => .ok (n, rest)
    | .ok (.other, _) => .error .unfitting
    | .error e => .error e

end WebSocketEngine.Scan
