import WebSocketEngine.Text.Unprintable

/-!
Text between double quotes.

A quote, a backslash and the characters NUL, tab, line feed and carriage return get a backslash;
a character without a shape of its own is written by its number in hexadecimal digits between
braces after `\u`; all else stands for itself.
-/

namespace WebSocketEngine.Text

/-- The number of a character, in hexadecimal digits without leading zeros. -/
def byNumber (c : Char) : List Char :=
  '\\' :: 'u' :: '\x7b' :: Nat.toDigits 16 c.toNat ++ ['\x7d']

/-- One character as it stands between quotes. -/
def quotedChar (c : Char) : List Char :=
  if c = '\"' then ['\\', '\"']
  else if c = '\\' then ['\\', '\\']
  else if c.toNat = 0 then ['\\', '0']
  else if c = '\t' then ['\\', 't']
  else if c = '\n' then ['\\', 'n']
  else if c = '\r' then ['\\', 'r']
  else if isUnprintable c then byNumber c
  else [c]

/-- A text between double quotes. -/
def quoted (s : String) : String :=
  String.ofList ('\"' :: s.toList.flatMap quotedChar ++ ['\"'])

end WebSocketEngine.Text
