/-!
Status codes of a CLOSE frame.

A code is one of the named ones or any other 16-bit number.  `ofValue` names a number when it can;
`other` keeps a number as it was written, so `other 1005` is not `noStatus`.
-/

namespace WebSocketEngine

/-- Why a connection closes. -/
inductive CloseCode
  /-- 1000: normal closure. -/
  | normal
  /-- 1001: the endpoint goes away; also idle expiry. -/
  | goingAway
  /-- 1002: the peer broke the protocol. -/
  | protocolError
  /-- 1005: the CLOSE frame carried no status; never written. -/
  | noStatus
  /-- 1007: the payload does not fit the type of its message. -/
  | badPayload
  /-- 1008: a policy was violated. -/
  | policy
  /-- 1009: a message exceeds its size limit. -/
  | messageTooLarge
  /-- 1011: the server met an unexpected condition. -/
  | serverError
  /-- Any other status. -/
  | other (value : UInt16)
  deriving DecidableEq

namespace CloseCode

/-- The number on the wire. -/
def value : CloseCode → UInt16
  | normal => 1000
  | goingAway => 1001
  | protocolError => 1002
  | noStatus => 1005
  | badPayload => 1007
  | policy => 1008
  | messageTooLarge => 1009
  | serverError => 1011
  | other n => n

/-- The code with a given number, named if the number has a name. -/
def ofValue (n : UInt16) : CloseCode :=
  if n = 1000 then normal
  else if n = 1001 then goingAway
  else if n = 1002 then protocolError
  else if n = 1005 then noStatus
  else if n = 1007 then badPayload
  else if n = 1008 then policy
  else if n = 1009 then messageTooLarge
  else if n = 1011 then serverError
  else other n

/-- The decimal number, as logs and answers write it. -/
def text (c : CloseCode) : String := toString c.value.toNat

def describe : CloseCode → String
  | normal => "Normal"
  | goingAway => "GoingAway"
  | protocolError => "Protocol"
  | noStatus => "NoStatus"
  | badPayload => "BadPayload"
  | policy => "Policy"
  | messageTooLarge => "MessageTooLarge"
  | serverError => "ServerError"
  | other n => "Other(" ++ toString n.toNat ++ ")"

end CloseCode

end WebSocketEngine
