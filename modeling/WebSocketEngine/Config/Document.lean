import WebSocketEngine.Config.Basic
import WebSocketEngine.Config.Scan

/-!
Defaults as a JSON document.

The document is an object with the fields `idle_timeout_ms`, `max_text_message_size` and
`max_binary_message_size`, each at most once and in any order, or a list of their values in this
order.  A field that is missing keeps its standard value; fields of other names are skipped.
-/

namespace WebSocketEngine.Defaults

open Scan

/-- The values read so far. -/
structure Draft where
  idleMillis : Option Nat
  maxText : Option Nat
  maxBinary : Option Nat

namespace Draft

def blank : Draft := ⟨none, none, none⟩

def finish (d : Draft) : Defaults where
  idleMillis := d.idleMillis.getD standard.idleMillis
  maxText := d.maxText.getD standard.maxText
  maxBinary := d.maxBinary.getD standard.maxBinary

end Draft

/-- A field of the document: what the draft holds of it, and how to fill it in. -/
structure Field where
  name : String
  read : Draft → Option Nat
  write : Draft → Nat → Draft

def fields : List Field :=
  [⟨"idle_timeout_ms", (·.idleMillis), fun d n => { d with idleMillis := some n }⟩,
    ⟨"max_text_message_size", (·.maxText), fun d n => { d with maxText := some n }⟩,
    ⟨"max_binary_message_size", (·.maxBinary), fun d n => { d with maxBinary := some n }⟩]

/-- The values of a list, one for each field until the list ends. -/
def ofItems : List Field → Bool → Draft → Bytes → Result Draft
  | [], _, d, bs => .ok (d, bs)
  | f :: fs, first, d, bs =>
    match skipBlanks bs with
    | [] => .error .cutShort
    | b :: rest =>
      if b = 0x5D then .ok (d, b :: rest)
      else if !first && b ≠ 0x2C then .error .malformed
      else
        let next := if first then b :: rest else skipBlanks rest
        match next with
        | [] => .error .cutShort
        | c :: _ =>
          if !first && c = 0x5D then .error .malformed
          else
            match whole next with
            | .error e => .error e
            | .ok (n, rest) => ofItems fs false (f.write d n) rest

/-- The entries of an object; `room` bounds their number. -/
def ofEntries : Nat → Bool → Draft → Bytes → Except Fault (Draft × Bytes)
  | 0, _, _, _ => .error .malformed
  | room + 1, first, d, bs =>
    match skipBlanks bs with
    | [] => .error .cutShort
    | b :: rest =>
      if b = 0x7D then .ok (d, b :: rest)
      else if !first && b ≠ 0x2C then .error .malformed
      else
        match if first then b :: rest else skipBlanks rest with
        | [] => .error .cutShort
        | q :: rest =>
          if q ≠ 0x22 then .error .malformed
          else do
            let (key, rest) ← string false rest
            let field := fields.find? fun f => Utf8.encode f.name = key
            if (field.bind (·.read d)).isSome then .error .unfitting
            else
              match skipBlanks rest with
              | [] => .error .cutShort
              | c :: rest =>
                if c ≠ 0x3A then .error .malformed
                else
                  match field with
                  | some f =>
                    let (n, rest) ← whole rest
                    ofEntries room false (f.write d n) rest
                  | none =>
                    let rest ← skip rest
                    ofEntries room false d rest

/-- The end of a list or object, and nothing but blanks after it. -/
def ending (close : UInt8) (bs : Bytes) : Except Fault Unit :=
  match skipBlanks bs with
  | [] => .error .cutShort
  | b :: rest => if b = close && (skipBlanks rest).isEmpty then .ok () else .error .malformed

/-- Reads a document. -/
def ofDocument (document : String) : Except Fault Defaults :=
  let bs := skipBlanks (Utf8.encode document)
  match bs with
  | [] => .error .cutShort
  | b :: rest =>
    if b = 0x5B then do
      let (d, rest) ← ofItems fields true .blank rest
      ending 0x5D rest
      return d.finish
    else if b = 0x7B then do
      let (d, rest) ← ofEntries (rest.length + 1) true .blank rest
      ending 0x7D rest
      return d.finish
    else .error (wrongType b rest)

end WebSocketEngine.Defaults
