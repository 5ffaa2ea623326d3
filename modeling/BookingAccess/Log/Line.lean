/-
**Lines of the log.**

A record is written on one line, as a JSON object or for the eye. The fields stand behind the
message in the order of the record.

* `LogRecord.line`: the record in one of the formats.
-/

import BookingAccess.Configuration.Basic
import BookingAccess.Log.Record

namespace BookingAccess

/-- A character inside a JSON string. -/
def jsonChar (c : Char) : List Char :=
  match c with
  | '"' => ['\\', '"']
  | '\\' => ['\\', '\\']
  | '\n' => ['\\', 'n']
  | '\r' => ['\\', 'r']
  | '\t' => ['\\', 't']
  | '\x08' => ['\\', 'b']
  | '\x0c' => ['\\', 'f']
  | c =>
    if c.toNat < 0x20 then
      ['\\', 'u', '0', '0', Nat.digitChar (c.toNat / 16), Nat.digitChar (c.toNat % 16)]
    else [c]

def jsonText (text : String) : String :=
  String.ofList ('"' :: text.toList.flatMap jsonChar ++ ['"'])

/-- A JSON object whose values are written already. -/
def jsonObject (fields : List (String × String)) : String :=
  let members := fields.map fun (name, value) => jsonText name ++ ":" ++ value
  "\x7b" ++ String.intercalate "," members ++ "\x7d"

namespace FieldValue

def json : FieldValue → String
  | .text value => jsonText value
  | .number value => toString value
  | .boolean value => toString value

def plain : FieldValue → String
  | .text value => value
  | .number value => toString value
  | .boolean value => toString value

end FieldValue

namespace LogRecord

def jsonLine (record : LogRecord) : String :=
  jsonObject [
    ("level", jsonText record.severity.render),
    ("fields", jsonObject (("message", jsonText record.message) ::
      record.fields.map fun (name, value) => (name, value.json))),
    ("target", jsonText record.target)]

def prettyLine (record : LogRecord) : String :=
  let fields := record.fields.map fun (name, value) => ", " ++ name ++ ": " ++ value.plain
  record.severity.render ++ " " ++ record.target ++ ": " ++ record.message ++ String.join fields

def line (format : LogFormat) (record : LogRecord) : String :=
  match format with
  | .json => record.jsonLine
  | .pretty => record.prettyLine

end LogRecord

end BookingAccess
