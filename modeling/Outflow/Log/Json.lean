import Outflow.Log.Record

/-!
# Log lines in JSON

A record is one JSON object in ASCII, with a blank after every comma and colon.

* `escapeUnit`, `escapeCode`: the escapes of a UTF-16 unit and of a code point;
* `jsonText`: a text between quotes;
* `jsonLine`: a record.
-/

namespace Outflow.Log

open Text (Codes codesOf hexDigits quoted)

/-- The escape of a UTF-16 unit. -/
def escapeUnit (u : Nat) : List Char := '\\' :: 'u' :: hexDigits 4 u

/-- A code point inside a JSON text.  Beyond the basic plane it takes two units. -/
def escapeCode (c : Nat) : List Char :=
  if c = 34 then ['\\', '"']
  else if c = 92 then ['\\', '\\']
  else if c = 10 then ['\\', 'n']
  else if c = 13 then ['\\', 'r']
  else if c = 9 then ['\\', 't']
  else if c = 8 then ['\\', 'b']
  else if c = 12 then ['\\', 'f']
  else if 32 ≤ c && c < 127 then [Char.ofNat c]
  else if c < 0x10000 then escapeUnit c
  else escapeUnit (0xD800 + (c - 0x10000) / 0x400) ++ escapeUnit (0xDC00 + (c - 0x10000) % 0x400)

/-- A text between quotes. -/
def jsonText (cs : Codes) : List Char := '"' :: (cs.flatMap escapeCode ++ ['"'])

/-- Parts with a comma and a blank between them. -/
def jsonJoined : List (List Char) → List Char
  | [] => []
  | [part] => part
  | part :: rest => part ++ ',' :: ' ' :: jsonJoined rest

/-- A number; those without digits have names. -/
def jsonDouble : Double → List Char
  | .nan => "NaN".toList
  | .infinite s => (if s then "-Infinity" else "Infinity").toList
  | x => x.text.toList

mutual

/-- A value in JSON.  A value that JSON does not know is written as the text that shows it. -/
def jsonValue : Value → List Char
  | .null => "null".toList
  | .bool b => (if b then "true" else "false").toList
  | .int n => (toString n).toList
  | .double x => jsonDouble x
  | .text cs => jsonText cs
  | .list items => '[' :: (jsonJoined (jsonItems items) ++ [']'])
  | .pairs items => '[' :: (jsonJoined (jsonPairs items) ++ [']'])
  | .map entries => Char.ofNat 123 :: (jsonJoined (jsonEntries entries) ++ [Char.ofNat 125])
  | v => jsonText (codesOf (v.show?.getD ""))

/-- Each value in JSON. -/
def jsonItems : List Value → List (List Char)
  | [] => []
  | v :: rest => jsonValue v :: jsonItems rest

/-- Each pair in JSON. -/
def jsonPairs : List (Value × Value) → List (List Char)
  | [] => []
  | (k, v) :: rest => ('[' :: (jsonJoined [jsonValue k, jsonValue v] ++ [']'])) :: jsonPairs rest

/-- Each entry of a mapping in JSON. -/
def jsonEntries : List (Value × Value) → List (List Char)
  | [] => []
  | (k, v) :: rest =>
    (jsonText (k.spell?.getD []) ++ ':' :: ' ' :: jsonValue v) :: jsonEntries rest

end

/-- A record as one JSON object. -/
def jsonLine (fields : Fields) : String :=
  String.ofList (jsonValue (.map (fields.map fun f => (.ofString f.1, f.2))))

end Outflow.Log
