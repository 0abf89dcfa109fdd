import Outflow.Yaml.Error

/-!
# Tokens

* `Token`: the parts that a document is made of;
* `TokenList`: the tokens that could be read, and why no more.
-/

namespace Outflow.Yaml

open Text (Codes)

/-- A part of a document. -/
inductive Token
  /-- A directive that names a version. -/
  | version (major : Nat)
  /-- A directive that lets a handle stand for the beginning of tags. -/
  | handle (name expansion : Codes)
  | otherDirective
  | documentStart
  | documentEnd
  | streamEnd
  /-- A list begins whose items are marked by hyphens. -/
  | blockItems
  /-- A mapping begins whose keys stand below each other. -/
  | blockEntries
  /-- The innermost block ends. -/
  | blockEnd
  | openItems
  | closeItems
  | openEntries
  | closeEntries
  /-- An item comes in a block. -/
  | item
  | comma
  | key
  | value
  /-- A node that was named before comes again. -/
  | again (name : Codes)
  | anchor (name : Codes)
  | tag (handle : Option Codes) (rest : Codes)
  | scalar (plain : Bool) (text : Codes)
  deriving DecidableEq

/-- The tokens that could be read, and why no more; a list without a fault ends with the stream. -/
structure TokenList where
  tokens : List Token
  fault : Option Error

end Outflow.Yaml
