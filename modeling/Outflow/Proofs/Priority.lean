import Mathlib.Data.List.Induction
import Mathlib.Tactic.NormNum
import Outflow.Proofs.Numeral
import Outflow.Routing.Load

/-!
# Which source counts

A routing is loaded from the environment, a file and the defaults.  Each field is settled on its own: by its
variable if that is set, else by the entry of its name, else by its default; nothing else of the environment
or of the file counts.

* `Value.under`, `Yaml.Document.mapping`: the mapping that a document holds, and the entry under a name;
* `Holds`: the mapping that a file holds, which is empty if there is no file or no mapping in it;
* `source`, `load_eq`: the value that settles a field, and loading as a function of these values alone;
* `Supplied`: the ways in which the value of a field can be supplied;
* `load_exact`: what is loaded depends on the sources alone, and what is supplied is what is loaded.
-/

namespace Outflow

open Text (Codes codesOf)

/-! ### Steps that can fail -/

section

variable {ε α β : Type} {e : Except ε α} {f : α → Except ε β}

@[simp] theorem ok_bind (a : α) : ((.ok a : Except ε α) >>= f) = f a := rfl

theorem exists_of_bind_eq_ok {b : β} (h : (e >>= f) = .ok b) : ∃ a, e = .ok a ∧ f a = .ok b := by
  cases e with
  | error err => cases h
  | ok a => exact ⟨a, rfl, h⟩

theorem of_bind_eq_error {err : ε} (h : (e >>= f) = .error err) :
    e = .error err ∨ ∃ a, e = .ok a ∧ f a = .error err := by
  cases e with
  | error err' =>
    cases h
    exact .inl rfl
  | ok a => exact .inr ⟨a, rfl, h⟩

end

/-! ### The mapping of a document -/

namespace Value

/-- The value under a text in a mapping. -/
def under (cs : Codes) (es : List (Value × Value)) : Option Value :=
  (es.find? fun e => sameKey e.1 (.text cs)).map Prod.snd

/-- Only a text is the same key as a text. -/
theorem sameKey_text_iff {v : Value} {cs : Codes} : sameKey v (.text cs) = true ↔ v = .text cs := by
  cases v <;> simp [sameKey]

theorem text_sameKey_iff {v : Value} {cs : Codes} : sameKey (.text cs) v = true ↔ v = .text cs := by
  cases v with
  | text cs' => simpa [sameKey] using eq_comm
  | _ => simp [sameKey]

variable {cs : Codes} {k v : Value}

theorem under_cons_of_eq (es : List (Value × Value)) : under cs ((.text cs, v) :: es) = some v := by
  have hk : sameKey (.text cs) (.text cs) = true := sameKey_text_iff.mpr rfl
  simp only [under, List.find?_cons, hk, Option.map_some]

theorem under_cons_of_ne (h : k ≠ .text cs) (es : List (Value × Value)) :
    under cs ((k, v) :: es) = under cs es := by
  have hk : sameKey k (.text cs) = false := Bool.eq_false_iff.mpr fun hs => h (sameKey_text_iff.mp hs)
  simp only [under, List.find?_cons, hk]

/-- An entry that is put into a mapping is found there. -/
theorem under_put_of_eq (es : List (Value × Value)) : under cs (put (.text cs) v es) = some v := by
  induction es with
  | nil => exact under_cons_of_eq []
  | cons e rest ih =>
    obtain ⟨k, w⟩ := e
    by_cases hk : k = .text cs
    · rw [hk, put, if_pos (sameKey_text_iff.mpr rfl)]
      exact under_cons_of_eq rest
    · rw [put, if_neg fun hs => hk (sameKey_text_iff.mp hs), under_cons_of_ne hk, ih]

/-- An entry that is put into a mapping changes nothing under other names. -/
theorem under_put_of_ne (h : k ≠ .text cs) (es : List (Value × Value)) :
    under cs (put k v es) = under cs es := by
  induction es with
  | nil => exact under_cons_of_ne h []
  | cons e rest ih =>
    obtain ⟨k', w⟩ := e
    by_cases hk' : k' = .text cs
    · subst hk'
      rw [put, if_neg fun hs => h (text_sameKey_iff.mp hs), under_cons_of_eq, under_cons_of_eq]
    · rw [put]
      split
      · rw [under_cons_of_ne hk', under_cons_of_ne hk']
      · rw [under_cons_of_ne hk', under_cons_of_ne hk', ih]

/-- Of repeated entries the last one counts. -/
theorem under_distinct (es : List (Value × Value)) : under cs (distinct es) = under cs es.reverse := by
  induction es using List.reverseRecOn with
  | nil => rfl
  | append_singleton es e ih =>
    obtain ⟨k, w⟩ := e
    rw [distinct, List.foldl_append, List.foldl_cons, List.foldl_nil, ← distinct, List.reverse_append,
      List.reverse_singleton, List.singleton_append]
    by_cases hk : k = .text cs
    · rw [hk, under_put_of_eq, under_cons_of_eq]
    · rw [under_put_of_ne hk, under_cons_of_ne hk, ih]

end Value

namespace Yaml.Document

/-- The outermost mapping of a document, with the values of its entries; empty if there is none. -/
def mapping (d : Document) : List (Value × Value) :=
  Value.distinct (d.entries.map fun e => (d.valueAt e.1, d.valueAt e.2))

/-- A node is worth a text if its value is that text. -/
theorem isText_iff {d : Document} {cs : Codes} {place : Nat} :
    d.isText cs place = true ↔ d.valueAt place = .text cs := by
  rw [isText, valueAt, valueFrom]
  rcases d.worthAt place with v | _ | _ | _ | _
  · cases v <;> simp
  all_goals
    cases d.graph.contentAt place <;> simp

/-- The field of a document is what its mapping holds under the name. -/
theorem field?_eq (d : Document) (name : String) : d.field? name = Value.under (codesOf name) d.mapping := by
  have hkey : (fun e => Value.sameKey (d.valueAt e.1) (.text (codesOf name)))
      = fun e : Nat × Nat => d.isText (codesOf name) e.1 := by
    funext e
    rw [Bool.eq_iff_iff, Value.sameKey_text_iff, isText_iff]
  rw [mapping, Value.under_distinct, ← List.map_reverse, Value.under, List.find?_map, field?, Option.map_map,
    ← hkey]
  rfl

end Yaml.Document

/-! ### Where the value of a field comes from -/

namespace Routing

/-- The fields of a routing. -/
inductive Field
  | stdout
  | stderr
  | capacity
  deriving DecidableEq

/-- The name of a field in a file. -/
def Field.key : Field → String
  | .stdout => "stdout"
  | .stderr => "stderr"
  | .capacity => "pipe_capacity"

/-- The variable of the environment for a field. -/
def Field.variableName : Field → String
  | .stdout => "GHCIWATCH_STDOUT"
  | .stderr => "GHCIWATCH_STDERR"
  | .capacity => "GHCIWATCH_PIPE_CAPACITY"

/-- The default of a field. -/
def Field.usual : Field → Value
  | .stdout => .text Asked.default.stdout
  | .stderr => .text Asked.default.stderr
  | .capacity => .int Asked.default.capacity

/-- The mapping that a file holds; it is empty if there is no file, or no mapping in it. -/
inductive Holds : Option Bytes → List (Value × Value) → Prop
  | absent : Holds none []
  | document {bytes : Bytes} {text : Codes} {d : Yaml.Document} (encoded : Text.Utf8.decode bytes = .ok text)
      (written : Yaml.Document.read text = .ok d) : Holds (some bytes) d.mapping

/-- The value that settles a field: that of its variable, or else its entry, or else its default. -/
def source (env : Environment) (m : List (Value × Value)) (f : Field) : Value :=
  (((env.get? f.variableName).map Value.text).or (Value.under (codesOf f.key) m)).getD f.usual

/-- What the values of the fields ask for. -/
def askedBy (v : Field → Value) : Except LoadError Asked := do
  let capacity ← capacityOf (v .capacity)
  let out ← nameOf (v .stdout)
  let err ← nameOf (v .stderr)
  return ⟨out, err, capacity⟩

/-- The routing of the values of the fields. -/
def routedBy (v : Field → Value) : Except LoadError Routing := do
  match ofAsked (← askedBy v) with
  | .ok r => return r
  | .error e => .error (.invalid e)

variable {env : Environment} {file : Option Bytes} {m : List (Value × Value)}

theorem orElse_eq {α : Type} {read : Value → Except LoadError α} {usual : α} {w : Value}
    (h : read w = .ok usual) (v : Option Value) : orElse v read usual = read (v.getD w) := by
  cases v with
  | none => exact h.symm
  | some v => rfl

theorem Given.asked_eq (g : Given) :
    g.asked = askedBy fun
      | .stdout => g.stdout.getD (Field.usual .stdout)
      | .stderr => g.stderr.getD (Field.usual .stderr)
      | .capacity => g.capacity.getD (Field.usual .capacity) := by
  have hcap : capacityOf (Field.usual .capacity) = .ok Asked.default.capacity := rfl
  have hout : nameOf (Field.usual .stdout) = .ok Asked.default.stdout := rfl
  have herr : nameOf (Field.usual .stderr) = .ok Asked.default.stderr := rfl
  simp only [Given.asked, askedBy, orElse_eq hcap, orElse_eq hout, orElse_eq herr]

/-- A file gives the entries of the mapping that it holds. -/
theorem Holds.given (h : Holds file m) :
    Given.ofFile file = .ok ⟨Value.under (codesOf "stdout") m, Value.under (codesOf "stderr") m,
      Value.under (codesOf "pipe_capacity") m⟩ := by
  cases h with
  | absent => rfl
  | document encoded written =>
    simp only [Given.ofFile, encoded, written, Given.ofDocument, Yaml.Document.field?_eq]

/-- What is loaded is a function of the values that settle the fields. -/
theorem load_eq (h : Holds file m) (env : Environment) : load env file = routedBy (source env m) := by
  have hs : (fun
      | .stdout => source env m .stdout
      | .stderr => source env m .stderr
      | .capacity => source env m .capacity) = source env m := by
    funext f
    cases f <;> rfl
  rw [load, h.given, ok_bind, Given.asked_eq, routedBy, ← hs]
  rfl

/-! ### Supplying a routing -/

/-- The text of a field of a routing. -/
def fieldText (r : Routing) : Field → String
  | .stdout => r.stdout.name
  | .stderr => r.stderr.name
  | .capacity => toString r.capacity

/-- The values that stand for a field of a routing: its text, or for a capacity the integer, or for the null
destination nothing at all. -/
inductive StandsFor (r : Routing) : Field → Value → Prop
  | text (f : Field) : StandsFor r f (.ofString (r.fieldText f))
  | integer : StandsFor r .capacity (.int r.capacity)
  | nullOutput (h : r.stdout = .null) : StandsFor r .stdout .null
  | nullError (h : r.stderr = .null) : StandsFor r .stderr .null

/-- The ways in which a field of a routing can be supplied: by its variable, or else by its entry, or else as
the default. -/
inductive Supplied (env : Environment) (m : List (Value × Value)) (r : Routing) (f : Field) : Prop
  | byVariable (set : env.get? f.variableName = some (codesOf (r.fieldText f)))
  | byEntry (v : Value) (unset : env.get? f.variableName = none)
      (present : Value.under (codesOf f.key) m = some v) (stands : StandsFor r f v)
  | byDefault (unset : env.get? f.variableName = none) (absent : Value.under (codesOf f.key) m = none)
      (stands : StandsFor r f f.usual)

/-- However a field is supplied, a value that stands for it settles it. -/
theorem Supplied.source {r : Routing} {f : Field} (h : Supplied env m r f) :
    StandsFor r f (source env m f) := by
  rw [Routing.source]
  cases h with
  | byVariable set =>
    rw [set]
    exact .text f
  | byEntry v unset present stands =>
    rw [unset, present]
    exact stands
  | byDefault unset absent stands =>
    rw [unset, absent]
    exact stands

/-- What a routing asks for. -/
def toAsked (r : Routing) : Asked := ⟨codesOf r.stdout.name, codesOf r.stderr.name, r.capacity⟩

theorem destination_name {d : Destination} (h : d ∈ nameable) (stream : StreamName) :
    destination stream (codesOf d.name) = .ok d := by
  have hd : d = .null ∨ d = .stderr ∨ d = .stdout := by simpa [nameable] using h
  rcases hd with rfl | rfl | rfl <;> rfl

/-- A routing that is accepted is the one that it asks for. -/
theorem ofAsked_toAsked {a : Asked} {r : Routing} (h : ofAsked a = .ok r) : ofAsked r.toAsked = .ok r := by
  obtain ⟨out, hout, h⟩ := exists_of_bind_eq_ok h
  obtain ⟨err, herr, h⟩ := exists_of_bind_eq_ok h
  obtain ⟨capacity, hcap, h⟩ := exists_of_bind_eq_ok h
  cases h
  have hpos : positive (capacity : Int) = .ok capacity :=
    positive_eq_ok_iff.mpr ⟨(positive_eq_ok_iff.mp hcap).1, rfl⟩
  simp only [ofAsked, toAsked, destination_name (destination_mem hout), destination_name (destination_mem herr),
    hpos]
  rfl

theorem nameOf_standsFor_output {r : Routing} {v : Value} (h : StandsFor r .stdout v) :
    nameOf v = .ok r.toAsked.stdout := by
  cases h with
  | text => rfl
  | nullOutput h => rw [toAsked, h]; rfl

theorem nameOf_standsFor_error {r : Routing} {v : Value} (h : StandsFor r .stderr v) :
    nameOf v = .ok r.toAsked.stderr := by
  cases h with
  | text => rfl
  | nullError h => rw [toAsked, h]; rfl

theorem capacityOf_standsFor {r : Routing} {v : Value} (h : StandsFor r .capacity v)
    (hlim : r.capacity < 10 ^ Number.digitLimit) : capacityOf v = .ok r.toAsked.capacity := by
  cases h with
  | integer => rfl
  | text =>
    have hread := Number.readInteger_toString hlim
    simp only [capacityOf, Value.ofString, integer?, fieldText, hread, ofNumeral]
    rfl

/-- Values that stand for the fields of an accepted routing lead to that routing. -/
theorem routedBy_of_standsFor {a : Asked} {r : Routing} {v : Field → Value} (ha : ofAsked a = .ok r)
    (hlim : r.capacity < 10 ^ Number.digitLimit) (h : ∀ f, StandsFor r f (v f)) : routedBy v = .ok r := by
  have hasked : askedBy v = .ok r.toAsked := by
    simp only [askedBy, capacityOf_standsFor (h .capacity) hlim, nameOf_standsFor_output (h .stdout),
      nameOf_standsFor_error (h .stderr)]
    rfl
  simp only [routedBy, hasked]
  rw [ok_bind, ofAsked_toAsked ha]
  rfl

/-- What is loaded depends on the values that settle the fields, and on nothing else of the environment and
of the file; and when each field of an accepted routing is supplied, whichever way, that routing is loaded. -/
theorem load_exact (hm : Holds file m) (env : Environment) :
    (∀ env' file' m', Holds file' m' → (∀ f, source env m f = source env' m' f) →
      load env file = load env' file')
    ∧ ∀ a r, ofAsked a = .ok r → r.capacity < 10 ^ 4300 → (∀ f, Supplied env m r f) →
      load env file = .ok r := by
  constructor
  · intro env' file' m' hm' hsame
    rw [load_eq hm, load_eq hm', funext hsame]
  · intro a r ha hlim hsupplied
    rw [load_eq hm]
    have hlim' : r.capacity < 10 ^ Number.digitLimit := by
      rw [Number.digitLimit]
      exact hlim
    exact routedBy_of_standsFor ha hlim' fun f => (hsupplied f).source

/-- A text for a file: the capacity as a text, and an error stream that is no name. -/
def mixedText : Codes := codesOf "pipe_capacity: '17'\nstderr: [1]\n"

theorem read_mixedText : ∃ d, Yaml.Document.read mixedText = .ok d ∧ d.field? "stdout" = none
    ∧ d.field? "pipe_capacity" = some (.ofString "17") := by
  have hd : (match Yaml.Document.read mixedText with
      | .ok d => (d.field? "stdout").isNone
        && (d.field? "pipe_capacity").any fun v => Value.sameKey v (.ofString "17")
      | .error _ => false) = true := by
    decide +kernel
  cases hr : Yaml.Document.read mixedText with
  | error e => simp [hr] at hd
  | ok d =>
    simp only [hr, Bool.and_eq_true, Option.isNone_iff_eq_none, Option.any_eq_true] at hd
    obtain ⟨hnone, v, hv, hkey⟩ := hd
    exact ⟨d, rfl, hnone, by rw [hv, Value.sameKey_text_iff.mp hkey]; rfl⟩

/-- The environment settles the error stream, the file the capacity, and the default the output; what the
file says about the error stream does not count. -/
theorem load_by_turns :
    load [("GHCIWATCH_STDERR", codesOf "stdout")] (some (mixedText.map UInt8.ofNat)) =
        .ok ⟨.stdout, .stdout, 17⟩
    ∧ load [("GHCIWATCH_STDERR", codesOf "stdout")] (some (mixedText.map UInt8.ofNat))
      = load [("GHCIWATCH_STDERR", codesOf "stdout"), ("GHCIWATCH_PIPE_CAPACITY", codesOf "17")] none := by
  have hdecode : Text.Utf8.decode (mixedText.map UInt8.ofNat) = .ok mixedText := rfl
  obtain ⟨d, hd, hout, hcap⟩ := read_mixedText
  rw [Yaml.Document.field?_eq] at hout hcap
  obtain ⟨hsame, hloaded⟩ := load_exact (.document hdecode hd) [("GHCIWATCH_STDERR", codesOf "stdout")]
  constructor
  · have hpow : ∀ n, n < 10 ^ n := fun n => Nat.lt_pow_self (by norm_num)
    have hlim : 17 < 10 ^ 4300 := lt_trans (by norm_num) (hpow 4300)
    refine hloaded ⟨codesOf "stdout", codesOf "stdout", 17⟩ _ rfl hlim fun f => ?_
    cases f with
    | stdout => exact .byDefault rfl hout (.text .stdout)
    | stderr => exact .byVariable rfl
    | capacity => exact .byEntry (.ofString "17") rfl hcap (.text .capacity)
  · refine hsame _ none [] .absent fun f => ?_
    cases f with
    | stdout => simp only [source, Field.key, hout]; rfl
    | stderr => rfl
    | capacity => simp only [source, Field.key, hcap]; rfl

end Routing

end Outflow
