import Outflow.Proofs.Naming

/-!
# What can be loaded

The values that settle the fields of a routing can be of any type.  Either they make up a routing, and that
routing is loaded, or loading is refused.

* `Names`, `MakesUp`: a value names a destination, and the values of the fields make up a routing;
* `Refused`: what is wrong with the values, by the error that says it;
* `routedBy_eq_ok_iff`, `refused_of_routedBy`: the routing of the values, and their errors;
* `load_settled`: what is loaded, and when and how loading is refused;
* `load_endless`: an infinite capacity is refused with an error of another class than all the others.
-/

namespace Outflow.Routing

open Text (Codes codesOf lower)

/-! ### What makes up a routing -/

/-- A value names a destination, in any letter case. -/
def Names (v : Value) (d : Destination) : Prop :=
  d ∈ nameable ∧ ∃ cs, nameOf v = .ok cs ∧ lower cs = codesOf d.name

/-- The values of the fields make up a routing. -/
structure MakesUp (v : Field → Value) (r : Routing) : Prop where
  stdout : Names (v .stdout) r.stdout
  stderr : Names (v .stderr) r.stderr
  capacity : integer? (v .capacity) = some (r.capacity : Int)
  positive : 1 ≤ r.capacity

/-- What is wrong with the values of the fields, by the error that says it. -/
inductive Refused (v : Field → Value) : LoadError → Prop
  | infinite (negative : Bool) (is : v .capacity = .double (.infinite negative)) : Refused v .infiniteCapacity
  | noInteger (shown : String) (no : integer? (v .capacity) = none)
      (shows : (v .capacity).show? = some shown) : Refused v (.noInteger shown)
  /-- What is no integer has too many digits to be shown. -/
  | unshowable (no : integer? (v .capacity) = none) (mute : (v .capacity).show? = none) :
      Refused v .unshowable
  /-- What should be a name has too many digits to be one. -/
  | unspellable (f : Field) (isName : f ≠ .capacity) (mute : (v f).spell? = none) : Refused v .unshowable
  | stdout (cs : Codes) (is : nameOf (v .stdout) = .ok cs) (nameless : Nameless cs) :
      Refused v (.invalid (.destination .stdout (lower cs)))
  | stderr (cs : Codes) (is : nameOf (v .stderr) = .ok cs) (nameless : Nameless cs) :
      Refused v (.invalid (.destination .stderr (lower cs)))
  | capacity (n : Int) (is : integer? (v .capacity) = some n) (low : n < 1) : Refused v (.invalid (.capacity n))

variable {v : Field → Value} {w : Value} {e : LoadError} {r : Routing} {d : Destination} {cs : Codes}
  {stream : StreamName} {n : Int}

/-- Whatever is wrong, the error is of one class, unless the capacity is infinite. -/
theorem Refused.label (h : Refused v e) (he : e ≠ .infiniteCapacity) : e.label = "ValueError" := by
  cases h with
  | infinite => exact absurd rfl he
  | _ => rfl

/-! ### The steps of loading -/

theorem capacityOf_eq_ok_iff : capacityOf w = .ok n ↔ integer? w = some n := by
  unfold capacityOf
  split
  · simp [integer?, Double.truncate?]
  · cases integer? w with
    | some k => simp
    | none => cases w.show? <;> simp

theorem capacityOf_infinite (negative : Bool) :
    capacityOf (.double (.infinite negative)) = .error .infiniteCapacity := rfl

/-- A capacity is refused for what it is. -/
theorem refused_of_capacityOf (h : capacityOf (v .capacity) = .error e) : Refused v e := by
  unfold capacityOf at h
  split at h
  · rename_i negative heq
    cases h
    exact .infinite negative heq
  · cases hi : integer? (v .capacity) with
    | some k =>
      rw [hi] at h
      cases h
    | none =>
      cases hs : (v .capacity).show? with
      | some shown =>
        rw [hi, hs] at h
        cases h
        exact .noInteger shown hi hs
      | none =>
        rw [hi, hs] at h
        cases h
        exact .unshowable hi hs

/-- A value that gives no name has too many digits. -/
theorem of_nameOf_eq_error (h : nameOf w = .error e) : e = .unshowable ∧ w.spell? = none := by
  unfold nameOf at h
  split at h
  · cases h
  · split at h
    · cases h
    · rename_i hs
      cases h
      exact ⟨rfl, hs⟩

/-- A text that is refused for one of the streams is no name at all. -/
theorem of_destination_eq_error {i : Invalid} (h : destination stream cs = .error i) :
    i = .destination stream (lower cs) ∧ Nameless cs := by
  have hlower : ∀ d ∈ nameable, lower cs ≠ codesOf d.name := by
    intro d hd hname
    rw [destination_eq_ok_iff.2 ⟨hd, hname⟩] at h
    cases h
  rw [destination_eq_error hlower, Except.error.injEq] at h
  refine ⟨h.symm, nameless_of_not_spelled fun d hd hname => ?_⟩
  exact hlower d hd ((Destination.lower_eq_name_iff hd).2 hname)

theorem askedBy_eq_ok_iff {a : Asked} :
    askedBy v = .ok a ↔ integer? (v .capacity) = some a.capacity ∧ nameOf (v .stdout) = .ok a.stdout ∧
      nameOf (v .stderr) = .ok a.stderr := by
  constructor
  · intro h
    obtain ⟨capacity, hcap, h⟩ := exists_of_bind_eq_ok h
    obtain ⟨out, hout, h⟩ := exists_of_bind_eq_ok h
    obtain ⟨err, herr, h⟩ := exists_of_bind_eq_ok h
    cases h
    exact ⟨capacityOf_eq_ok_iff.1 hcap, hout, herr⟩
  · rintro ⟨hcap, hout, herr⟩
    simp only [askedBy, capacityOf_eq_ok_iff.2 hcap, hout, herr]
    rfl

theorem ofAsked_eq_ok_iff {a : Asked} :
    ofAsked a = .ok r ↔ destination .stdout a.stdout = .ok r.stdout ∧
      destination .stderr a.stderr = .ok r.stderr ∧ Routing.positive a.capacity = .ok r.capacity := by
  constructor
  · intro h
    obtain ⟨out, hout, h⟩ := exists_of_bind_eq_ok h
    obtain ⟨err, herr, h⟩ := exists_of_bind_eq_ok h
    obtain ⟨capacity, hcap, h⟩ := exists_of_bind_eq_ok h
    cases h
    exact ⟨hout, herr, hcap⟩
  · rintro ⟨hout, herr, hcap⟩
    simp only [ofAsked, hout, herr, hcap]
    rfl

/-! ### The routing of the values of the fields -/

theorem routedBy_eq_ok_iff : routedBy v = .ok r ↔ MakesUp v r := by
  constructor
  · intro h
    obtain ⟨a, ha, h⟩ := exists_of_bind_eq_ok h
    split at h
    · rename_i r' hr'
      cases h
      obtain ⟨hcap, hout, herr⟩ := askedBy_eq_ok_iff.1 ha
      obtain ⟨hstdout, hstderr, hpos⟩ := ofAsked_eq_ok_iff.1 hr'
      obtain ⟨hmem, hname⟩ := destination_eq_ok_iff.1 hstdout
      obtain ⟨hmem', hname'⟩ := destination_eq_ok_iff.1 hstderr
      obtain ⟨hpositive, hcapacity⟩ := positive_eq_ok_iff.1 hpos
      exact ⟨⟨hmem, _, hout, hname⟩, ⟨hmem', _, herr, hname'⟩, hcapacity ▸ hcap, hpositive⟩
    · cases h
  · rintro ⟨⟨hmem, out, hout, hname⟩, ⟨hmem', err, herr, hname'⟩, hcap, hpos⟩
    have hasked : askedBy v = .ok ⟨out, err, r.capacity⟩ := askedBy_eq_ok_iff.2 ⟨hcap, hout, herr⟩
    have hrouted : ofAsked ⟨out, err, r.capacity⟩ = .ok r :=
      ofAsked_eq_ok_iff.2 ⟨destination_eq_ok_iff.2 ⟨hmem, hname⟩, destination_eq_ok_iff.2 ⟨hmem', hname'⟩,
        positive_eq_ok_iff.2 ⟨hpos, rfl⟩⟩
    rw [routedBy, hasked, ok_bind, hrouted]
    rfl

/-- What is wrong with the values is what the first step says that fails. -/
theorem refused_of_routedBy (h : routedBy v = .error e) : Refused v e := by
  rcases of_bind_eq_error h with h | ⟨a, ha, h⟩
  · rcases of_bind_eq_error h with h | ⟨capacity, -, h⟩
    · exact refused_of_capacityOf h
    rcases of_bind_eq_error h with h | ⟨out, -, h⟩
    · obtain ⟨rfl, hmute⟩ := of_nameOf_eq_error h
      exact .unspellable .stdout (by decide) hmute
    rcases of_bind_eq_error h with h | ⟨err, -, h⟩
    · obtain ⟨rfl, hmute⟩ := of_nameOf_eq_error h
      exact .unspellable .stderr (by decide) hmute
    · cases h
  · obtain ⟨hcap, hout, herr⟩ := askedBy_eq_ok_iff.1 ha
    split at h
    · cases h
    rename_i i hi
    cases h
    rcases of_bind_eq_error hi with h | ⟨d, -, h⟩
    · obtain ⟨rfl, hnameless⟩ := of_destination_eq_error h
      exact .stdout _ hout hnameless
    rcases of_bind_eq_error h with h | ⟨d', -, h⟩
    · obtain ⟨rfl, hnameless⟩ := of_destination_eq_error h
      exact .stderr _ herr hnameless
    rcases of_bind_eq_error h with h | ⟨n, -, h⟩
    · unfold Routing.positive at h
      split at h
      · rename_i hlow
        cases h
        exact .capacity _ hcap (by omega)
      · cases h
    · cases h

theorem routedBy_eq_infinite_iff :
    routedBy v = .error .infiniteCapacity ↔ ∃ negative, v .capacity = .double (.infinite negative) := by
  constructor
  · intro h
    cases refused_of_routedBy h with
    | infinite negative is => exact ⟨negative, is⟩
  · rintro ⟨negative, h⟩
    rw [routedBy, askedBy, h, capacityOf_infinite]
    rfl

/-! ### Loading -/

variable {file : Option Bytes} {m : List (Value × Value)}

/-- A routing is loaded exactly if the values that settle the fields make one up; it names two nameable
destinations and has a positive capacity.  Otherwise the error says what is wrong with the values and is of one
class, except that an infinite capacity, and nothing else, is refused with an error of another class. -/
theorem load_settled (hm : Holds file m) (env : Environment) :
    (∀ r, load env file = .ok r ↔ MakesUp (source env m) r)
    ∧ (∀ r, load env file = .ok r → r.stdout ∈ nameable ∧ r.stderr ∈ nameable ∧ 1 ≤ r.capacity)
    ∧ (∀ e, load env file = .error e → Refused (source env m) e ∧
        (e.label = "ValueError" ∨ e = .infiniteCapacity))
    ∧ (load env file = .error .infiniteCapacity ↔
        ∃ negative, source env m .capacity = .double (.infinite negative)) := by
  rw [load_eq hm]
  refine ⟨fun r => routedBy_eq_ok_iff, fun r hr => ?_, fun e he => ?_, routedBy_eq_infinite_iff⟩
  · have hmakes := routedBy_eq_ok_iff.1 hr
    exact ⟨hmakes.stdout.1, hmakes.stderr.1, hmakes.positive⟩
  · have hrefused := refused_of_routedBy he
    exact ⟨hrefused, (em _).symm.imp_left hrefused.label⟩

/-- A text for a file: the capacity is infinite. -/
def endlessText : Codes := codesOf "pipe_capacity: .inf\n"

/-- Whether a value is the positive infinite number. -/
def isEndless : Value → Bool
  | .double x => x = .infinite false
  | _ => false

theorem eq_of_isEndless {v : Value} (h : isEndless v = true) : v = .double (.infinite false) := by
  cases v with
  | double x => exact congrArg Value.double (of_decide_eq_true h)
  | _ => cases h

theorem read_endlessText : ∃ d, Yaml.Document.read endlessText = .ok d ∧ d.field? "stdout" = none
    ∧ d.field? "stderr" = none ∧ d.field? "pipe_capacity" = some (.double (.infinite false)) := by
  have hd : (Yaml.Document.read endlessText).toOption.any (fun d => (d.field? "stdout").isNone
      && (d.field? "stderr").isNone && (d.field? "pipe_capacity").any isEndless) = true := by
    decide +kernel
  obtain ⟨d, hread, hfields⟩ := (Option.any_eq_true ..).1 hd
  simp only [Bool.and_eq_true, Option.isNone_iff_eq_none] at hfields
  obtain ⟨⟨hout, herr⟩, hcap⟩ := hfields
  obtain ⟨v, hv, hendless⟩ := (Option.any_eq_true ..).1 hcap
  refine ⟨d, ?_, hout, herr, by rw [hv, eq_of_isEndless hendless]⟩
  cases hr : Yaml.Document.read endlessText with
  | error e =>
    rw [hr] at hread
    cases hread
  | ok d' =>
    rw [hr] at hread
    cases hread
    rfl

/-- The mapping that the text holds. -/
theorem holds_endlessText : ∃ m, Holds (some (endlessText.map UInt8.ofNat)) m ∧
    Value.under (codesOf "stdout") m = none ∧ Value.under (codesOf "stderr") m = none ∧
    Value.under (codesOf "pipe_capacity") m = some (.double (.infinite false)) := by
  have hdecode : Text.Utf8.decode (endlessText.map UInt8.ofNat) = .ok endlessText := rfl
  obtain ⟨d, hd, hout, herr, hcap⟩ := read_endlessText
  simp only [Yaml.Document.field?_eq] at hout herr hcap
  exact ⟨d.mapping, .document hdecode hd, hout, herr, hcap⟩

/-- A variable of the environment takes the place of the infinite capacity. -/
theorem load_over_endless :
    load [("GHCIWATCH_PIPE_CAPACITY", codesOf " 1_0 ")] (some (endlessText.map UInt8.ofNat)) = .ok ⟨.stdout, .stderr, 10⟩ := by
  obtain ⟨m, hm, hout, herr, -⟩ := holds_endlessText
  obtain ⟨hok, -⟩ := load_settled hm [("GHCIWATCH_PIPE_CAPACITY", codesOf " 1_0 ")]
  have hstdout : Destination.stdout ∈ nameable := by simp [nameable]
  have hstderr : Destination.stderr ∈ nameable := by simp [nameable]
  refine (hok _).2 ⟨⟨hstdout, _, ?_, lower_name hstdout⟩, ⟨hstderr, _, ?_, lower_name hstderr⟩, ?_, by decide⟩
  · simp only [source, Field.key, hout]
    rfl
  · simp only [source, Field.key, herr]
    rfl
  · rfl

/-- With nothing in its place the infinite capacity is refused, and the error is of another class. -/
theorem load_endless : ∃ e, load [] (some (endlessText.map UInt8.ofNat)) = .error e ∧ e.label ≠ "ValueError" := by
  obtain ⟨m, hm, -, -, hcap⟩ := holds_endlessText
  refine ⟨.infiniteCapacity, ?_, by simp [LoadError.label]⟩
  rw [load_eq hm, routedBy_eq_infinite_iff]
  refine ⟨false, ?_⟩
  simp only [source, Field.key, hcap]
  rfl

end Outflow.Routing
