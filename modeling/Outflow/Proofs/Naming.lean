import Outflow.Proofs.Clones
import Outflow.Proofs.Lowercase
import Outflow.Proofs.Priority
import Outflow.Proofs.Session.History

/-!
# Names of destinations

A routing and an outlet each check the names that they are given, against a table of their own.  Both accept
the same texts, so a routing that was accepted never fails when it is put to use.

* `Destination.lower_eq_name_iff`: the texts that become a name in lower case are spelled with its letters;
* `Routing.destination_eq_ok_iff`, `Outlet.ofName_eq_ok_iff`: what the two checks accept;
* `Routing.Named`, `Routing.Nameless`: what a text gives that is a name, and what one that is none;
* `Routing.Accepted`, `Routing.Usable`: the routings that there can be, and what they are good for;
* `Routing.names_agree`: a text is a name for all or for none, and every accepted routing is usable.
-/

namespace Outflow

open Text (Codes codesOf lower asciiLower IsOwnLetter)

/-! ### What the two checks accept -/

namespace Destination

variable {d : Destination} {cs : Codes}

theorem cases_of_nameable (hd : d ∈ Routing.nameable) : d = .null ∨ d = .stderr ∨ d = .stdout := by
  simpa [Routing.nameable] using hd

theorem isOwnLetter_of_mem_name (hd : d ∈ Routing.nameable) : ∀ l ∈ codesOf d.name, IsOwnLetter l := by
  have hnull : codesOf "null" = [110, 117, 108, 108] := rfl
  have hstderr : codesOf "stderr" = [115, 116, 100, 101, 114, 114] := rfl
  have hstdout : codesOf "stdout" = [115, 116, 100, 111, 117, 116] := rfl
  rcases cases_of_nameable hd with rfl | rfl | rfl
  · rw [name, hnull]
    decide
  · rw [name, hstderr]
    decide
  · rw [name, hstdout]
    decide

/-- What is found by a name in a table is in it and has that name. -/
theorem of_find?_name {table : List Destination} (h : table.find? (fun d => codesOf d.name == cs) = some d) :
    d ∈ table ∧ cs = codesOf d.name := by
  have hname := List.find?_some h
  exact ⟨List.mem_of_find?_eq_some h, (beq_iff_eq.1 hname).symm⟩

/-- In lower case a text is a name exactly if it is spelled with the letters of the name. -/
theorem lower_eq_name_iff (hd : d ∈ Routing.nameable) :
    lower cs = codesOf d.name ↔ cs.map asciiLower = codesOf d.name :=
  Text.lower_eq_iff (isOwnLetter_of_mem_name hd)

/-- A user may name the destinations that a routing may name. -/
theorem named_eq_ok_iff : named cs = .ok d ↔ d ∈ Routing.nameable ∧ lower cs = codesOf d.name := by
  constructor
  · intro h
    unfold named at h
    split at h
    · cases h
    · cases h
    · rename_i d' hne hfound
      cases h
      obtain ⟨hmem, hname⟩ := of_find?_name hfound
      refine ⟨?_, hname⟩
      simp only [all, Routing.nameable, List.mem_cons, List.not_mem_nil, or_false] at hmem ⊢
      tauto
  · rintro ⟨hd, hname⟩
    rw [named, hname]
    rcases cases_of_nameable hd with rfl | rfl | rfl <;> rfl

end Destination

namespace Routing

variable {stream : StreamName} {cs : Codes} {d : Destination}

theorem destination_eq_ok_iff :
    destination stream cs = .ok d ↔ d ∈ nameable ∧ lower cs = codesOf d.name := by
  constructor
  · intro h
    unfold destination at h
    dsimp only at h
    split at h
    · rename_i d' hd'
      cases h
      exact Destination.of_find?_name hd'
    · cases h
  · rintro ⟨hd, hname⟩
    rw [destination, hname]
    rcases Destination.cases_of_nameable hd with rfl | rfl | rfl <;> rfl

/-- Names are in lower case. -/
theorem lower_name (hd : d ∈ nameable) : lower (codesOf d.name) = codesOf d.name :=
  (destination_eq_ok_iff.1 (destination_name hd .stdout)).2

/-- A text that is no name is refused with its lower-case form. -/
theorem destination_eq_error (h : ∀ d ∈ nameable, lower cs ≠ codesOf d.name) :
    destination stream cs = .error (.destination stream (lower cs)) := by
  have hnone : nameable.find? (fun d => codesOf d.name == lower cs) = none := by
    rw [List.find?_eq_none]
    exact fun d hd heq => h d hd (eq_of_beq heq).symm
  simp only [destination, hnone]

end Routing

namespace Outlet

variable {cs : Codes} {o : Outlet}

/-- Every nameable destination has its outlet. -/
theorem exists_ofDestination {d : Destination} (hd : d ∈ Routing.nameable) :
    ∃ o, ofDestination d = some o ∧ o.destination = d := by
  rcases Destination.cases_of_nameable hd with rfl | rfl | rfl <;> exact ⟨_, rfl, rfl⟩

/-- A name gives the outlet for its destination. -/
theorem exists_ofName {d : Destination} (hd : d ∈ Routing.nameable) (h : lower cs = codesOf d.name) :
    ∃ o, ofName cs = .ok o ∧ o.destination = d ∧ o.Matches := by
  obtain ⟨o, ho, hdest⟩ := exists_ofDestination hd
  have hok : ofName cs = .ok o := by
    simp only [ofName, Destination.named_eq_ok_iff.2 ⟨hd, h⟩, ho]
  exact ⟨o, hok, hdest, matches_of_ofName hok⟩

/-- A text that is no name gives no outlet, and an error that says whether it is the name of a pipe. -/
theorem ofName_eq_error (h : ∀ d ∈ Routing.nameable, lower cs ≠ codesOf d.name) :
    ofName cs = .error (if lower cs = codesOf "pipe" then .pipe else .unknown cs) := by
  have hnamed : Destination.named cs
      = .error (if lower cs = codesOf "pipe" then .pipe else .unknown cs) := by
    by_cases hp : lower cs = codesOf "pipe"
    · rw [if_pos hp, Destination.named, hp]
      rfl
    · have hnone : Destination.ofName? (lower cs) = none := by
        rw [Destination.ofName?, List.find?_eq_none]
        intro d hd heq
        have hname := (eq_of_beq heq).symm
        by_cases hpipe : d = .pipe
        · subst hpipe
          exact hp hname
        · refine h d ?_ hname
          simp only [Destination.all, Routing.nameable, List.mem_cons, List.not_mem_nil, or_false] at hd ⊢
          tauto
      rw [if_neg hp, Destination.named, hnone]
  rw [ofName, hnamed]

end Outlet

/-! ### Texts that are names -/

namespace Routing

variable {cs : Codes} {d : Destination} {r : Routing}

/-- A text is a name of a destination for either stream of a routing, all else being as by default, and for an
outlet. -/
structure Named (cs : Codes) (d : Destination) : Prop where
  lower : lower cs = codesOf d.name
  stdout : ofAsked { Asked.default with stdout := cs } = .ok ⟨d, .stderr, 65536⟩
  stderr : ofAsked { Asked.default with stderr := cs } = .ok ⟨.stdout, d, 65536⟩
  outlet : ∃ o, Outlet.ofName cs = .ok o ∧ o.destination = d ∧ o.Matches

/-- A text is no name, neither for a stream of a routing nor for an outlet. -/
structure Nameless (cs : Codes) : Prop where
  lower : ∀ d ∈ nameable, lower cs ≠ codesOf d.name
  stdout : ofAsked { Asked.default with stdout := cs } = .error (.destination .stdout (Text.lower cs))
  stderr : ofAsked { Asked.default with stderr := cs } = .error (.destination .stderr (Text.lower cs))
  outlet : Outlet.ofName cs = .error (if Text.lower cs = codesOf "pipe" then .pipe else .unknown cs)

theorem named_of_spelled (hd : d ∈ nameable) (h : cs.map asciiLower = codesOf d.name) : Named cs d := by
  have hlower := (Destination.lower_eq_name_iff hd).2 h
  have hok : ∀ stream, destination stream cs = .ok d := fun stream =>
    destination_eq_ok_iff.2 ⟨hd, hlower⟩
  refine ⟨hlower, ?_, ?_, Outlet.exists_ofName hd hlower⟩
  · simp only [ofAsked, hok]
    rfl
  · simp only [ofAsked, hok]
    rfl

theorem nameless_of_not_spelled (h : ∀ d ∈ nameable, cs.map asciiLower ≠ codesOf d.name) : Nameless cs := by
  have hlower : ∀ d ∈ nameable, Text.lower cs ≠ codesOf d.name := fun d hd heq =>
    h d hd ((Destination.lower_eq_name_iff hd).1 heq)
  have herr : ∀ stream, destination stream cs = .error (.destination stream (Text.lower cs)) :=
    fun stream => destination_eq_error hlower
  refine ⟨hlower, ?_, ?_, Outlet.ofName_eq_error hlower⟩
  · simp only [ofAsked, herr]
    rfl
  · simp only [ofAsked, herr]
    rfl

/-! ### Accepted routings -/

/-- The routings that there can be: those that were asked for, and those that were loaded. -/
inductive Accepted (r : Routing) : Prop
  | asked {a : Asked} (h : ofAsked a = .ok r)
  | loaded {env : Environment} {file : Option Bytes} (h : load env file = .ok r)

/-- What is loaded could as well have been asked for. -/
theorem Accepted.exists_asked (h : Accepted r) : ∃ a, ofAsked a = .ok r := by
  cases h with
  | asked h => exact ⟨_, h⟩
  | loaded h =>
    obtain ⟨given, -, h⟩ := exists_of_bind_eq_ok h
    obtain ⟨a, -, h⟩ := exists_of_bind_eq_ok h
    split at h
    · rename_i r' hr'
      cases h
      exact ⟨a, hr'⟩
    · cases h

theorem nameable_of_ofAsked {a : Asked} (h : ofAsked a = .ok r) :
    r.stdout ∈ nameable ∧ r.stderr ∈ nameable ∧ 0 < r.capacity := by
  obtain ⟨out, hout, h⟩ := exists_of_bind_eq_ok h
  obtain ⟨err, herr, h⟩ := exists_of_bind_eq_ok h
  obtain ⟨capacity, hcap, h⟩ := exists_of_bind_eq_ok h
  cases h
  exact ⟨destination_mem hout, destination_mem herr, (positive_eq_ok_iff.1 hcap).1⟩

/-- A script has got a new pipe under a name, open and empty, with an outlet before it; the pipe never holds
more than its capacity, whatever is done. -/
structure Captured (st : Script.State) (name : String) (capacity : Nat) (st' : Script.State) : Prop where
  channels : st'.session.channels = st.session.channels ++ [⟨.empty capacity, []⟩]
  gates : st'.session.gates = st.session.gates ++ [.ofPipe st.session.channels.length]
  outlets : st'.session.outlets = st.session.outlets ++ [.ofGate st.session.gates.length]
  members : st'.members = st.members ++ [(Script.State.readEndName name, .readEnd st.session.channels.length),
    (name, .outlet st.session.outlets.length)]
  bounded : ∀ past s, Session.Run st'.session past s → ∃ b, s.pipe? st.session.channels.length = some b ∧
    b.capacity = capacity ∧ b.buffer.length ≤ capacity

/-- What a routing is good for: it can be asked for again, it has its outlets, and a script that captures
output gets a pipe. -/
structure Usable (r : Routing) : Prop where
  again : ofAsked r.toAsked = .ok r
  outlets : ∃ x y, r.outlets = .ok (x, y) ∧ x.destination = r.stdout ∧ y.destination = r.stderr ∧
    x.Matches ∧ y.Matches
  capture : ∀ (st : Script.State) (name : String), st.Proper → ∃ st' words,
    st.makeCapture name r.toAsked = (st', .ok (.words words)) ∧ Captured st name r.capacity st'

/-- A capture gives rise to a pipe of the capacity of the routing. -/
theorem captured_makeCapture {a : Asked} (ha : ofAsked a = .ok r) {st : Script.State} (hst : st.Proper)
    (name : String) : ∃ st' words, st.makeCapture name a = (st', .ok (.words words)) ∧
      Captured st name r.capacity st' := by
  have hpos := (nameable_of_ofAsked ha).2.2
  have hproper := hst.makeCapture name a
  rw [Script.State.makeCapture, ha] at hproper ⊢
  simp only [capturePipe_of_pos hpos] at hproper ⊢
  refine ⟨_, _, rfl, rfl, rfl, rfl, ?_, fun past s hrun => ?_⟩
  · exact List.append_assoc ..
  · obtain ⟨b, hb, hserves⟩ := hrun.serves hproper.reachable.sound
      (show Session.pipe? _ st.session.channels.length = some (.empty r.capacity) by
        simp [Session.pipe?, Script.State.addPipeOutlet, Script.State.addPipe, Script.State.addOutlet,
          Script.State.addMember, Session.addPipe, Session.addGate, Session.addOutlet])
    have hcap : b.capacity = r.capacity := hserves.capacity
    have hvalid : b.Valid := hserves.valid ⟨hpos, Nat.zero_le _, fun _ => rfl⟩
    exact ⟨b, hb, hcap, hcap ▸ hvalid.length_le⟩

/-- An accepted routing is usable. -/
theorem Accepted.usable (h : Accepted r) : Usable r := by
  obtain ⟨a, ha⟩ := h.exists_asked
  obtain ⟨hout, herr, -⟩ := nameable_of_ofAsked ha
  obtain ⟨x, hx, hxd, hxm⟩ := Outlet.exists_ofName hout (lower_name hout)
  obtain ⟨y, hy, hyd, hym⟩ := Outlet.exists_ofName herr (lower_name herr)
  refine ⟨ofAsked_toAsked ha, ⟨x, y, ?_, hxd, hyd, hxm, hym⟩, fun st name hst => ?_⟩
  · simp only [outlets, hx, hy]
    rfl
  · exact captured_makeCapture (ofAsked_toAsked ha) hst name

/-- Routings and outlets accept the same names, which are those of three destinations in any case of their
ASCII letters; every routing that was accepted can be put to use. -/
theorem names_agree (cs : Codes) (r : Routing) :
    (∀ d ∈ nameable, cs.map asciiLower = codesOf d.name → Named cs d)
    ∧ ((∀ d ∈ nameable, cs.map asciiLower ≠ codesOf d.name) → Nameless cs)
    ∧ (Accepted r → Usable r) :=
  ⟨fun _ => named_of_spelled, nameless_of_not_spelled, Accepted.usable⟩

/-- Letters of either case name the error stream, a long s names nothing, and a routing to the error stream is
usable. -/
theorem mixedCase_agrees :
    Named (codesOf "StdErr") .stderr ∧ Nameless (0x17F :: codesOf "tdout") ∧ Usable ⟨.stderr, .null, 17⟩ := by
  have haccepted : Accepted ⟨.stderr, .null, 17⟩ :=
    .asked (show ofAsked ⟨codesOf "StdErr", codesOf "NULL", 17⟩ = _ from rfl)
  obtain ⟨hnamed, -, husable⟩ := names_agree (codesOf "StdErr") ⟨.stderr, .null, 17⟩
  obtain ⟨-, hnameless, -⟩ := names_agree (0x17F :: codesOf "tdout") ⟨.stderr, .null, 17⟩
  refine ⟨hnamed .stderr (by simp [nameable]) rfl, hnameless fun d hd => ?_, husable haccepted⟩
  rcases Destination.cases_of_nameable hd with rfl | rfl | rfl <;> decide

end Routing

end Outflow
