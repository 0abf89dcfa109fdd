import Outflow.Log.Json
import Outflow.Yaml.Character
import Mathlib.Tactic

/-!
# Reading JSON

A reader for JSON, and what it reads from the objects of texts that log lines are.

* `Json`, `Json.read`: the values of JSON, and the value that characters spell, if they do;
* `Json.readUnits`, `joinUnits`: a text is read in UTF-16 units, of which pairs are joined;
* `IsUnicode`, `IsUnpaired`: texts of code points, and those of which no two are such a pair;
* `Json.value`: one value, with the characters that follow it;
* `joinUnits_eq_self_iff`, `joinUnits_flatMap`: joining leaves just the unpaired texts as they are, and makes no
  difference between a text and its units;
* `readText_jsonText`: a text that was written is read with its pairs joined, whatever it holds;
* `read_jsonLine`: so is an object of texts;
* `isShown_jsonLine`: which is written in one line of ASCII.

A pair of surrogates and the code point that it stands for are written alike, so an unpaired text is the most that
any reader can get back.
-/

namespace Outflow

open Text (Codes codesOf hexDigit hexDigits)

/-- A value of JSON.  A number is kept as it is spelled. -/
inductive Json
  | null
  | bool (b : Bool)
  | number (spelled : List Char)
  | text (cs : Codes)
  | list (items : List Json)
  | object (members : List (Codes × Json))

namespace Json

/-! ### Texts -/

/-- The number that hexadecimal digits stand for. -/
def hexNumber? (ds : List Char) : Option Nat :=
  ds.foldlM (fun n d => (Yaml.hexValue? d.toNat).map (n * 16 + ·)) 0

/-- What a letter after a backslash stands for. -/
def escaped? (c : Char) : Option Nat :=
  [('"', 34), ('\\', 92), ('/', 47), ('b', 8), ('f', 12), ('n', 10), ('r', 13), ('t', 9)].lookup c

/-- The units of a text up to its closing quote, and what follows.  A character that is no escape counts as
one unit, and it must not be a control character. -/
def readUnits : List Char → Option (Codes × List Char)
  | [] => none
  | c :: rest =>
    if c = '"' then some ([], rest)
    else if c = '\\' then
      match rest with
      | 'u' :: c₁ :: c₂ :: c₃ :: c₄ :: rest =>
        match hexNumber? [c₁, c₂, c₃, c₄] with
        | some u => (readUnits rest).map fun x => (u :: x.1, x.2)
        | none => none
      | c :: rest =>
        match escaped? c with
        | some u => (readUnits rest).map fun x => (u :: x.1, x.2)
        | none => none
      | [] => none
    else if c.toNat < 32 then none
    else (readUnits rest).map fun x => (c.toNat :: x.1, x.2)

/-- Whether two units are a high and a low one, which stand for one code point together. -/
def IsPair (u v : Nat) : Prop := 0xD800 ≤ u ∧ u < 0xDC00 ∧ 0xDC00 ≤ v ∧ v < 0xE000

instance : DecidableRel IsPair := fun u v =>
  inferInstanceAs (Decidable (0xD800 ≤ u ∧ u < 0xDC00 ∧ 0xDC00 ≤ v ∧ v < 0xE000))

/-- Joins each high unit with a low unit right after it to one code point. -/
def joinUnits : Codes → Codes
  | u :: v :: rest =>
    if IsPair u v then
      (0x10000 + (u - 0xD800) * 0x400 + (v - 0xDC00)) :: joinUnits rest
    else u :: joinUnits (v :: rest)
  | us => us

/-! ### Tokens -/

/-- Whether a character may stand between tokens. -/
def isBlank (c : Char) : Bool := c = ' ' || c = '\n' || c = '\r' || c = '\t'

/-- What follows a character, which may stand after blanks. -/
def after? (c : Char) (cs : List Char) : Option (List Char) :=
  match cs.dropWhile isBlank with
  | x :: rest => if x = c then some rest else none
  | [] => none

/-- A text and what follows. -/
def readText (cs : List Char) : Option (Codes × List Char) := do
  let rest ← after? '"' cs
  let (us, rest) ← readUnits rest
  some (joinUnits us, rest)

/-- What follows one digit or more. -/
def afterDigits? (cs : List Char) : Option (List Char) :=
  if (cs.takeWhile Char.isDigit).isEmpty then none else some (cs.dropWhile Char.isDigit)

/-- What follows the exponent of a number, if there is one. -/
def afterExponent? : List Char → Option (List Char)
  | [] => some []
  | c :: rest =>
    if c = 'e' ∨ c = 'E' then
      match rest with
      | '+' :: rest | '-' :: rest => afterDigits? rest
      | rest => afterDigits? rest
    else some (c :: rest)

/-- Whether characters spell a number: perhaps a sign, digits of which a leading zero is the only one, and
perhaps a fraction and an exponent. -/
def isNumber (cs : List Char) : Bool :=
  let unsigned := if cs.head? = some '-' then cs.tail else cs
  let afterWhole := if unsigned.head? = some '0' then some unsigned.tail else afterDigits? unsigned
  let afterFraction := afterWhole.bind fun
    | '.' :: rest => afterDigits? rest
    | rest => some rest
  afterFraction.bind afterExponent? == some []

/-- The value of a word: a name, or a number. -/
def word? (cs : List Char) : Option Json :=
  if cs = "null".toList then some .null
  else if cs = "true".toList then some (.bool true)
  else if cs = "false".toList then some (.bool false)
  else if isNumber cs then some (.number cs)
  else none

/-- Whether a character ends a word. -/
def endsWord (c : Char) : Bool := isBlank c || c = ',' || c = ']' || c = '\x7d'

/-! ### Values -/

mutual

/-- A value and what follows; the first argument bounds the steps. -/
def value : Nat → List Char → Option (Json × List Char)
  | 0, _ => none
  | n + 1, cs =>
    match cs.dropWhile isBlank with
    | [] => none
    | c :: rest =>
      if c = '"' then (readText (c :: rest)).map fun x => (.text x.1, x.2)
      else if c = '[' then
        match after? ']' rest with
        | some rest => some (.list [], rest)
        | none => (items n rest).map fun x => (.list x.1, x.2)
      else if c = '\x7b' then
        match after? '\x7d' rest with
        | some rest => some (.object [], rest)
        | none => (members n rest).map fun x => (.object x.1, x.2)
      else (word? ((c :: rest).takeWhile fun c => !endsWord c)).map fun v =>
        (v, (c :: rest).dropWhile fun c => !endsWord c)

/-- The items of a list, of which there is one at least, and what follows its end. -/
def items : Nat → List Char → Option (List Json × List Char)
  | 0, _ => none
  | n + 1, cs =>
    match value n cs with
    | none => none
    | some (v, rest) =>
      match after? ',' rest with
      | some rest => (items n rest).map fun x => (v :: x.1, x.2)
      | none => (after? ']' rest).map fun rest => ([v], rest)

/-- The members of an object, of which there is one at least, and what follows its end. -/
def members : Nat → List Char → Option (List (Codes × Json) × List Char)
  | 0, _ => none
  | n + 1, cs =>
    match (readText cs).bind fun x => (after? ':' x.2).map fun rest => (x.1, rest) with
    | none => none
    | some (name, rest) =>
      match value n rest with
      | none => none
      | some (v, rest) =>
        match after? ',' rest with
        | some rest => (members n rest).map fun x => ((name, v) :: x.1, x.2)
        | none => (after? '\x7d' rest).map fun rest => ([(name, v)], rest)

end

/-- The value that characters spell: one value, with nothing but blanks after it. -/
def read (cs : List Char) : Option Json :=
  match value (cs.length + 1) cs with
  | some (v, rest) => if rest.all isBlank then some v else none
  | none => none

/-! ### Escapes -/

theorem hexValue?_hexDigit {d : Nat} (h : d < 16) : Yaml.hexValue? (hexDigit d).toNat = some d := by
  revert d
  decide

theorem hexNumber?_hexDigits (width n : Nat) : hexNumber? (hexDigits width n) = some (n % 16 ^ width) := by
  induction width generalizing n with
  | zero =>
    rw [hexDigits, pow_zero, Nat.mod_one]
    rfl
  | succ width ih =>
    have hlast := hexValue?_hexDigit (Nat.mod_lt n (show 0 < 16 by decide))
    have hsplit : n % 16 ^ (width + 1) = n / 16 % 16 ^ width * 16 + n % 16 := by
      rw [pow_succ', Nat.mod_mul]
      omega
    rw [hexDigits, hexNumber?, List.foldlM_append, ← hexNumber?, ih, hsplit]
    simp [hlast]

/-- The UTF-16 units of a code point. -/
def unitsOf (c : Nat) : Codes :=
  if c < 0x10000 then [c] else [0xD800 + (c - 0x10000) / 0x400, 0xDC00 + (c - 0x10000) % 0x400]

/-- Whether all numbers of a text are code points. -/
def IsUnicode (cs : Codes) : Prop := ∀ c ∈ cs, c < 0x110000

instance : DecidablePred IsUnicode := fun cs => inferInstanceAs (Decidable (∀ c ∈ cs, c < 0x110000))

/-- Whether no high surrogate of a text has a low one right after it. -/
def IsUnpaired (cs : Codes) : Prop := cs.IsChain fun u v => ¬ IsPair u v

instance : DecidablePred IsUnpaired := fun cs => inferInstanceAs (Decidable (cs.IsChain fun u v => ¬ IsPair u v))

variable {cs : Codes} {c : Nat} {c' : Char} {rest : List Char}

theorem readUnits_quote (rest : List Char) : readUnits ('"' :: rest) = some ([], rest) := by
  rw [readUnits.eq_def]
  rfl

theorem readUnits_escapeUnit (h : c < 0x10000) :
    readUnits (Log.escapeUnit c ++ rest) = (readUnits rest).map fun x => (c :: x.1, x.2) := by
  obtain ⟨c₁, c₂, c₃, c₄, hdigits⟩ : ∃ c₁ c₂ c₃ c₄, hexDigits 4 c = [c₁, c₂, c₃, c₄] :=
    ⟨_, _, _, _, rfl⟩
  have hnumber := hexNumber?_hexDigits 4 c
  rw [hdigits, Nat.mod_eq_of_lt (by simpa using h)] at hnumber
  rw [Log.escapeUnit, hdigits]
  simp [readUnits, hnumber]

theorem toNat_ofNat (h : c < 128) : (Char.ofNat c).toNat = c := by
  revert c
  decide

/-- A character that is written as it is. -/
theorem readUnits_shown (hlo : 32 ≤ c) (hhi : c < 127) (hquote : c ≠ 34) (hslash : c ≠ 92) :
    readUnits (Char.ofNat c :: rest) = (readUnits rest).map fun x => (c :: x.1, x.2) := by
  have htoNat : (Char.ofNat c).toNat = c := toNat_ofNat (by omega)
  have hne : ∀ x : Char, c ≠ x.toNat → Char.ofNat c ≠ x := by
    rintro x hx rfl
    exact hx htoNat.symm
  rw [readUnits.eq_def]
  simp only [hne '"' hquote, hne '\\' hslash, htoNat, Nat.not_lt.2 hlo, if_false]

/-- The escape of a code point is read as its units. -/
theorem readUnits_escapeCode (h : c < 0x110000) :
    readUnits (Log.escapeCode c ++ rest) = (readUnits rest).map fun x => (unitsOf c ++ x.1, x.2) := by
  -- an escape of one letter
  have hletter : ∀ {x : Char} {u : Nat}, x ≠ 'u' → escaped? x = some u → u < 0x10000 →
      readUnits (['\\', x] ++ rest) = (readUnits rest).map fun y => (unitsOf u ++ y.1, y.2) := by
    intro x u hx hu hlt
    rw [unitsOf, if_pos hlt, List.cons_append, List.singleton_append, readUnits.eq_def]
    simp [hx, hu]
  unfold Log.escapeCode
  split_ifs with h₁ h₂ h₃ h₄ h₅ h₆ h₇ h₈ h₉
  · rw [h₁]; exact hletter (by decide) rfl (by decide)
  · rw [h₂]; exact hletter (by decide) rfl (by decide)
  · rw [h₃]; exact hletter (by decide) rfl (by decide)
  · rw [h₄]; exact hletter (by decide) rfl (by decide)
  · rw [h₅]; exact hletter (by decide) rfl (by decide)
  · rw [h₆]; exact hletter (by decide) rfl (by decide)
  · rw [h₇]; exact hletter (by decide) rfl (by decide)
  · rw [Bool.and_eq_true, decide_eq_true_eq, decide_eq_true_eq] at h₈
    rw [List.singleton_append, readUnits_shown h₈.1 h₈.2 h₁ h₂, unitsOf, if_pos (by omega)]
    rfl
  · rw [readUnits_escapeUnit h₉, unitsOf, if_pos h₉]
    rfl
  · rw [List.append_assoc, readUnits_escapeUnit (by omega), readUnits_escapeUnit (by omega), Option.map_map,
      unitsOf, if_neg h₉]
    rfl

/-- A text is read up to its closing quote. -/
theorem readUnits_written (h : IsUnicode cs) (rest : List Char) :
    readUnits (cs.flatMap Log.escapeCode ++ '"' :: rest) = some (cs.flatMap unitsOf, rest) := by
  induction cs with
  | nil => exact readUnits_quote rest
  | cons c cs ih =>
    rw [List.flatMap_cons, List.append_assoc, readUnits_escapeCode (h c List.mem_cons_self),
      ih fun x hx => h x (List.mem_cons_of_mem c hx)]
    rfl

/-! ### Pairs -/

/-- Joining makes a text with a pair shorter. -/
theorem length_joinUnits_le (cs : Codes) : (joinUnits cs).length ≤ cs.length := by
  fun_induction joinUnits cs with
  | case1 u v rest _ ih =>
    simp only [List.length_cons]
    omega
  | case2 u v rest _ ih =>
    simp only [List.length_cons] at ih ⊢
    omega
  | case3 us => exact Nat.le_refl _

/-- Just the texts without a pair are joined to themselves. -/
theorem joinUnits_eq_self_iff : joinUnits cs = cs ↔ IsUnpaired cs := by
  fun_induction joinUnits cs with
  | case1 u v rest hpair ih =>
    refine iff_of_false (fun h => ?_) fun h => ?_
    · have hle := length_joinUnits_le rest
      have hlength := congrArg List.length h
      simp only [List.length_cons] at hlength
      omega
    · exact (List.isChain_cons_cons.1 h).1 hpair
  | case2 u v rest hpair ih =>
    rw [IsUnpaired, List.isChain_cons_cons, ← IsUnpaired, ← ih]
    simp [hpair]
  | case3 us hus =>
    refine iff_of_true rfl ?_
    match us, hus with
    | [], _ => exact .nil
    | [u], _ => exact .singleton u
    | u :: v :: rest, hus => exact absurd rfl (hus u v rest)

/-- A string has no surrogates. -/
theorem isUnpaired_codesOf (s : String) : IsUnpaired (codesOf s) := by
  refine (List.pairwise_of_forall_mem_list fun u hu v _ hpair => ?_).isChain
  obtain ⟨x, -, rfl⟩ := List.mem_map.1 hu
  unfold IsPair at hpair
  rcases x.valid with hlo | ⟨hhi, -⟩
  · exact absurd hpair.1 (Nat.not_le_of_lt hlo)
  · exact absurd (Nat.lt_trans hpair.2.1 (by decide)) (Nat.not_lt_of_lt hhi)

theorem isUnicode_codesOf (s : String) : IsUnicode (codesOf s) := by
  intro c hc
  obtain ⟨x, -, rfl⟩ := List.mem_map.1 hc
  rcases x.valid with h | ⟨-, h⟩
  · exact Nat.lt_trans h (by decide)
  · exact h

/-- A unit that makes no pair with the next code point stays as it is. -/
theorem joinUnits_one (hcs : IsUnicode cs) (hnext : ∀ v ∈ cs.head?, ¬ IsPair c v) :
    joinUnits (c :: cs.flatMap unitsOf) = c :: joinUnits (cs.flatMap unitsOf) := by
  cases cs with
  | nil => rfl
  | cons v rest =>
    have hv : ¬ IsPair c v := hnext v rfl
    rw [List.flatMap_cons, unitsOf]
    split
    · rw [List.singleton_append, joinUnits, if_neg hv]
    · -- the next unit is a high one
      have hlt := hcs v List.mem_cons_self
      rw [List.cons_append, joinUnits, if_neg]
      unfold IsPair
      omega

theorem joinUnits_two (h : 0x10000 ≤ c) (hc : c < 0x110000) (us : Codes) :
    joinUnits ((0xD800 + (c - 0x10000) / 0x400) :: (0xDC00 + (c - 0x10000) % 0x400) :: us) =
      c :: joinUnits us := by
  have hjoin : 0x10000 + (0xD800 + (c - 0x10000) / 0x400 - 0xD800) * 0x400 +
      (0xDC00 + (c - 0x10000) % 0x400 - 0xDC00) = c := by omega
  rw [joinUnits, if_pos (by unfold IsPair; omega), hjoin]

theorem unitsOf_of_isPair {u v : Nat} (h : IsPair u v) : unitsOf u = [u] ∧ unitsOf v = [v] := by
  unfold IsPair at h
  exact ⟨if_pos (by omega), if_pos (by omega)⟩

/-- The units of a text are joined as its code points are. -/
theorem joinUnits_flatMap (h : IsUnicode cs) : joinUnits (cs.flatMap unitsOf) = joinUnits cs := by
  fun_induction joinUnits cs with
  | case1 u v rest hpair ih =>
    obtain ⟨hu, hv⟩ := unitsOf_of_isPair hpair
    rw [List.flatMap_cons, List.flatMap_cons, hu, hv, List.singleton_append, List.singleton_append, joinUnits,
      if_pos hpair, ih fun c hc => h c (List.mem_cons_of_mem u (List.mem_cons_of_mem v hc))]
  | case2 u v rest hpair ih =>
    have hcs : IsUnicode (v :: rest) := fun c hc => h c (List.mem_cons_of_mem u hc)
    have hrest := ih hcs
    by_cases hu : u < 0x10000
    · rw [List.flatMap_cons, unitsOf, if_pos hu, List.singleton_append, joinUnits_one hcs, hrest]
      rintro _ ⟨⟩
      exact hpair
    · rw [List.flatMap_cons, unitsOf, if_neg hu, List.cons_append, List.singleton_append,
        joinUnits_two (Nat.le_of_not_lt hu) (h u List.mem_cons_self), hrest]
  | case3 us hus =>
    match us, hus with
    | [], _ => rfl
    | [u], _ =>
      by_cases hu : u < 0x10000
      · rw [List.flatMap_singleton, unitsOf, if_pos hu]
        rfl
      · rw [List.flatMap_singleton, unitsOf, if_neg hu,
          joinUnits_two (Nat.le_of_not_lt hu) (h u List.mem_cons_self)]
        rfl
    | u :: v :: rest, hus => exact absurd rfl (hus u v rest)

/-- A code point beyond ASCII is written by its units. -/
theorem escapeCode_of_le (h : 128 ≤ c) : Log.escapeCode c = (unitsOf c).flatMap Log.escapeUnit := by
  have hascii : (decide (32 ≤ c) && decide (c < 127)) = false := by
    rw [decide_eq_false (by omega : ¬ c < 127), Bool.and_false]
  have hne : ∀ d, d < 128 → c ≠ d := by omega
  rw [Log.escapeCode, if_neg (hne _ (by decide)), if_neg (hne _ (by decide)), if_neg (hne _ (by decide)),
    if_neg (hne _ (by decide)), if_neg (hne _ (by decide)), if_neg (hne _ (by decide)), if_neg (hne _ (by decide)),
    hascii, if_neg Bool.false_ne_true, unitsOf]
  split
  · exact (List.flatMap_singleton ..).symm
  · exact (congrArg _ (List.append_nil _)).symm

/-- The units of a pair are those of the code point that it stands for. -/
theorem unitsOf_pair {u v : Nat} (h : IsPair u v) :
    unitsOf (0x10000 + (u - 0xD800) * 0x400 + (v - 0xDC00)) = [u, v] := by
  unfold IsPair at h
  have hhigh : 0xD800 + (0x10000 + (u - 0xD800) * 0x400 + (v - 0xDC00) - 0x10000) / 0x400 = u := by omega
  have hlow : 0xDC00 + (0x10000 + (u - 0xD800) * 0x400 + (v - 0xDC00) - 0x10000) % 0x400 = v := by omega
  rw [unitsOf, if_neg (by omega), hhigh, hlow]

/-- A text is written as it is written when its pairs are joined. -/
theorem flatMap_escapeCode_joinUnits (cs : Codes) :
    (joinUnits cs).flatMap Log.escapeCode = cs.flatMap Log.escapeCode := by
  fun_induction joinUnits cs with
  | case1 u v rest hpair ih =>
    obtain ⟨hu, hv⟩ := unitsOf_of_isPair hpair
    have hjoined : Log.escapeCode (0x10000 + (u - 0xD800) * 0x400 + (v - 0xDC00)) =
        Log.escapeCode u ++ Log.escapeCode v := by
      rw [escapeCode_of_le (by omega), unitsOf_pair hpair, escapeCode_of_le (by unfold IsPair at hpair; omega),
        escapeCode_of_le (by unfold IsPair at hpair; omega), hu, hv, ← List.flatMap_append]
      rfl
    rw [List.flatMap_cons, List.flatMap_cons, List.flatMap_cons, hjoined, ih, List.append_assoc]
  | case2 u v rest _ ih => rw [List.flatMap_cons, ih, ← List.flatMap_cons]
  | case3 us => rfl

/-! ### Written values -/

theorem after?_self (hc : isBlank c' = false) : after? c' (c' :: rest) = some rest := by
  simp [after?, hc]

theorem after?_blank (c' : Char) (rest : List Char) : after? c' (' ' :: rest) = after? c' rest := rfl

theorem after?_of_ne {x : Char} (hx : isBlank x = false) (hne : x ≠ c') : after? c' (x :: rest) = none := by
  simp [after?, hx, hne]

/-- A text that was written is read with its pairs joined. -/
theorem readText_jsonText (h : IsUnicode cs) (rest : List Char) :
    readText (Log.jsonText cs ++ rest) = some (joinUnits cs, rest) := by
  have hunits := readUnits_written h rest
  rw [Log.jsonText, List.cons_append, List.append_assoc, List.singleton_append, readText,
    after?_self (by decide)]
  simp [hunits, joinUnits_flatMap h]

theorem value_jsonText (h : IsUnicode cs) (n : Nat) :
    value (n + 1) (' ' :: (Log.jsonText cs ++ rest)) = some (.text (joinUnits cs), rest) := by
  have hread := readText_jsonText h rest
  have hblank : (' ' :: (Log.jsonText cs ++ rest)).dropWhile isBlank =
      '"' :: (cs.flatMap Log.escapeCode ++ ['"'] ++ rest) := rfl
  have hquote : Log.jsonText cs ++ rest = '"' :: (cs.flatMap Log.escapeCode ++ ['"'] ++ rest) := rfl
  rw [hquote] at hread
  rw [value, hblank]
  simp only [if_true, hread, Option.map_some]

/-- A member of an object, a name and a text. -/
def memberText (m : Codes × Codes) : List Char := Log.jsonText m.1 ++ ':' :: ' ' :: Log.jsonText m.2

/-- A member as it is read: with the pairs of its name and its text joined. -/
def joinedMember (m : Codes × Codes) : Codes × Json := (joinUnits m.1, .text (joinUnits m.2))

/-- Whether names and texts are all made of code points. -/
def Proper (ms : List (Codes × Codes)) : Prop := ∀ m ∈ ms, IsUnicode m.1 ∧ IsUnicode m.2

theorem members_blank (n : Nat) (rest : List Char) : members n (' ' :: rest) = members n rest := by
  cases n with
  | zero => rfl
  | succ n => simp only [members, readText, after?_blank]

/-- A member that was written is read, and then the others, or the end of the object. -/
theorem members_memberText {m : Codes × Codes} (hname : IsUnicode m.1) (hvalue : IsUnicode m.2) (n : Nat) :
    members (n + 2) (memberText m ++ rest) = match after? ',' rest with
      | some rest => (members (n + 1) rest).map fun x => (joinedMember m :: x.1, x.2)
      | none => (after? '\x7d' rest).map fun rest => ([joinedMember m], rest) := by
  have hread := readText_jsonText hname (':' :: ' ' :: (Log.jsonText m.2 ++ rest))
  rw [memberText, List.append_assoc, List.cons_append, List.cons_append, members, hread, Option.bind_some,
    after?_self (by decide), Option.map_some]
  simp only [value_jsonText hvalue]
  rfl

/-- The members of an object of texts are read. -/
theorem members_joined {ms : List (Codes × Codes)} (h : Proper ms) (hne : ms ≠ []) {n : Nat}
    (hn : ms.length < n) (rest : List Char) :
    members n (Log.jsonJoined (ms.map memberText) ++ '\x7d' :: rest) = some (ms.map joinedMember, rest) := by
  induction ms generalizing n with
  | nil => exact absurd rfl hne
  | cons m ms ih =>
    obtain ⟨hname, hvalue⟩ := h m List.mem_cons_self
    obtain ⟨k, rfl⟩ : ∃ k, n = k + 2 := ⟨n - 2, by rw [List.length_cons] at hn; omega⟩
    cases ms with
    | nil =>
      rw [List.map_singleton, Log.jsonJoined, members_memberText hname hvalue,
        after?_of_ne (by decide) (by decide), after?_self (by decide)]
      rfl
    | cons m' ms =>
      have hrest := ih (fun x hx => h x (List.mem_cons_of_mem m hx)) (List.cons_ne_nil m' ms) (n := k + 1)
        (by rw [List.length_cons] at hn; omega)
      have hjoined : Log.jsonJoined ((m :: m' :: ms).map memberText) =
          memberText m ++ ',' :: ' ' :: Log.jsonJoined ((m' :: ms).map memberText) := rfl
      rw [hjoined, List.append_assoc, members_memberText hname hvalue, List.cons_append,
        after?_self (by decide), List.cons_append]
      simp only [members_blank, hrest]
      rfl

/-- Every member takes a character at least. -/
theorem length_le_jsonJoined (ms : List (Codes × Codes)) :
    ms.length ≤ (Log.jsonJoined (ms.map memberText)).length := by
  have hone : ∀ m, 1 ≤ (memberText m).length := fun m => by
    rw [memberText, Log.jsonText, List.cons_append, List.length_cons]
    omega
  induction ms with
  | nil => exact Nat.le_refl 0
  | cons m ms ih =>
    cases ms with
    | nil => exact hone m
    | cons m' ms =>
      have hm := hone m
      have hjoined : Log.jsonJoined ((m :: m' :: ms).map memberText) =
          memberText m ++ ',' :: ' ' :: Log.jsonJoined ((m' :: ms).map memberText) := rfl
      simp only [hjoined, List.length_append, List.length_cons] at ih ⊢
      omega

/-- An object of texts that was written is read. -/
theorem read_object {ms : List (Codes × Codes)} (h : Proper ms) :
    read ('\x7b' :: (Log.jsonJoined (ms.map memberText) ++ ['\x7d'])) =
      some (.object (ms.map joinedMember)) := by
  have hblank : ∀ rest, ('\x7b' :: rest).dropWhile isBlank = '\x7b' :: rest := fun _ => rfl
  have hvalue : value (('\x7b' :: (Log.jsonJoined (ms.map memberText) ++ ['\x7d'])).length + 1)
      ('\x7b' :: (Log.jsonJoined (ms.map memberText) ++ ['\x7d'])) =
        some (.object (ms.map joinedMember), []) := by
    rw [value, hblank]
    cases ms with
    | nil => rfl
    | cons m ms =>
      -- the first member begins with a quote
      have hfirst : ∀ rest, after? '\x7d' (Log.jsonJoined ((m :: ms).map memberText) ++ rest) = none := by
        intro rest
        cases ms <;> exact after?_of_ne (by decide) (by decide)
      have hlength := length_le_jsonJoined (m :: ms)
      have hmembers := members_joined h (List.cons_ne_nil m ms)
        (n := ('\x7b' :: (Log.jsonJoined ((m :: ms).map memberText) ++ ['\x7d'])).length)
        (by simp only [List.length_append, List.length_cons] at hlength ⊢; omega) []
      simp only [hfirst, hmembers, Option.map_some]
      rfl
  rw [read, hvalue]
  rfl

end Json

/-! ### Log lines -/

namespace Log

variable {c : Nat} {x : Char}

/-- Whether a character is one of ASCII that is shown: it ends no line. -/
def IsShown (x : Char) : Prop := 32 ≤ x.toNat ∧ x.toNat < 127

instance (x : Char) : Decidable (IsShown x) := inferInstanceAs (Decidable (32 ≤ x.toNat ∧ x.toNat < 127))

theorem isShown_hexDigits (width n : Nat) : ∀ x ∈ hexDigits width n, IsShown x := by
  have hdigit : ∀ d < 16, IsShown (hexDigit d) := by decide
  induction width generalizing n with
  | zero => exact nofun
  | succ width ih =>
    rw [hexDigits]
    intro x hx
    rcases List.mem_append.1 hx with hx | hx
    · exact ih _ x hx
    · rw [List.mem_singleton.1 hx]
      exact hdigit _ (Nat.mod_lt n (by decide))

theorem isShown_escapeUnit (u : Nat) : ∀ x ∈ escapeUnit u, IsShown x := by
  rw [escapeUnit, List.forall_mem_cons, List.forall_mem_cons]
  exact ⟨by decide, by decide, isShown_hexDigits 4 u⟩

/-- Whatever a code point is, its escape is shown. -/
theorem isShown_escapeCode (c : Nat) : ∀ x ∈ escapeCode c, IsShown x := by
  have hpair : ∀ a b : Char, IsShown a → IsShown b → ∀ x ∈ [a, b], IsShown x := by
    intro a b ha hb
    simp [ha, hb]
  unfold escapeCode
  split_ifs with _ _ _ _ _ _ _ h
  iterate 7 exact hpair _ _ (by decide) (by decide)
  · rw [Bool.and_eq_true, decide_eq_true_eq, decide_eq_true_eq] at h
    rw [List.forall_mem_singleton, IsShown, Json.toNat_ofNat (by omega)]
    exact h
  · exact isShown_escapeUnit c
  · exact List.forall_mem_append.2 ⟨isShown_escapeUnit _, isShown_escapeUnit _⟩

theorem isShown_jsonText (cs : Codes) : ∀ x ∈ jsonText cs, IsShown x := by
  have hquote : IsShown '"' := by decide
  rw [jsonText, List.forall_mem_cons, List.forall_mem_append, List.forall_mem_singleton]
  refine ⟨hquote, fun x hx => ?_, hquote⟩
  obtain ⟨c, -, hc⟩ := List.mem_flatMap.1 hx
  exact isShown_escapeCode c x hc

theorem isShown_jsonJoined {parts : List (List Char)} (h : ∀ part ∈ parts, ∀ x ∈ part, IsShown x) :
    ∀ x ∈ jsonJoined parts, IsShown x := by
  fun_induction jsonJoined parts with
  | case1 => exact nofun
  | case2 part => exact h part List.mem_cons_self
  | case3 part rest _ ih =>
    rw [List.forall_mem_append, List.forall_mem_cons, List.forall_mem_cons]
    exact ⟨h part List.mem_cons_self, by decide, by decide,
      ih fun part' hp => h part' (List.mem_cons_of_mem part hp)⟩

/-- Fields that are all texts. -/
def textFields (ms : List (String × Codes)) : Fields := ms.map fun m => (m.1, .text m.2)

/-- Members by the code points of their names. -/
def spelledMembers (ms : List (String × Codes)) : List (Codes × Codes) := ms.map fun m => (codesOf m.1, m.2)

theorem jsonEntries_texts (ms : List (String × Codes)) :
    jsonEntries ((textFields ms).map fun f => (.ofString f.1, f.2)) = (spelledMembers ms).map Json.memberText := by
  induction ms with
  | nil => rfl
  | cons m ms ih => exact congrArg (Json.memberText (codesOf m.1, m.2) :: ·) ih

/-- The line of a record of texts. -/
theorem toList_jsonLine (ms : List (String × Codes)) : (jsonLine (textFields ms)).toList =
    '\x7b' :: (jsonJoined ((spelledMembers ms).map Json.memberText) ++ ['\x7d']) := by
  rw [jsonLine, String.toList_ofList, jsonValue, jsonEntries_texts]

/-- The line of a record of texts is one line of ASCII. -/
theorem isShown_jsonLine (ms : List (String × Codes)) : ∀ x ∈ (jsonLine (textFields ms)).toList, IsShown x := by
  have hmember : ∀ m, ∀ x ∈ Json.memberText m, IsShown x := by
    intro m
    rw [Json.memberText, List.forall_mem_append, List.forall_mem_cons, List.forall_mem_cons]
    exact ⟨isShown_jsonText m.1, by decide, by decide, isShown_jsonText m.2⟩
  rw [toList_jsonLine, List.forall_mem_cons, List.forall_mem_append, List.forall_mem_singleton]
  refine ⟨by decide, isShown_jsonJoined fun part hp => ?_, by decide⟩
  obtain ⟨m, -, rfl⟩ := List.mem_map.1 hp
  exact hmember m

/-- What is read from the line of a record of texts: its names with its texts, their pairs joined, and nothing
else. -/
theorem read_jsonLine {ms : List (String × Codes)} (h : ∀ m ∈ ms, Json.IsUnicode m.2) :
    Json.read (jsonLine (textFields ms)).toList =
      some (.object (ms.map fun m => (codesOf m.1, .text (Json.joinUnits m.2)))) := by
  have hproper : Json.Proper (spelledMembers ms) := by
    intro m hm
    obtain ⟨m, hmem, rfl⟩ := List.mem_map.1 hm
    exact ⟨Json.isUnicode_codesOf m.1, h m hmem⟩
  have hname : ∀ s, Json.joinUnits (codesOf s) = codesOf s := fun s =>
    Json.joinUnits_eq_self_iff.2 (Json.isUnpaired_codesOf s)
  rw [toList_jsonLine, Json.read_object hproper, spelledMembers, List.map_map]
  simp only [Function.comp_def, Json.joinedMember, hname]

/-- The line of a record of texts is also that of the texts with their pairs joined. -/
theorem jsonLine_joined (ms : List (String × Codes)) :
    jsonLine (textFields (ms.map fun m => (m.1, Json.joinUnits m.2))) = jsonLine (textFields ms) := by
  rw [← String.toList_inj, toList_jsonLine, toList_jsonLine, spelledMembers, spelledMembers, List.map_map,
    List.map_map, List.map_map]
  simp only [Function.comp_def, Json.memberText, jsonText, Json.flatMap_escapeCode_joinUnits]

end Log

end Outflow
