import Mathlib.Algebra.Group.Nat.Defs
import Mathlib.Data.List.TakeWhile
import Outflow.Number.Numeral

/-!
# Decimal numerals

The decimal text of a natural number reads back as the number, as long as it has no more digits than the
limit allows.

* `isDecimal_digits`, `digitsValue_digits`: the digits that a number is written with, and their value;
* `readAscii_of_decimal`: nothing but digits is a numeral, worth the value of its digits;
* `readInteger_toString`: the text of a number reads back.
-/

namespace Outflow.Number

open Text

theorem asciiDigit?_of_isDecimal {c : Nat} (h : isDecimal c) : asciiDigit? c = some (c - 48) := by
  have h' : (48 ≤ c && c ≤ 57) = true := h
  rw [asciiDigit?, if_pos h']

theorem isDigitIn_of_isDecimal {c : Nat} (h : isDecimal c) : isDigitIn 10 c = true := by
  have hc : 48 ≤ c ∧ c ≤ 57 := by simpa [isDecimal] using h
  have hlt : c - 48 < 10 := by omega
  simp [isDigitIn, asciiDigit?_of_isDecimal h, hlt]

/-! ### Nothing but digits -/

variable {cs : Codes}

theorem plainScript_of_decimal (h : ∀ c ∈ cs, isDecimal c) : plainScript cs = cs := by
  have hall : cs.all (· < 128) = true := by
    rw [List.all_eq_true]
    intro c hc
    have hd : 48 ≤ c ∧ c ≤ 57 := by simpa [isDecimal] using h c hc
    simp only [decide_eq_true_eq]
    omega
  rw [plainScript, if_pos hall]

theorem dropWhile_of_decimal {p : Nat → Bool} (hp : ∀ c, isDecimal c → p c = false)
    (h : ∀ c ∈ cs, isDecimal c) : cs.dropWhile p = cs := by
  cases cs with
  | nil => rfl
  | cons c rest => rw [List.dropWhile_cons_of_neg (by simp [hp c (h c List.mem_cons_self)])]

theorem trimBlanks_of_decimal (h : ∀ c ∈ cs, isDecimal c) : trimBlanks cs = cs := by
  have hblank : ∀ c, isDecimal c → (c == 32 || (9 ≤ c && c ≤ 13)) = false := by
    intro c hc
    have hd : 48 ≤ c ∧ c ≤ 57 := by simpa [isDecimal] using hc
    simp only [Bool.or_eq_false_iff, Bool.and_eq_false_iff, beq_eq_false_iff_ne, decide_eq_false_iff_not]
    omega
  have hrev : ∀ c ∈ cs.reverse, isDecimal c := fun c hc => h c (List.mem_reverse.mp hc)
  rw [trimBlanks, dropWhile_of_decimal hblank h, dropWhile_of_decimal hblank hrev, List.reverse_reverse]

theorem splitSign_of_decimal (h : ∀ c ∈ cs, isDecimal c) : splitSign cs = (false, cs) := by
  unfold splitSign
  split
  · exact absurd (h 43 List.mem_cons_self) (by decide)
  · exact absurd (h 45 List.mem_cons_self) (by decide)
  · rfl

/-- Decimal numerals have no base mark. -/
theorem dropBaseMark_ten (cs : Codes) : dropBaseMark 10 cs = cs := by
  unfold dropBaseMark
  split
  · simp [baseMarks]
  · rfl

theorem withoutUnderscores_of_decimal (h : ∀ c ∈ cs, isDecimal c) : withoutUnderscores cs = cs := by
  refine List.filter_eq_self.mpr fun c hc => ?_
  have hd : 48 ≤ c ∧ c ≤ 57 := by simpa [isDecimal] using h c hc
  simp only [bne_iff_ne]
  omega

/-- Where there are no underscores, only a lone one in front can be wrong. -/
theorem underscoresSeparate_of_decimal (h : ∀ c ∈ cs, isDecimal c) (hne : cs ≠ []) (lone : Bool) :
    underscoresSeparate lone cs = true := by
  induction cs generalizing lone with
  | nil => exact absurd rfl hne
  | cons c rest ih =>
    have hd : 48 ≤ c ∧ c ≤ 57 := by simpa [isDecimal] using h c List.mem_cons_self
    have hc : c ≠ 95 := by omega
    rw [underscoresSeparate, if_neg hc]
    cases rest with
    | nil => rfl
    | cons d rest => exact ih (fun e he => h e (List.mem_cons_of_mem c he)) (List.cons_ne_nil d rest) false

/-- Nothing but digits, and not too many of them, is a numeral. -/
theorem readAscii_of_decimal (h : ∀ c ∈ cs, isDecimal c) (hne : cs ≠ []) (hlen : cs.length ≤ digitLimit) :
    readAscii 10 cs = .ok (digitsValue 10 cs) := by
  have hbody : ∀ c ∈ cs, (c == 95 || isDigitIn 10 c) = true := fun c hc => by
    rw [isDigitIn_of_isDecimal (h c hc), Bool.or_true]
  have hempty : cs.isEmpty = false := by simpa using hne
  simp only [readAscii, trimBlanks_of_decimal h, splitSign_of_decimal h, dropBaseMark_ten,
    List.takeWhile_eq_self_iff.mpr hbody, List.dropWhile_eq_nil_iff.mpr hbody,
    withoutUnderscores_of_decimal h, underscoresSeparate_of_decimal h hne, hempty,
    decide_eq_false (Nat.not_lt.mpr hlen)]
  simp

/-! ### The digits of a number -/

theorem isDecimal_toNat {d : Char} (h : d.isDigit = true) : isDecimal d.toNat := by
  simp only [Char.isDigit, Bool.and_eq_true, decide_eq_true_eq] at h
  have hlo : 48 ≤ d.toNat := h.1
  have hhi : d.toNat ≤ 57 := h.2
  simp [isDecimal, hlo, hhi]

/-- A number is written with decimal digits. -/
theorem isDecimal_digits {n c : Nat} (h : c ∈ (Nat.toDigits 10 n).map Char.toNat) : isDecimal c := by
  obtain ⟨d, hd, rfl⟩ := List.mem_map.mp h
  exact isDecimal_toNat (Nat.isDigit_of_mem_toDigits (by decide) (by decide) hd)

theorem foldl_digits {ds : List Char} (h : ∀ d ∈ ds, d.isDigit = true) (n : Nat) :
    (ds.map Char.toNat).foldl (fun n c => n * 10 + (asciiDigit? c).getD 0) n = Nat.ofDigitChars 10 ds n := by
  induction ds generalizing n with
  | nil => rfl
  | cons d rest ih =>
    have hd := asciiDigit?_of_isDecimal (isDecimal_toNat (h d List.mem_cons_self))
    simp only [List.map_cons, List.foldl_cons, hd, Option.getD_some]
    rw [ih fun e he => h e (List.mem_cons_of_mem d he), Nat.mul_comm n 10]
    rfl

/-- The digits that a number is written with are worth the number. -/
theorem digitsValue_digits (n : Nat) : digitsValue 10 ((Nat.toDigits 10 n).map Char.toNat) = n := by
  have hds : ∀ d ∈ Nat.toDigits 10 n, d.isDigit = true := fun d hd =>
    Nat.isDigit_of_mem_toDigits (by decide) (by decide) hd
  rw [digitsValue, foldl_digits hds]
  exact Nat.ofDigitChars_toDigits (by decide) (by decide)

theorem codesOf_toString (n : Nat) : codesOf (toString n) = (Nat.toDigits 10 n).map Char.toNat := by
  rw [codesOf, Nat.toString_eq_repr, Nat.toList_repr]

/-- The decimal text of a number below the limit reads back as the number. -/
theorem readInteger_toString {n : Nat} (h : n < 10 ^ digitLimit) :
    readInteger 10 (codesOf (toString n)) = .ok n := by
  have hdec : ∀ c ∈ (Nat.toDigits 10 n).map Char.toNat, isDecimal c := fun c hc => isDecimal_digits hc
  have hne : (Nat.toDigits 10 n).map Char.toNat ≠ [] := by simp
  have hlen : ((Nat.toDigits 10 n).map Char.toNat).length ≤ digitLimit := by
    rw [List.length_map]
    exact (Nat.length_toDigits_le_iff (by decide) (by decide)).mpr h
  rw [codesOf_toString, readInteger, plainScript_of_decimal hdec, readAscii_of_decimal hdec hne hlen,
    digitsValue_digits]

end Outflow.Number
