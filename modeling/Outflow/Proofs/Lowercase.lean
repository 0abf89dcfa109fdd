import Mathlib.Tactic.NormNum
import Outflow.Text.Lowercase

/-!
# Words that have no other spelling

Lower case takes every Unicode letter into account, and so a word can be the lower-case form of texts that are
not spelled with its letters: a `k` is also the form of the kelvin sign.  For all other letters there is no
such coincidence.

* `asciiLower`: the lower-case form of a code point as far as ASCII goes;
* `IsOwnLetter`: the letters that only ASCII letters become;
* `lowerByRuns_eq_iff`: a code point becomes such a letter only in ASCII;
* `lower_eq_iff`: a text becomes a word of such letters only in ASCII.
-/

namespace Outflow.Text

/-- The lower-case form of a code point as far as ASCII goes. -/
def asciiLower (c : Nat) : Nat := if 65 ≤ c ∧ c ≤ 90 then c + 32 else c

/-- The lower-case ASCII letters but `k`. -/
def IsOwnLetter (c : Nat) : Prop := 97 ≤ c ∧ c ≤ 122 ∧ c ≠ 107

instance (c : Nat) : Decidable (IsOwnLetter c) := inferInstanceAs (Decidable (_ ∧ _))

/-- A run begins after the ASCII letters, and what it leads to are none of them, or `k`. -/
def CaseRun.IsForeign (r : CaseRun) : Prop :=
  122 < r.first ∧ (122 < r.first + r.offset ∨ r.last = r.first ∧ r.first + r.offset = 107)

instance (r : CaseRun) : Decidable r.IsForeign := inferInstanceAs (Decidable (_ ∧ _))

/-- All runs but the first are foreign. -/
theorem isForeign_of_mem_tail : ∀ r ∈ lowerRuns.tail, r.IsForeign := by decide +kernel

variable {c l : Nat} {rs : List CaseRun}

theorem CaseRun.IsForeign.ne {r : CaseRun} (h : r.IsForeign) (hc : r.covers c = true) (hl : IsOwnLetter l) :
    (c + r.offset).toNat ≠ l ∧ c ≠ l := by
  obtain ⟨hfirst, hform⟩ := h
  obtain ⟨hlo, hhi, hk⟩ := hl
  simp only [covers, Bool.and_eq_true, decide_eq_true_eq] at hc
  omega

theorem lowerByRuns_of_foreign (h : ∀ r ∈ rs, r.IsForeign) (hl : IsOwnLetter l) :
    lowerByRuns rs c = l ↔ c = l := by
  induction rs with
  | nil => rfl
  | cons r rest ih =>
    obtain ⟨hr, hrest⟩ := List.forall_mem_cons.1 h
    rw [lowerByRuns]
    split
    · rename_i hc
      obtain ⟨hform, hne⟩ := hr.ne hc hl
      exact iff_of_false hform hne
    · exact ih hrest

/-- A code point becomes one of the letters by the table only in ASCII. -/
theorem lowerByRuns_eq_iff (hl : IsOwnLetter l) : lowerByRuns lowerRuns c = l ↔ asciiLower c = l := by
  have hruns : lowerRuns = ⟨65, 90, 1, 32⟩ :: lowerRuns.tail := rfl
  have hcovers : (CaseRun.mk 65 90 1 32).covers c = true ↔ 65 ≤ c ∧ c ≤ 90 := by
    simp [CaseRun.covers, Nat.mod_one]
  rw [hruns, lowerByRuns, asciiLower]
  by_cases hc : 65 ≤ c ∧ c ≤ 90
  · rw [if_pos (hcovers.2 hc), if_pos hc]
    exact Iff.rfl
  · rw [if_neg (mt hcovers.1 hc), if_neg hc]
    exact lowerByRuns_of_foreign isForeign_of_mem_tail hl

theorem asciiLower_of_gt (h : 90 < c) : asciiLower c = c := if_neg fun hc => by omega

/-- A text becomes a word of the letters, whatever was passed before it, only in ASCII. -/
theorem lowerFrom_eq_iff {cs word : Codes} (hw : ∀ l ∈ word, IsOwnLetter l) (before : Codes) :
    lowerFrom before cs = word ↔ cs.map asciiLower = word := by
  induction cs generalizing before word with
  | nil => rfl
  | cons c rest ih =>
    rw [lowerFrom, List.map_cons]
    by_cases hsigma : c = 0x3A3
    · -- neither form of the capital sigma is such a letter, and the capital sigma is none
      rw [if_pos hsigma, hsigma, asciiLower_of_gt (by norm_num)]
      refine iff_of_false (fun h => ?_) fun h => absurd (hw 0x3A3 (h ▸ List.mem_cons_self)) (by decide)
      have hmem := hw (if endsWord before rest then 0x3C2 else 0x3C3) (h ▸ List.mem_cons_self)
      split at hmem <;> exact absurd hmem (by decide)
    rw [if_neg hsigma, lowerCode]
    by_cases hdot : c = 0x130
    · rw [if_pos hdot, hdot, asciiLower_of_gt (by norm_num)]
      exact iff_of_false (fun h => absurd (hw 0x307 (h ▸ by simp)) (by decide))
        fun h => absurd (hw 0x130 (h ▸ List.mem_cons_self)) (by decide)
    rw [if_neg hdot, List.singleton_append]
    cases word with
    | nil => exact iff_of_false (List.cons_ne_nil _ _) (List.cons_ne_nil _ _)
    | cons l word =>
      obtain ⟨hl, hword⟩ := List.forall_mem_cons.1 hw
      rw [List.cons_eq_cons, List.cons_eq_cons, lowerByRuns_eq_iff hl, ih hword]

/-- A text becomes a word of the letters only in ASCII. -/
theorem lower_eq_iff {cs word : Codes} (hw : ∀ l ∈ word, IsOwnLetter l) :
    lower cs = word ↔ cs.map asciiLower = word := lowerFrom_eq_iff hw []

end Outflow.Text
