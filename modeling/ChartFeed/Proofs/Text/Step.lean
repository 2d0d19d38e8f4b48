import ChartFeed.Calendar.Instant
import ChartFeed.Calendar.Reading
import ChartFeed.Proofs.Text.Trim
import Mathlib.Algebra.Group.Nat.Defs
import Mathlib.Data.List.TakeWhile

/-!
# Reading what stands at the start

* `Step.Reads` : a step reads characters as a value, whatever follows them; `Reads.bind` for steps
  one after the other.
* `Text.IsNumber` : the digits of a number at a width; `padded` writes them.
* `Step.reads_digits`, `Step.reads_digitsUpTo`, `Step.reads_looseNumber` : they read back as the
  number.
-/

namespace ChartFeed.Text

namespace Step

variable {α β : Type} {step : Step α} {f : α → Step β} {cs ds rest : List Char} {a : α} {b : β}

/-- The step reads the characters as a value, whatever follows them. -/
def Reads (step : Step α) (cs : List Char) (a : α) : Prop :=
  ∀ rest, step (cs ++ rest) = some (a, rest)

theorem bind_some (h : step cs = some (a, rest)) : (step >>= f) cs = f a rest := by
  show (step cs >>= fun p => f p.1 p.2) = _
  rw [h]
  rfl

theorem Reads.bind (h : step.Reads cs a) (hf : (f a).Reads ds b) :
    Reads (step >>= f) (cs ++ ds) b := by
  intro rest
  rw [List.append_assoc, bind_some (h _)]
  exact hf rest

theorem Reads.bind_pure (h : step.Reads cs a) (hf : f a = pure b) : Reads (step >>= f) cs b := by
  intro rest
  rw [bind_some (h _), hf]
  rfl

theorem reads_literal (c : Char) : (literal c).Reads [c] () := fun _ => if_pos rfl

theorem reads_oneOf {allowed : List Char} {c : Char} (h : c ∈ allowed) :
    (oneOf allowed).Reads [c] c := by
  intro rest
  simp [oneOf, h]

end Step

/-! ## Digits -/

/-- The digits of a number, as many as the width. -/
structure IsNumber (width n : Nat) (ds : List Char) : Prop where
  length : ds.length = width
  digits : ∀ c ∈ ds, c.isDigit = true
  value : natOfDigits ds = n

theorem isBlank_of_isDigit {c : Char} (h : c.isDigit = true) : isBlank c = false := by
  have hrange : 48 ≤ c.toNat ∧ c.toNat ≤ 57 := by
    simpa [Char.isDigit, Char.le_def, UInt32.le_iff_toNat_le] using h
  simp [isBlank, blankRanges]
  omega

theorem natOfDigits_replicate_append (k : Nat) (ds : List Char) :
    natOfDigits (List.replicate k '0' ++ ds) = natOfDigits ds := by
  induction k with
  | zero => rfl
  | succ k ih => exact ih

theorem isNumber_padded {width n : Nat} (hwidth : 0 < width) (h : n < 10 ^ width) :
    IsNumber width n (Instant.padded width n) := by
  have hlength := (Nat.length_toDigits_le_iff (by decide) hwidth).mpr h
  refine ⟨?_, ?_, ?_⟩
  · simp [Instant.padded]
    omega
  · intro c hc
    rcases List.mem_append.mp hc with hc | hc
    · rw [(List.mem_replicate.mp hc).2]
      rfl
    · exact Nat.isDigit_of_mem_toDigits (by decide) (by decide) hc
  · rw [Instant.padded, natOfDigits_replicate_append]
    exact Nat.ofDigitChars_ten_toDigits

namespace IsNumber

variable {width n : Nat} {ds : List Char}

theorem exists_cons (h : IsNumber (width + 1) n ds) :
    ∃ c cs, ds = c :: cs ∧ c.isDigit = true := by
  cases ds with
  | nil => cases h.length
  | cons c cs => exact ⟨c, cs, rfl, h.digits c List.mem_cons_self⟩

theorem endsSolid (h : IsNumber (width + 1) n ds) : EndsSolid ds := by
  obtain ⟨c, cs, rfl, -⟩ := h.exists_cons
  refine ⟨(c :: cs).getLast (List.cons_ne_nil c cs), List.getLast?_eq_some_getLast _, ?_⟩
  exact isBlank_of_isDigit (h.digits _ (List.getLast_mem _))

theorem takeWhile_isDigit (h : IsNumber width n ds) : ds.takeWhile Char.isDigit = ds := by
  rw [List.takeWhile_eq_self_iff]
  exact h.digits

theorem dropBlanks_append (h : IsNumber (width + 1) n ds) (rest : List Char) :
    dropBlanks (ds ++ rest) = ds ++ rest := by
  obtain ⟨c, cs, rfl, hc⟩ := h.exists_cons
  simp [dropBlanks, isBlank_of_isDigit hc]

end IsNumber

namespace Step

variable {width n : Nat} {ds : List Char}

theorem reads_digits (h : IsNumber width n ds) : (digits width).Reads ds n := by
  intro rest
  have hall : ds.all Char.isDigit = true := List.all_eq_true.mpr h.digits
  simp [digits, ← h.length, hall, h.value]

theorem reads_digitsUpTo (h : IsNumber (width + 1) n ds) : (digitsUpTo (width + 1)).Reads ds n := by
  intro rest
  have hne : ds ≠ [] := by
    obtain ⟨c, cs, rfl, -⟩ := h.exists_cons
    exact List.cons_ne_nil c cs
  simp [digitsUpTo, ← h.length, h.takeWhile_isDigit, hne, h.value]

theorem reads_looseNumber (h : IsNumber (width + 1) n ds) :
    Reads (Instant.looseNumber (width + 1)) ds n := by
  intro rest
  rw [Instant.looseNumber, h.dropBlanks_append]
  exact reads_digitsUpTo h rest

end Step

end ChartFeed.Text
