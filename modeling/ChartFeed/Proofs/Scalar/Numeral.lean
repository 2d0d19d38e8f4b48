import Mathlib.Computability.Language
import ChartFeed.Proofs.Decimal.Reading

/-!
# The longest numeral

* `numerals` : the texts that are numerals, as a language.
* `Numeral.IsWellFormed` : parts that spell one; `mem_numerals` says that they spell all of them.
* `Numeral.read_eq_some` : what is read is a numeral at the start of the text.
* `Numeral.exists_read` : no numeral at the start of a text is longer than the one that is read.
* `leadingNumber_longest` : a text is read as what the longest numeral behind its blanks denotes.
-/

namespace ChartFeed

open Computability

/-! ## The language of numerals -/

namespace Numeral

def digit : Language Char := {w | ∃ c, c.isDigit = true ∧ w = [c]}

def digits : Language Char := digit * digit∗

def signs : Language Char := {['+'], ['-']}

/-- Digits with a point behind, between or before them. -/
def mantissas : Language Char := digits * (1 + {['.']} * digit∗) + {['.']} * digits

def exponents : Language Char := {['e'], ['E']} * (1 + signs) * digits

end Numeral

open Numeral in
/-- The numerals `[+-]? (D+ (. D*)? | . D+) ([eE] [+-]? D+)?`. -/
def numerals : Language Char := (1 + signs) * mantissas * (1 + exponents)

namespace Numeral

def AreDigits (cs : List Char) : Prop := ∀ c ∈ cs, c.isDigit = true

/-- There is no sign, or it is one. -/
def IsSign (sign : Option Char) : Prop := ∀ c ∈ sign, c = '+' ∨ c = '-'

structure Exponent.IsWellFormed (e : Exponent) : Prop where
  mark : e.mark = 'e' ∨ e.mark = 'E'
  sign : IsSign e.sign
  digits : AreDigits e.digits
  digits_ne_nil : e.digits ≠ []

/-- The parts spell a numeral. -/
structure IsWellFormed (n : Numeral) : Prop where
  sign : IsSign n.sign
  whole : AreDigits n.whole
  fraction : AreDigits n.fraction
  point : n.point = false → n.fraction = []
  some_digit : n.whole ≠ [] ∨ n.fraction ≠ []
  exponent : ∀ e ∈ n.exponent, e.IsWellFormed

theorem mem_digit_kstar {w : List Char} : w ∈ digit∗ ↔ AreDigits w := by
  rw [Language.mem_kstar]
  constructor
  · rintro ⟨parts, rfl, hparts⟩ c hc
    obtain ⟨part, hpart, hc⟩ := List.mem_flatten.mp hc
    obtain ⟨d, hd, rfl⟩ := hparts part hpart
    rwa [List.mem_singleton.mp hc]
  · intro h
    refine ⟨w.map fun c => [c], (List.flatMap_singleton' w).symm, fun part hpart => ?_⟩
    obtain ⟨c, hc, rfl⟩ := List.mem_map.mp hpart
    exact ⟨c, h c hc, rfl⟩

theorem mem_digits {w : List Char} : w ∈ digits ↔ AreDigits w ∧ w ≠ [] := by
  simp only [digits, Language.mem_mul, mem_digit_kstar]
  constructor
  · rintro ⟨_, ⟨c, hc, rfl⟩, rest, hrest, rfl⟩
    exact ⟨List.forall_mem_cons.mpr ⟨hc, hrest⟩, List.cons_ne_nil c rest⟩
  · rintro ⟨hdigits, hne⟩
    obtain ⟨c, rest, rfl⟩ := List.exists_cons_of_ne_nil hne
    obtain ⟨hc, hrest⟩ := List.forall_mem_cons.mp hdigits
    exact ⟨[c], ⟨c, hc, rfl⟩, rest, hrest, rfl⟩

theorem mem_one_add_signs {w : List Char} :
    w ∈ 1 + signs ↔ ∃ sign, IsSign sign ∧ w = sign.toList := by
  constructor
  · rintro (rfl | rfl | rfl)
    · exact ⟨none, nofun, rfl⟩
    · exact ⟨some '+', by simp [IsSign], rfl⟩
    · exact ⟨some '-', by simp [IsSign], rfl⟩
  · rintro ⟨_ | c, hsign, rfl⟩
    · exact Or.inl rfl
    · obtain rfl | rfl := hsign c rfl
      · exact Or.inr (Or.inl rfl)
      · exact Or.inr (Or.inr rfl)

theorem mem_exponents {w : List Char} :
    w ∈ exponents ↔ ∃ e : Exponent, e.IsWellFormed ∧ w = e.chars := by
  simp only [exponents, Language.mem_mul, mem_digits, mem_one_add_signs]
  constructor
  · rintro ⟨_, ⟨mark, hmark, _, ⟨sign, hsign, rfl⟩, rfl⟩, ds, ⟨hds, hne⟩, rfl⟩
    obtain rfl | rfl := hmark
    · exact ⟨⟨'e', sign, ds⟩, ⟨Or.inl rfl, hsign, hds, hne⟩, rfl⟩
    · exact ⟨⟨'E', sign, ds⟩, ⟨Or.inr rfl, hsign, hds, hne⟩, rfl⟩
  · rintro ⟨⟨mark, sign, ds⟩, ⟨hmark, hsign, hds, hne⟩, rfl⟩
    refine ⟨_, ⟨[mark], ?_, _, ⟨sign, hsign, rfl⟩, rfl⟩, ds, ⟨hds, hne⟩, rfl⟩
    obtain rfl | rfl := hmark
    · exact Or.inl rfl
    · exact Or.inr rfl

def pointChars (point : Bool) : List Char := if point then ['.'] else []

def exponentChars : Option Exponent → List Char
  | some e => e.chars
  | none => []

theorem chars_eq (n : Numeral) : n.chars = n.sign.toList ++ (n.whole ++ (pointChars n.point ++
    (n.fraction ++ exponentChars n.exponent))) := by
  simp only [chars, pointChars, List.append_assoc]
  rfl

theorem mem_mantissas {w : List Char} :
    w ∈ mantissas ↔ ∃ whole point fraction, AreDigits whole ∧ AreDigits fraction ∧
      (point = false → fraction = []) ∧ (whole ≠ [] ∨ fraction ≠ []) ∧
      w = whole ++ (pointChars point ++ fraction) := by
  simp only [mantissas, Language.mem_add, Language.mem_mul, Language.mem_one, mem_digits,
    mem_digit_kstar]
  constructor
  · rintro (⟨whole, ⟨hwhole, hne⟩, _, rfl | ⟨_, rfl, fraction, hfraction, rfl⟩, rfl⟩ |
      ⟨_, rfl, fraction, ⟨hfraction, hne⟩, rfl⟩)
    · exact ⟨whole, false, [], hwhole, nofun, fun _ => rfl, Or.inl hne, rfl⟩
    · exact ⟨whole, true, fraction, hwhole, hfraction, nofun, Or.inl hne, rfl⟩
    · exact ⟨[], true, fraction, nofun, hfraction, nofun, Or.inr hne, rfl⟩
  · rintro ⟨whole, point, fraction, hwhole, hfraction, hpoint, hdigit, rfl⟩
    by_cases hne : whole = []
    · -- only digits behind the point are left
      have hne' := hdigit.resolve_left (not_not_intro hne)
      cases point with
      | false => exact absurd (hpoint rfl) hne'
      | true => exact Or.inr ⟨_, rfl, fraction, ⟨hfraction, hne'⟩, by rw [hne]; rfl⟩
    · refine Or.inl ⟨whole, ⟨hwhole, hne⟩, _, ?_, rfl⟩
      cases point with
      | false => exact Or.inl (hpoint rfl)
      | true => exact Or.inr ⟨_, rfl, fraction, hfraction, rfl⟩

theorem mem_one_add_exponents {w : List Char} :
    w ∈ 1 + exponents ↔ ∃ exponent : Option Exponent,
      (∀ e ∈ exponent, e.IsWellFormed) ∧ w = exponentChars exponent := by
  rw [Language.mem_add, Language.mem_one, mem_exponents]
  constructor
  · rintro (rfl | ⟨e, he, rfl⟩)
    · exact ⟨none, nofun, rfl⟩
    · exact ⟨some e, by simpa using he, rfl⟩
  · rintro ⟨_ | e, he, rfl⟩
    · exact Or.inl rfl
    · exact Or.inr ⟨e, he e rfl, rfl⟩

theorem mem_numerals {w : List Char} :
    w ∈ numerals ↔ ∃ n : Numeral, n.IsWellFormed ∧ n.chars = w := by
  simp only [numerals, Language.mem_mul, mem_one_add_signs, mem_mantissas, mem_one_add_exponents]
  constructor
  · rintro ⟨_, ⟨_, ⟨sign, hsign, rfl⟩, _, ⟨whole, point, fraction, hwhole, hfraction, hpoint, hdigit,
      rfl⟩, rfl⟩, _, ⟨exponent, hexponent, rfl⟩, rfl⟩
    exact ⟨⟨sign, whole, point, fraction, exponent⟩,
      ⟨hsign, hwhole, hfraction, hpoint, hdigit, hexponent⟩, by simp [chars_eq]⟩
  · rintro ⟨n, h, rfl⟩
    exact ⟨_, ⟨_, ⟨n.sign, h.sign, rfl⟩, _, ⟨n.whole, n.point, n.fraction, h.whole, h.fraction,
      h.point, h.some_digit, rfl⟩, rfl⟩, _, ⟨n.exponent, h.exponent, rfl⟩, by simp [chars_eq]⟩

/-! ## What is read -/

section reading

variable {cs rest ds : List Char}

theorem areDigits_takeWhile (cs : List Char) : AreDigits (cs.takeWhile Char.isDigit) :=
  fun _ hc => (List.all_eq_true.mp List.all_takeWhile) _ hc

theorem readSign_spec (cs : List Char) :
    IsSign (readSign cs).1 ∧ (readSign cs).1.toList ++ (readSign cs).2 = cs := by
  fun_cases readSign cs with
  | case1 cs => exact ⟨by simp [IsSign], rfl⟩
  | case2 cs => exact ⟨by simp [IsSign], rfl⟩
  | case3 => exact ⟨nofun, rfl⟩

theorem readFraction_spec (cs : List Char) :
    AreDigits (readFraction cs).2.1 ∧ ((readFraction cs).1 = false → (readFraction cs).2.1 = []) ∧
      pointChars (readFraction cs).1 ++ ((readFraction cs).2.1 ++ (readFraction cs).2.2) = cs := by
  fun_cases readFraction cs with
  | case1 cs =>
    exact ⟨areDigits_takeWhile cs, nofun, congrArg ('.' :: ·) List.takeWhile_append_dropWhile⟩
  | case2 => exact ⟨nofun, fun _ => rfl, rfl⟩

theorem readExponent_spec (cs : List Char) :
    (∀ e ∈ (readExponent cs).1, e.IsWellFormed) ∧
      exponentChars (readExponent cs).1 ++ (readExponent cs).2 = cs := by
  fun_cases readExponent cs with
  | case1 => exact ⟨nofun, rfl⟩
  | case2 c cs hmark sign rest hsign hnone => exact ⟨nofun, rfl⟩
  | case3 c cs hmark sign rest hsign hsome =>
    obtain ⟨hs, happend⟩ := readSign_spec cs
    rw [hsign] at hs happend
    refine ⟨fun e he => ?_, ?_⟩
    · obtain rfl := Option.some.inj he
      exact ⟨hmark, hs, areDigits_takeWhile rest, hsome⟩
    · simp only [exponentChars, Exponent.chars, List.cons_append, List.append_assoc,
        List.takeWhile_append_dropWhile, happend]
  | case4 c cs hmark => exact ⟨nofun, rfl⟩

theorem read_eq {sign : Option Char} {point : Bool} {fraction tail : List Char}
    (hsign : readSign cs = (sign, ds))
    (hfraction : readFraction (ds.dropWhile Char.isDigit) = (point, fraction, tail)) :
    read cs = if ds.takeWhile Char.isDigit = [] ∧ fraction = [] then none
      else some (⟨sign, ds.takeWhile Char.isDigit, point, fraction, (readExponent tail).1⟩,
        (readExponent tail).2) := by
  simp only [read, hsign, hfraction, Bool.and_eq_true, List.isEmpty_iff]

theorem read_eq_some {n : Numeral} (h : read cs = some (n, rest)) :
    n.IsWellFormed ∧ n.chars ++ rest = cs := by
  obtain ⟨sign, ds, hs⟩ : ∃ sign ds, readSign cs = (sign, ds) := ⟨_, _, rfl⟩
  obtain ⟨point, fraction, tail, hf⟩ :
      ∃ point fraction tail, readFraction (ds.dropWhile Char.isDigit) = (point, fraction, tail) :=
    ⟨_, _, _, rfl⟩
  have hsign := readSign_spec cs
  have hfraction := readFraction_spec (ds.dropWhile Char.isDigit)
  have hexponent := readExponent_spec tail
  rw [hs] at hsign
  rw [hf] at hfraction
  rw [read_eq hs hf] at h
  by_cases hnone : ds.takeWhile Char.isDigit = [] ∧ fraction = []
  · rw [if_pos hnone] at h
    cases h
  · rw [if_neg hnone] at h
    cases h
    refine ⟨⟨hsign.1, areDigits_takeWhile ds, hfraction.1, hfraction.2.1,
      not_and_or.mp hnone, hexponent.1⟩, ?_⟩
    simp only [chars_eq, List.append_assoc, hexponent.2, hfraction.2.2,
      List.takeWhile_append_dropWhile, hsign.2]

/-! ## What is read of a text that starts with a numeral -/

theorem readSign_append {sign : Option Char} (hsign : IsSign sign)
    (hhead : ∀ c ∈ cs.head?, c ≠ '+' ∧ c ≠ '-') : readSign (sign.toList ++ cs) = (sign, cs) := by
  cases sign with
  | none =>
    fun_cases readSign cs with
    | case1 => exact absurd rfl (hhead _ rfl).1
    | case2 => exact absurd rfl (hhead _ rfl).2
    | case3 => rfl
  | some c =>
    obtain rfl | rfl := hsign c rfl
    · rfl
    · rfl

theorem readFraction_point (h : AreDigits ds) (rest : List Char) :
    readFraction ('.' :: (ds ++ rest)) =
      (true, ds ++ rest.takeWhile Char.isDigit, rest.dropWhile Char.isDigit) := by
  rw [readFraction, List.takeWhile_append_of_pos h, List.dropWhile_append_of_pos h]

theorem readFraction_of_head (h : ∀ c ∈ cs.head?, c ≠ '.') : readFraction cs = (false, [], cs) := by
  fun_cases readFraction cs with
  | case1 => exact absurd rfl (h _ rfl)
  | case2 => rfl

theorem ne_of_isDigit {c d : Char} (h : c.isDigit = true) (hd : d.isDigit = false) : c ≠ d := by
  rintro rfl
  exact Bool.noConfusion (h.symm.trans hd)

theorem isDigit_head (h : AreDigits ds) (hne : ds ≠ []) :
    ∀ c ∈ (ds ++ rest).head?, c.isDigit = true := by
  obtain ⟨d, ds, rfl⟩ := List.exists_cons_of_ne_nil hne
  intro c hc
  obtain rfl := Option.some.inj hc
  exact h d List.mem_cons_self

theorem readExponent_append {e : Exponent} (h : e.IsWellFormed) (rest : List Char) :
    readExponent (e.chars ++ rest) =
      (some { e with digits := e.digits ++ rest.takeWhile Char.isDigit },
        rest.dropWhile Char.isDigit) := by
  obtain ⟨mark, sign, ds⟩ := e
  have hhead : ∀ c ∈ (ds ++ rest).head?, c ≠ '+' ∧ c ≠ '-' := fun c hc =>
    have hdigit := isDigit_head h.digits h.digits_ne_nil c hc
    ⟨ne_of_isDigit hdigit rfl, ne_of_isDigit hdigit rfl⟩
  simp only [Exponent.chars, List.cons_append, List.append_assoc, readExponent, if_pos h.mark,
    readSign_append h.sign hhead]
  rw [List.takeWhile_append_of_pos h.digits, List.dropWhile_append_of_pos h.digits]
  split
  · rename_i hnil
    exact absurd (List.append_eq_nil_iff.mp hnil).1 h.digits_ne_nil
  · rfl

theorem Exponent.IsWellFormed.head {e : Exponent} (h : e.IsWellFormed) (rest : List Char) :
    ∀ c ∈ (e.chars ++ rest).head?, c.isDigit = false ∧ c ≠ '.' := by
  obtain ⟨mark, sign, ds⟩ := e
  intro c hc
  obtain rfl := Option.some.inj hc
  obtain rfl | rfl := h.mark
  · exact ⟨rfl, show 'e' ≠ '.' by decide⟩
  · exact ⟨rfl, show 'E' ≠ '.' by decide⟩

theorem takeWhile_of_head (h : ∀ c ∈ cs.head?, c.isDigit = false) :
    cs.takeWhile Char.isDigit = [] ∧ cs.dropWhile Char.isDigit = cs := by
  cases cs with
  | nil => exact ⟨rfl, rfl⟩
  | cons c cs =>
    have hc : ¬ c.isDigit = true := by simp [h c rfl]
    exact ⟨List.takeWhile_cons_of_neg hc, List.dropWhile_cons_of_neg hc⟩

theorem IsWellFormed.head {n : Numeral} (h : n.IsWellFormed) (cs : List Char) :
    ∀ c ∈ (n.whole ++ (pointChars n.point ++ (n.fraction ++ cs))).head?, c ≠ '+' ∧ c ≠ '-' := by
  intro c hc
  by_cases hwhole : n.whole = []
  · have hpoint : n.point = true := by
      by_contra hpoint
      have hnil := h.point (Bool.eq_false_iff.mpr hpoint)
      exact h.some_digit.elim (absurd hwhole) (absurd hnil)
    rw [hwhole, hpoint] at hc
    obtain rfl := Option.some.inj hc
    decide
  · have hdigit := isDigit_head h.whole hwhole c hc
    exact ⟨ne_of_isDigit hdigit rfl, ne_of_isDigit hdigit rfl⟩

theorem read_append {sign : Option Char} {whole tail fraction tail' : List Char} {point : Bool}
    (hsign : IsSign sign) (hwhole : AreDigits whole)
    (hhead : ∀ c ∈ (whole ++ tail).head?, c ≠ '+' ∧ c ≠ '-')
    (hfraction : readFraction (tail.dropWhile Char.isDigit) = (point, fraction, tail'))
    (hdigit : whole ≠ [] ∨ fraction ≠ []) :
    read (sign.toList ++ (whole ++ tail)) =
      some (⟨sign, whole ++ tail.takeWhile Char.isDigit, point, fraction, (readExponent tail').1⟩,
        (readExponent tail').2) := by
  have hdrop : (whole ++ tail).dropWhile Char.isDigit = tail.dropWhile Char.isDigit :=
    List.dropWhile_append_of_pos hwhole
  have hnone : ¬ ((whole ++ tail).takeWhile Char.isDigit = [] ∧ fraction = []) := by
    rw [List.takeWhile_append_of_pos hwhole, List.append_eq_nil_iff]
    tauto
  rw [read_eq (readSign_append hsign hhead) (hdrop ▸ hfraction), if_neg hnone,
    List.takeWhile_append_of_pos hwhole]

theorem IsWellFormed.read_exponent {sign : Option Char} {whole fraction : List Char} {point : Bool}
    {e : Exponent} (h : IsWellFormed ⟨sign, whole, point, fraction, some e⟩) (rest : List Char) :
    read (sign.toList ++ (whole ++ (pointChars point ++ (fraction ++ (e.chars ++ rest))))) =
      some (⟨sign, whole, point, fraction,
        some { e with digits := e.digits ++ rest.takeWhile Char.isDigit }⟩,
        rest.dropWhile Char.isDigit) := by
  have he := h.exponent e rfl
  obtain ⟨htake, hdrop⟩ := takeWhile_of_head fun c hc => (he.head rest c hc).1
  -- the digits before the point stop in front of the point, or of the exponent where there is none
  have hfraction : (pointChars point ++ (fraction ++ (e.chars ++ rest))).takeWhile Char.isDigit = [] ∧
      readFraction ((pointChars point ++ (fraction ++ (e.chars ++ rest))).dropWhile Char.isDigit) =
        (point, fraction, e.chars ++ rest) := by
    cases point with
    | true =>
      refine ⟨rfl, (readFraction_point h.fraction _).trans ?_⟩
      rw [htake, hdrop, List.append_nil]
    | false =>
      obtain rfl := h.point rfl
      refine ⟨htake, (congrArg readFraction hdrop).trans ?_⟩
      exact readFraction_of_head fun c hc => (he.head rest c hc).2
  rw [read_append h.sign h.whole (h.head _) hfraction.2 h.some_digit, readExponent_append he rest,
    hfraction.1, List.append_nil]

theorem IsWellFormed.read_mantissa {sign : Option Char} {whole fraction : List Char} {point : Bool}
    (h : IsWellFormed ⟨sign, whole, point, fraction, none⟩) (rest : List Char) :
    ∃ n rest', read (sign.toList ++ (whole ++ (pointChars point ++ (fraction ++ rest)))) =
        some (n, rest') ∧
      (sign.toList ++ (whole ++ (pointChars point ++ fraction))).length ≤ n.chars.length ∧
      (rest = [] → n = ⟨sign, whole, point, fraction, none⟩) := by
  cases point with
  | true =>
    have hdigit : whole ≠ [] ∨ fraction ++ rest.takeWhile Char.isDigit ≠ [] :=
      h.some_digit.imp_right fun hne => List.append_ne_nil_of_left_ne_nil hne _
    refine ⟨_, _, read_append h.sign h.whole (h.head rest) (readFraction_point h.fraction rest)
      hdigit, ?_, ?_⟩
    · simp only [chars_eq, List.length_append]
      omega
    · rintro rfl
      simp [pointChars, readExponent]
  | false =>
    obtain rfl := h.point rfl
    have hdigit : whole ≠ [] := h.some_digit.resolve_right (not_not_intro rfl)
    refine ⟨_, _, read_append h.sign h.whole (h.head rest) rfl (Or.inl hdigit), ?_, ?_⟩
    · have hnopoint : (pointChars false).length = 0 := rfl
      simp only [chars_eq, List.length_append, List.length_nil]
      omega
    · rintro rfl
      simp [pointChars, readExponent]

/-- **What is read of a text that starts with a numeral is no shorter than the numeral**, and it is
the numeral where the text ends behind it. -/
theorem exists_read {m : Numeral} (h : m.IsWellFormed) (rest : List Char) :
    ∃ n rest', read (m.chars ++ rest) = some (n, rest') ∧ m.chars.length ≤ n.chars.length ∧
      (rest = [] → n = m) := by
  obtain ⟨sign, whole, point, fraction, exponent⟩ := m
  rw [chars_eq]
  simp only [List.append_assoc]
  cases exponent with
  | none =>
    simpa only [exponentChars, List.append_nil, List.nil_append] using h.read_mantissa rest
  | some e =>
    refine ⟨_, _, h.read_exponent rest, ?_, ?_⟩
    · simp [chars_eq, exponentChars, Exponent.chars]
    · rintro rfl
      simp

end reading

/-! ## The longest numeral -/

/-- The numeral is the longest one that the characters start with. -/
structure IsLongest (n : Numeral) (cs : List Char) : Prop where
  isWellFormed : n.IsWellFormed
  isPrefix : n.chars <+: cs
  longest : ∀ w ∈ numerals, w <+: cs → w.length ≤ n.chars.length

variable {n m : Numeral} {cs rest : List Char}

theorem read_chars (h : n.IsWellFormed) : ∃ rest, read n.chars = some (n, rest) := by
  obtain ⟨m, rest, hread, -, hend⟩ := exists_read h []
  rw [List.append_nil] at hread
  exact ⟨rest, hend rfl ▸ hread⟩

theorem eq_of_chars_eq (hn : n.IsWellFormed) (hm : m.IsWellFormed) (h : n.chars = m.chars) :
    n = m := by
  obtain ⟨_, hn⟩ := read_chars hn
  obtain ⟨_, hm⟩ := read_chars hm
  rw [h, hm] at hn
  exact (congrArg Prod.fst (Option.some.inj hn)).symm

theorem isLongest_of_read (h : read cs = some (n, rest)) : n.IsLongest cs := by
  obtain ⟨hn, rfl⟩ := read_eq_some h
  refine ⟨hn, List.prefix_append _ _, fun w hw hstart => ?_⟩
  obtain ⟨m, hm, rfl⟩ := mem_numerals.mp hw
  obtain ⟨tail, htail⟩ := hstart
  obtain ⟨n', rest', hread, hlength, -⟩ := exists_read hm tail
  rw [htail, h] at hread
  cases hread
  exact hlength

theorem IsLongest.unique (hn : n.IsLongest cs) (hm : m.IsLongest cs) : n = m := by
  have hlength : n.chars.length = m.chars.length := Nat.le_antisymm
    (hm.longest _ (mem_numerals.mpr ⟨n, hn.isWellFormed, rfl⟩) hn.isPrefix)
    (hn.longest _ (mem_numerals.mpr ⟨m, hm.isWellFormed, rfl⟩) hm.isPrefix)
  have hstart := List.prefix_of_prefix_length_le hn.isPrefix hm.isPrefix hlength.le
  exact eq_of_chars_eq hn.isWellFormed hm.isWellFormed (hstart.eq_of_length hlength)

theorem read_eq_none : read cs = none ↔ ∀ w ∈ numerals, ¬ w <+: cs := by
  constructor
  · rintro hnone w hw ⟨rest, rfl⟩
    obtain ⟨n, hn, rfl⟩ := mem_numerals.mp hw
    obtain ⟨_, _, hread, -⟩ := exists_read hn rest
    rw [hnone] at hread
    cases hread
  · intro h
    rw [Option.eq_none_iff_forall_ne_some]
    rintro ⟨n, rest⟩ hread
    have hn := isLongest_of_read hread
    exact h _ (mem_numerals.mpr ⟨n, hn.isWellFormed, rfl⟩) hn.isPrefix

theorem read_fst_eq_some : (read cs).map Prod.fst = some n ↔ n.IsLongest cs := by
  constructor
  · intro h
    obtain ⟨⟨_, rest⟩, hread, rfl⟩ := Option.map_eq_some_iff.mp h
    exact isLongest_of_read hread
  · intro h
    cases hread : read cs with
    | none =>
      have hnone := read_eq_none.mp hread n.chars (mem_numerals.mpr ⟨n, h.isWellFormed, rfl⟩)
      exact absurd h.isPrefix hnone
    | some result => exact congrArg some ((isLongest_of_read hread).unique h)

/-! ## Where the text is cut -/

theorem utf8Size_of_isDigit {c : Char} (h : c.isDigit = true) : c.utf8Size = 1 := by
  rw [Char.utf8Size_eq_one_iff]
  simp only [Char.isDigit, Bool.and_eq_true, decide_eq_true_eq] at h
  exact UInt32.le_trans h.2 (by decide)

theorem utf8Size_of_isSign {sign : Option Char} (h : IsSign sign) :
    ∀ c ∈ sign.toList, c.utf8Size = 1 := by
  intro c hc
  obtain rfl | rfl := h c (Option.mem_toList.mp hc)
  · rfl
  · rfl

theorem Exponent.IsWellFormed.utf8Size_eq_one {e : Exponent} (h : e.IsWellFormed) :
    ∀ c ∈ e.chars, c.utf8Size = 1 := by
  simp only [Exponent.chars, List.mem_cons, List.mem_append]
  rintro c (rfl | hc | hc)
  · obtain hmark | hmark := h.mark <;> rw [hmark] <;> rfl
  · exact utf8Size_of_isSign h.sign c hc
  · exact utf8Size_of_isDigit (h.digits c hc)

theorem IsWellFormed.utf8Size_eq_one (h : n.IsWellFormed) : ∀ c ∈ n.chars, c.utf8Size = 1 := by
  simp only [chars_eq, List.mem_append]
  rintro c (hc | hc | hc | hc | hc)
  · exact utf8Size_of_isSign h.sign c hc
  · exact utf8Size_of_isDigit (h.whole c hc)
  · obtain ⟨-, rfl⟩ : n.point = true ∧ c = '.' := by simpa [pointChars] using hc
    rfl
  · exact utf8Size_of_isDigit (h.fraction c hc)
  · obtain ⟨e, he, hc⟩ : ∃ e, n.exponent = some e ∧ c ∈ e.chars := by
      cases hexponent : n.exponent with
      | none =>
        rw [hexponent] at hc
        cases hc
      | some e =>
        rw [hexponent] at hc
        exact ⟨e, rfl, hc⟩
    exact (h.exponent e he).utf8Size_eq_one c hc

theorem utf8ByteSize_ofList (h : ∀ c ∈ cs, c.utf8Size = 1) :
    (String.ofList cs).utf8ByteSize = cs.length := by
  induction cs with
  | nil => rfl
  | cons c cs ih =>
    obtain ⟨hc, hcs⟩ := List.forall_mem_cons.mp h
    rw [String.ofList_cons, String.utf8ByteSize_append, String.utf8ByteSize_singleton, hc, ih hcs,
      List.length_cons, Nat.add_comm]

theorem IsWellFormed.isValid_cut (h : n.IsWellFormed) {t : String} (hstart : n.chars <+: t.toList) :
    String.Pos.Raw.IsValid t ⟨n.chars.length⟩ := by
  obtain ⟨rest, hrest⟩ := hstart
  rw [String.Pos.Raw.isValid_iff_exists_append]
  refine ⟨String.ofList n.chars, String.ofList rest, ?_, ?_⟩
  · rw [← String.ofList_append, hrest, String.ofList_toList]
  · rw [String.Pos.Raw.ext_iff, String.byteIdx_rawEndPos, utf8ByteSize_ofList h.utf8Size_eq_one]

theorem read_word {sign : Option Char} {c : Char} (hsign : IsSign sign) (hdigit : c.isDigit = false)
    (hother : c ≠ '.' ∧ c ≠ '+' ∧ c ≠ '-') (cs : List Char) :
    read (sign.toList ++ c :: cs) = none := by
  have hhead : ∀ d ∈ (c :: cs).head?, d ≠ '+' ∧ d ≠ '-' := by
    intro d hd
    obtain rfl := Option.some.inj hd
    exact hother.2
  obtain ⟨htake, hdrop⟩ : (c :: cs).takeWhile Char.isDigit = [] ∧
      (c :: cs).dropWhile Char.isDigit = c :: cs := takeWhile_of_head fun d hd => by
    obtain rfl := Option.some.inj hd
    exact hdigit
  have hfraction : readFraction ((c :: cs).dropWhile Char.isDigit) = (false, [], c :: cs) := by
    rw [hdrop]
    refine readFraction_of_head fun d hd => ?_
    obtain rfl := Option.some.inj hd
    exact hother.1
  rw [read_eq (readSign_append hsign hhead) hfraction, if_pos ⟨htake, rfl⟩]

end Numeral

/-! ## The headline -/

/-- **A text is read as the double that the longest numeral behind its blanks denotes**, the nearest
one to its decimal, whatever follows the numeral, and as none if there is no numeral; the numeral
ends where a character does. A text that goes on, with a sign or without one, in neither a digit nor
a point is none: infinities and not-a-number are never read. -/
theorem leadingNumber_longest (s : String) :
    (leadingNumber s = none ↔ ∀ w ∈ numerals, ¬ w <+: (Text.trimStart s).toList) ∧
    (∀ x, leadingNumber s = some x ↔
      ∃ n : Numeral, n.IsLongest (Text.trimStart s).toList ∧ n.Denotes x) ∧
    (∀ n : Numeral, n.IsLongest (Text.trimStart s).toList →
      String.Pos.Raw.IsValid (Text.trimStart s) ⟨n.chars.length⟩) ∧
    ∀ sign c rest, (Text.trimStart s).toList = sign.toList ++ c :: rest → Numeral.IsSign sign →
      c.isDigit = false → c ≠ '.' ∧ c ≠ '+' ∧ c ≠ '-' → leadingNumber s = none := by
  have hread : leadingNumber s =
      ((Numeral.read (Text.trimStart s).toList).map Prod.fst).map Numeral.value := by
    rw [Text.trimStart, String.toList_ofList, Option.map_map]
    rfl
  rw [hread]
  refine ⟨?_, fun x => ?_, fun n h => h.isWellFormed.isValid_cut h.isPrefix, ?_⟩
  · rw [Option.map_eq_none_iff, Option.map_eq_none_iff, Numeral.read_eq_none]
  · simp only [Option.map_eq_some_iff (f := Numeral.value), Numeral.read_fst_eq_some,
      Numeral.denotes_iff]
  · intro sign c rest ht hsign hdigit hother
    rw [ht, Numeral.read_word hsign hdigit hother]
    rfl

/-- An exponent without digits is not read, nor is an infinity. -/
theorem leadingNumber_longest_deals :
    leadingNumber " 3.5e+ deals" = some 3.5 ∧ leadingNumber " -inf" = none := by
  have hlongest : Numeral.IsLongest ⟨none, ['3'], true, ['5'], none⟩
      (Text.trimStart " 3.5e+ deals").toList := Numeral.read_fst_eq_some.mp rfl
  refine ⟨?_, ?_⟩
  · exact ((leadingNumber_longest " 3.5e+ deals").2.1 3.5).mpr
      ⟨_, hlongest, Numeral.denotes_iff.mpr rfl⟩
  · exact (leadingNumber_longest " -inf").2.2.2 (some '-') 'i' ['n', 'f'] rfl
      (by simp [Numeral.IsSign]) rfl (by decide)

end ChartFeed
