import ChartFeed.Proofs.Calendar.Days
import ChartFeed.Proofs.Text.Step
import ChartFeed.Proofs.Text.Trim

/-!
# Moments in writing

* `Moment` : a moment of the years 0 to 9999 in one of the forms that it is written in, and
  `Moment.nanos`, when that is.
* `Moment.read?_of_isWritten` : whatever blanks stand around it, a moment is read as itself.
* `Moment.isBefore_instant_iff` : what is read is in the order of the moments.
-/

namespace ChartFeed

open Text (Step IsNumber EndsSolid isBlank isNumber_padded)
open Text.Step (digits literal oneOf atEnd Reads Reads.bind Reads.bind_pure reads_literal reads_oneOf
  reads_digits reads_digitsUpTo reads_looseNumber)
open Instant (padded)

structure Time where
  hour : Fin 24
  minute : Fin 60
  second : Fin 60

/-- A part of a second in one to nine digits: so many tenths, hundredths, ... -/
structure Fraction where
  width : Nat
  count : Nat
  width_pos : 0 < width
  width_le : width ≤ 9
  count_lt : count < 10 ^ width

/-- How far clocks are ahead of universal time, or behind it. -/
inductive Zone where
  | utc (mark : { c : Char // c ∈ ['Z', 'z'] })
  | ahead (hours : Fin 24) (minutes : Fin 60)
  | behind (mark : { c : Char // c ∈ ['-', '\u2212'] }) (hours : Fin 24) (minutes : Fin 60)

/-- What is written of a moment after its day. -/
inductive Form where
  /-- Nothing, for midnight in universal time. -/
  | date
  /-- A time in universal time. -/
  | dateTime (time : Time)
  | stamp (mark : { c : Char // c ∈ ['T', 't', ' '] }) (time : Time) (fraction : Option Fraction)
    (zone : Zone)

/-- A moment of the years 0 to 9999 as it is written. -/
structure Moment where
  date : Date
  form : Form
  valid : date.isValid = true
  year_nonneg : 0 ≤ date.year
  year_le : date.year ≤ 9999

/-! ## Its characters -/

def Date.chars (d : Date) : List Char :=
  padded 4 d.year.toNat ++ '-' :: (padded 2 d.month ++ '-' :: padded 2 d.day)

def Time.chars (t : Time) : List Char :=
  padded 2 t.hour ++ ':' :: (padded 2 t.minute ++ ':' :: padded 2 t.second)

def Fraction.chars (f : Fraction) : List Char := '.' :: padded f.width f.count

def Zone.chars : Zone → List Char
  | utc mark => [mark.val]
  | ahead hours minutes => '+' :: (padded 2 hours ++ ':' :: padded 2 minutes)
  | behind mark hours minutes => mark.val :: (padded 2 hours ++ ':' :: padded 2 minutes)

def Form.chars : Form → List Char
  | date => []
  | dateTime time => ['T'] ++ time.chars
  | stamp mark time fraction zone =>
    [mark.val] ++ (time.chars ++ (fraction.elim [] Fraction.chars ++ zone.chars))

def Moment.chars (m : Moment) : List Char := m.date.chars ++ m.form.chars

/-- The text is the moment, with nothing but blanks around it. -/
def Moment.IsWritten (m : Moment) (s : String) : Prop :=
  ∃ before after : List Char, (∀ c ∈ before, isBlank c = true) ∧ (∀ c ∈ after, isBlank c = true) ∧
    s.toList = before ++ (m.chars ++ after)

/-! ## When it is -/

def Fraction.nanos (f : Fraction) : Nat := f.count * 10 ^ (9 - f.width)

/-- The seconds that clocks are ahead of universal time. -/
def Zone.offset : Zone → Int
  | utc _ => 0
  | ahead hours minutes => 3600 * (hours : Nat) + 60 * (minutes : Nat)
  | behind _ hours minutes => -(3600 * (hours : Nat) + 60 * (minutes : Nat))

def Form.clock : Form → Clock
  | date => ⟨0, 0, 0, 0⟩
  | dateTime t => ⟨t.hour, t.minute, t.second, 0⟩
  | stamp _ t fraction _ => ⟨t.hour, t.minute, t.second, fraction.elim 0 Fraction.nanos⟩

def Form.offset : Form → Int
  | stamp _ _ _ zone => zone.offset
  | _ => 0

/-- The nanoseconds from 0000-01-01T00:00:00Z to the moment: what the clocks of its zone show, less
what they are ahead. -/
def Moment.nanos (m : Moment) : Int :=
  1000000000 * (86400 * m.date.elapsed + 3600 * m.form.clock.hour + 60 * m.form.clock.minute +
    m.form.clock.second - m.form.offset) + m.form.clock.nanos

def Moment.instant (m : Moment) : Instant := Instant.ofLocal m.date m.form.clock m.form.offset

/-! ## Reading dates and times -/

namespace Instant

/-- A date with every number at its full width. -/
def strictDate : Step Date := do
  let year ← digits 4
  literal '-'
  let month ← digits 2
  literal '-'
  let day ← digits 2
  return ⟨year, month, day⟩

/-- A time, each number of which is read by the same step. -/
def clockBy (number : Step Nat) : Step Clock := do
  let hour ← number
  literal ':'
  let minute ← number
  literal ':'
  let second ← number
  return ⟨hour, minute, second, 0⟩

theorem stamped_eq : stamped = do
    let date ← strictDate
    let _ ← oneOf ['T', 't', ' ']
    let clock ← clockBy (digits 2)
    let nanos ← fraction
    let offset ← zone
    atEnd
    return ofParts? date { clock with nanos := nanos } offset := by
  simp only [stamped, strictDate, clockBy, bind_assoc, pure_bind]

end Instant

open Instant

theorem isNumber_hour (h : Fin 24) : IsNumber 2 h (padded 2 h) :=
  isNumber_padded (by decide) (by omega)

theorem isNumber_sixty (n : Fin 60) : IsNumber 2 n (padded 2 n) :=
  isNumber_padded (by decide) (by omega)

theorem reads_clockBy {number : Step Nat}
    (hnumber : ∀ {n ds}, IsNumber 2 n ds → Reads number ds n) (t : Time) :
    Reads (clockBy number) t.chars ⟨t.hour, t.minute, t.second, 0⟩ := by
  refine (hnumber (isNumber_hour t.hour)).bind ?_
  refine (reads_literal ':').bind ?_
  refine (hnumber (isNumber_sixty t.minute)).bind ?_
  refine (reads_literal ':').bind ?_
  exact (hnumber (isNumber_sixty t.second)).bind_pure rfl

theorem reads_looseClock (t : Time) :
    Reads looseClock t.chars ⟨t.hour, t.minute, t.second, 0⟩ :=
  reads_clockBy reads_looseNumber t

namespace Moment

variable (m : Moment)

theorem isNumber_year : IsNumber 4 m.date.year.toNat (padded 4 m.date.year.toNat) := by
  have hle := m.year_le
  exact isNumber_padded (by decide) (by omega)

theorem isNumber_month : IsNumber 2 m.date.month (padded 2 m.date.month) := by
  obtain ⟨-, hle⟩ := Date.month_of_isValid m.valid
  exact isNumber_padded (by decide) (by omega)

theorem isNumber_day : IsNumber 2 m.date.day (padded 2 m.date.day) := by
  obtain ⟨-, hle⟩ := Date.day_of_isValid m.valid
  have hmonth := Date.daysInMonth_le m.date.year m.date.month
  exact isNumber_padded (by decide) (by omega)

theorem reads_strictDate : Reads strictDate m.date.chars m.date := by
  refine (reads_digits m.isNumber_year).bind ?_
  refine (reads_literal '-').bind ?_
  refine (reads_digits m.isNumber_month).bind ?_
  refine (reads_literal '-').bind ?_
  refine (reads_digits m.isNumber_day).bind_pure ?_
  rw [Int.toNat_of_nonneg m.year_nonneg]

theorem reads_year : Reads Instant.year (padded 4 m.date.year.toNat) m.date.year := by
  intro rest
  have hread := reads_digitsUpTo m.isNumber_year rest
  have hstart := m.isNumber_year.dropBlanks_append rest
  obtain ⟨c, cs, hcs, hc⟩ := m.isNumber_year.exists_cons
  rw [hcs] at hread hstart ⊢
  unfold Instant.year
  rw [hstart]
  split
  · next heq =>
    cases heq
    cases hc
  · next heq =>
    cases heq
    cases hc
  · rw [hread]
    simp [Int.toNat_of_nonneg m.year_nonneg]

theorem reads_looseDate : Reads looseDate m.date.chars m.date := by
  have hyear : yearInRange m.date.year = true := by
    have hnonneg := m.year_nonneg
    have hle := m.year_le
    simp [yearInRange]
    omega
  refine m.reads_year.bind ?_
  refine (reads_literal '-').bind ?_
  refine (reads_looseNumber m.isNumber_month).bind ?_
  refine (reads_literal '-').bind ?_
  exact (reads_looseNumber m.isNumber_day).bind_pure (if_pos hyear)

end Moment

/-! ## Reading fractions and zones -/

theorem forall_mem_pair {P : Char → Prop} {x y : Char} (hx : P x) (hy : P y) :
    ∀ c ∈ [x, y], P c :=
  List.forall_mem_cons.mpr ⟨hx, List.forall_mem_singleton.mpr hy⟩

theorem fraction_append (f : Fraction) {c : Char} (hc : c.isDigit = false) (rest : List Char) :
    fraction (f.chars ++ c :: rest) = some (f.nanos, c :: rest) := by
  have hnumber : IsNumber f.width f.count (padded f.width f.count) :=
    isNumber_padded f.width_pos f.count_lt
  have hne : padded f.width f.count ≠ [] := by
    intro h
    have hlength := hnumber.length
    have hwidth := f.width_pos
    rw [h, List.length_nil] at hlength
    omega
  have htake : (padded f.width f.count ++ c :: rest).takeWhile Char.isDigit =
      padded f.width f.count := by
    rw [List.takeWhile_append_of_pos hnumber.digits, List.takeWhile_cons_of_neg (by simp [hc]),
      List.append_nil]
  have hkept : (padded f.width f.count).take 9 = padded f.width f.count :=
    List.take_of_length_le (by rw [hnumber.length]; exact f.width_le)
  simp [Fraction.chars, fraction, htake, hne, hkept, hnumber.value, hnumber.length, Fraction.nanos]

theorem reads_signed {mark : Char} (hmark : mark ∈ ['+', '-', '\u2212']) (hours : Fin 24)
    (minutes : Fin 60) :
    Reads zone (mark :: (padded 2 hours ++ ':' :: padded 2 minutes))
      (if mark = '+' then 3600 * (hours : Nat) + 60 * (minutes : Nat)
        else -(3600 * (hours : Nat) + 60 * (minutes : Nat))) := by
  intro rest
  have hhours : digits 2 (padded 2 hours ++ ':' :: (padded 2 minutes ++ rest)) =
      some ((hours : Nat), ':' :: (padded 2 minutes ++ rest)) := reads_digits (isNumber_hour hours) _
  have hminutes : digits 2 (padded 2 minutes ++ rest) = some ((minutes : Nat), rest) :=
    reads_digits (isNumber_sixty minutes) _
  have hsmall : (hours : Nat) ≤ 23 ∧ (minutes : Nat) ≤ 59 := by omega
  have hutc : ¬ (mark = 'Z' ∨ mark = 'z') := by
    rintro (rfl | rfl) <;> simp at hmark
  have hsigned : mark = '+' ∨ mark = '-' ∨ mark = '\u2212' := by simpa using hmark
  simp [zone, hutc, hsigned, hhours, hminutes, hsmall, literal]

theorem reads_zone (z : Zone) : Reads zone z.chars z.offset := by
  cases z with
  | utc mark =>
    intro rest
    have hutc : mark.val = 'Z' ∨ mark.val = 'z' := by simpa using mark.property
    simp [Zone.chars, zone, hutc, Zone.offset]
  | ahead hours minutes => exact reads_signed (by decide) hours minutes
  | behind mark hours minutes =>
    have hmark : mark.val ∈ ['+', '-', '\u2212'] := List.mem_cons_of_mem _ mark.property
    have hread := reads_signed hmark hours minutes
    have hminus : ∀ c ∈ ['-', '\u2212'], c ≠ '+' := forall_mem_pair (by decide) (by decide)
    rwa [if_neg (hminus _ mark.property)] at hread

theorem Zone.exists_chars (z : Zone) :
    ∃ c cs, z.chars = c :: cs ∧ c.isDigit = false ∧ c ≠ '.' := by
  have hutc : ∀ c ∈ ['Z', 'z'], c.isDigit = false ∧ c ≠ '.' :=
    forall_mem_pair (by decide) (by decide)
  have hsigned : ∀ c ∈ ['-', '\u2212'], c.isDigit = false ∧ c ≠ '.' :=
    forall_mem_pair (by decide) (by decide)
  cases z with
  | utc mark => exact ⟨mark, _, rfl, hutc _ mark.property⟩
  | ahead hours minutes => exact ⟨'+', _, rfl, by decide⟩
  | behind mark hours minutes => exact ⟨mark, _, rfl, hsigned _ mark.property⟩

theorem fraction_zone (f : Option Fraction) (z : Zone) :
    fraction (f.elim [] Fraction.chars ++ z.chars) = some (f.elim 0 Fraction.nanos, z.chars) := by
  obtain ⟨c, cs, hcs, hdigit, hpoint⟩ := z.exists_chars
  rw [hcs]
  cases f with
  | none =>
    rw [Option.elim_none, List.nil_append, fraction]
    · rfl
    · intro rest heq
      cases heq
      exact hpoint rfl
  | some f => exact fraction_append f hdigit cs

/-! ## Reading moments -/

theorem Form.isValid_clock (form : Form) : form.clock.isValid = true := by
  have htime : ∀ (t : Time) nanos, (⟨t.hour, t.minute, t.second, nanos⟩ : Clock).isValid = true := by
    intro t nanos
    simp [Clock.isValid]
    omega
  cases form with
  | date => rfl
  | dateTime t => exact htime t 0
  | stamp mark t fraction zone => exact htime t _

namespace Moment

variable (m : Moment)

theorem ofParts?_eq : ofParts? m.date m.form.clock m.form.offset = some m.instant := by
  simp [ofParts?, m.valid, m.form.isValid_clock, instant]

theorem join_run' {step : Step (Option Instant)} {cs : List Char} {answer : Option Instant}
    (h : step cs = some (answer, [])) : (step.run' cs).join = answer := by
  simp [StateT.run', h]

theorem join_run'_none {step : Step (Option Instant)} {cs : List Char} (h : step cs = none) :
    (step.run' cs).join = none := by
  simp [StateT.run', h]

theorem ofStamped?_stamp {mark t fraction z} (h : m.form = .stamp mark t fraction z) :
    ofStamped? m.chars = some m.instant := by
  have hparts := m.ofParts?_eq
  have hzone := reads_zone z []
  rw [h] at hparts
  rw [List.append_nil] at hzone
  apply join_run'
  rw [chars, h, stamped_eq, Step.bind_some (m.reads_strictDate _), Form.chars,
    Step.bind_some (reads_oneOf mark.property _), Step.bind_some (reads_clockBy reads_digits t _),
    Step.bind_some (fraction_zone fraction z), Step.bind_some hzone, ← hparts]
  rfl

theorem ofStamped?_dateTime {t} (h : m.form = .dateTime t) : ofStamped? m.chars = none := by
  have hclock := reads_clockBy reads_digits t []
  rw [List.append_nil] at hclock
  apply join_run'_none
  rw [chars, h, stamped_eq, Step.bind_some (m.reads_strictDate _), Form.chars,
    Step.bind_some (reads_oneOf (by decide) _), Step.bind_some hclock]
  rfl

theorem ofStamped?_date (h : m.form = .date) : ofStamped? m.chars = none := by
  apply join_run'_none
  rw [chars, h, stamped_eq, Step.bind_some (m.reads_strictDate _)]
  rfl

theorem ofDateTime?_dateTime {t} (h : m.form = .dateTime t) :
    ofDateTime? m.chars = some m.instant := by
  have hparts := m.ofParts?_eq
  have hclock := reads_looseClock t []
  rw [h] at hparts
  rw [List.append_nil] at hclock
  apply join_run'
  rw [chars, h, dateTime, Step.bind_some (m.reads_looseDate _), Form.chars,
    Step.bind_some (reads_literal 'T' _), Step.bind_some hclock, ← hparts]
  rfl

theorem ofDateTime?_date (h : m.form = .date) : ofDateTime? m.chars = none := by
  apply join_run'_none
  rw [chars, h, dateTime, Step.bind_some (m.reads_looseDate _)]
  rfl

theorem ofDate?_date (h : m.form = .date) : ofDate? m.chars = some m.instant := by
  have hparts := m.ofParts?_eq
  rw [h] at hparts
  apply join_run'
  rw [chars, h, plainDate, Step.bind_some (m.reads_looseDate _), ← hparts]
  rfl

theorem head?_chars : ∀ c ∈ m.chars.head?, isBlank c = false := by
  obtain ⟨c, cs, hcs, hc⟩ := m.isNumber_year.exists_cons
  rw [chars, Date.chars, hcs]
  intro d hd
  cases hd
  exact Text.isBlank_of_isDigit hc

theorem endsSolid_chars : EndsSolid m.chars := by
  have htime : ∀ t : Time, EndsSolid t.chars := fun t =>
    (isNumber_sixty t.second).endsSolid.cons.append.cons.append
  have hsigned : ∀ mark (hours : Fin 24) (minutes : Fin 60),
      EndsSolid (mark :: (padded 2 hours ++ ':' :: padded 2 minutes)) := fun mark hours minutes =>
    (isNumber_sixty minutes).endsSolid.cons.append.cons
  unfold chars
  cases m.form with
  | date =>
    rw [Form.chars, List.append_nil]
    exact m.isNumber_day.endsSolid.cons.append.cons.append
  | dateTime t => exact (htime t).append.append
  | stamp mark t fraction z =>
    apply Text.EndsSolid.append
    apply Text.EndsSolid.append
    apply Text.EndsSolid.append
    apply Text.EndsSolid.append
    cases z with
    | utc mark =>
      have hutc : ∀ c ∈ ['Z', 'z'], isBlank c = false := forall_mem_pair (by decide) (by decide)
      exact ⟨mark, rfl, hutc _ mark.property⟩
    | ahead hours minutes => exact hsigned '+' hours minutes
    | behind mark hours minutes => exact hsigned mark hours minutes

/-- **A moment is read as itself**, with whatever blanks around it. -/
theorem read?_of_isWritten {s : String} (h : m.IsWritten s) : Instant.read? s = some m.instant := by
  obtain ⟨before, after, hbefore, hafter, hs⟩ := h
  have htrim := Text.trimChars_surrounded hbefore hafter m.head?_chars m.endsSolid_chars.getLast?
  unfold Instant.read?
  rw [hs, htrim]
  dsimp only
  cases hform : m.form with
  | date =>
    rw [m.ofStamped?_date hform, m.ofDateTime?_date hform, m.ofDate?_date hform]
    rfl
  | dateTime t =>
    rw [m.ofStamped?_dateTime hform, m.ofDateTime?_dateTime hform]
    rfl
  | stamp mark t fraction z =>
    rw [m.ofStamped?_stamp hform]
    rfl

end Moment

/-! ## Order -/

theorem Instant.isBefore_iff {a b : Instant} (ha : a.nanos < 1000000000)
    (hb : b.nanos < 1000000000) : a.isBefore b = true ↔
      1000000000 * a.seconds + a.nanos < 1000000000 * b.seconds + b.nanos := by
  simp [isBefore]
  omega

theorem Fraction.nanos_lt (f : Fraction) : f.nanos < 1000000000 := by
  have hwidth := f.width_le
  have hcount := f.count_lt
  calc f.count * 10 ^ (9 - f.width)
      < 10 ^ f.width * 10 ^ (9 - f.width) :=
        Nat.mul_lt_mul_of_pos_right hcount (Nat.pow_pos (by decide))
    _ = 10 ^ 9 := by rw [← Nat.pow_add, Nat.add_sub_cancel' hwidth]
    _ = 1000000000 := rfl

theorem Form.nanos_lt (form : Form) : form.clock.nanos < 1000000000 := by
  cases form with
  | date => decide
  | dateTime t => exact Nat.zero_lt_succ _
  | stamp mark t fraction z =>
    cases fraction with
    | none => exact Nat.zero_lt_succ _
    | some f => exact f.nanos_lt

theorem Form.second_le (form : Form) : form.clock.second ≤ 59 := by
  cases form with
  | date => exact Nat.zero_le _
  | dateTime t => exact Nat.le_of_lt_succ t.second.isLt
  | stamp mark t fraction z => exact Nat.le_of_lt_succ t.second.isLt

namespace Moment

variable (m : Moment)

theorem nanos_instant : m.instant.nanos = m.form.clock.nanos := by
  have hsecond := m.form.second_le
  simp [instant, ofLocal, Clock.excess]
  omega

/-- The moment that is read, counted from 1970 on, is the moment that is written, counted from the
year 0 on. -/
theorem nanos_eq :
    m.nanos = 1000000000 * (m.instant.seconds + 86400 * 719528) + m.instant.nanos := by
  have hsecond := m.form.second_le
  have hday := Date.dayNumber_eq_elapsed m.valid m.year_nonneg
  rw [nanos_instant, nanos]
  simp only [instant, ofLocal, Clock.seconds]
  omega

/-- **Moments are read in their order.** -/
theorem isBefore_instant_iff (a b : Moment) :
    a.instant.isBefore b.instant = true ↔ a.nanos < b.nanos := by
  have ha : a.instant.nanos < 1000000000 := by
    rw [nanos_instant]
    exact a.form.nanos_lt
  have hb : b.instant.nanos < 1000000000 := by
    rw [nanos_instant]
    exact b.form.nanos_lt
  rw [Instant.isBefore_iff ha hb, a.nanos_eq, b.nanos_eq]
  omega

theorem nanos_lt_iff_of_date {a b : Moment} (ha : a.form = .date) (hb : b.form = .date) :
    a.nanos < b.nanos ↔ a.date.Precedes b.date := by
  rw [← Date.elapsed_lt_iff a.valid b.valid a.year_nonneg b.year_nonneg, nanos, nanos, ha, hb]
  simp only [Form.clock, Form.offset]
  omega

end Moment

end ChartFeed
