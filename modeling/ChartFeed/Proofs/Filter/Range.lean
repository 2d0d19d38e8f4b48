import ChartFeed.Proofs.Calendar.Written
import ChartFeed.Proofs.Filter.Condition

/-!
# Ranges of dates

* `Condition.compile_between` : a range of dates is rejected when it is inverted, and otherwise
  compiled as it stands.
* `Condition.compile_range` : a range of two moments is inverted exactly when the second comes before
  the first, whatever forms they are written in.
-/

namespace ChartFeed.Filter

/-- No moment: a truth value, a number, or a text that fits none of the three forms of a date. -/
def IsUndated : Scalar → Prop
  | .text s =>
    Instant.ofStamped? (Text.trimChars s.toList) = none ∧
      Instant.ofDateTime? (Text.trimChars s.toList) = none ∧
      Instant.ofDate? (Text.trimChars s.toList) = none
  | _ => True

/-- On or after the start and on or before the end. -/
def rangeQuery (property : String) (start stop : Scalar) : Query :=
  .all [leafWith property .date .onOrAfter start, leafWith property .date .onOrBefore stop]

/-! ## Inverted ranges -/

theorem instant?_of_isWritten {m : Moment} {s : String} (h : m.IsWritten s) :
    instant? (.text s) = some m.instant := m.read?_of_isWritten h

theorem isEmptyText_of_isWritten {m : Moment} {s : String} (h : m.IsWritten s) :
    (Scalar.text s).isEmptyText = false := by
  cases hempty : (Scalar.text s).isEmptyText with
  | false => rfl
  | true =>
    rw [Scalar.isEmptyText, String.isEmpty_iff] at hempty
    have hread := instant?_of_isWritten h
    rw [hempty, show instant? (.text "") = none by decide] at hread
    cases hread

theorem instant?_of_isUndated {v : Scalar} (h : IsUndated v) : instant? v = none := by
  cases v with
  | bool b => rfl
  | number x => rfl
  | text s =>
    obtain ⟨hstamped, hdateTime, hdate⟩ := h
    show Instant.read? s = none
    simp [Instant.read?, hstamped, hdateTime, hdate]

theorem isInverted_of_isWritten {a b : Moment} {s t : String} (ha : a.IsWritten s)
    (hb : b.IsWritten t) : isInverted (.text s) (.text t) = true ↔ b.nanos < a.nanos := by
  rw [isInverted, instant?_of_isWritten ha, instant?_of_isWritten hb]
  exact b.isBefore_instant_iff a

theorem isInverted_of_isUndated {start stop : Scalar} (h : IsUndated start ∨ IsUndated stop) :
    isInverted start stop = false := by
  rcases h with h | h
  · rw [isInverted, instant?_of_isUndated h]
  · rw [isInverted, instant?_of_isUndated h]
    cases instant? start <;> rfl

/-! ## Conditions -/

theorem exists_resolve (properties : List Property) (name : String) :
    ∃ t, resolve properties name = .ofType t := by
  unfold resolve
  split
  · exact ⟨_, rfl⟩
  · split <;> exact ⟨_, rfl⟩

theorem key_of_family {properties : List Property} {name : String}
    (h : (resolve properties name).family = .date) : (resolve properties name).key = .date := by
  obtain ⟨t, ht⟩ := exists_resolve properties name
  rw [ht] at h ⊢
  revert h
  cases t <;> decide

namespace Condition

variable {properties : List Property} {c : Condition} {start stop : Scalar}

/-- The condition asks for a range of a date column. -/
structure IsDateRange (properties : List Property) (c : Condition) (start stop : Scalar) :
    Prop where
  named : Text.isAllBlank c.property = false
  operator : Operator.parse? c.operator = some .between
  family : (resolve properties (Text.trim c.property)).family = .date
  value : c.value = some (.one start)
  endValue : c.endValue = some stop

theorem compile_between (h : c.IsDateRange properties start stop)
    (hstart : start.isEmptyText = false) (hstop : stop.isEmptyText = false) :
    c.compile properties = if isInverted start stop then .error .invertedDateRange
      else .ok (rangeQuery (Text.trim c.property) start stop) := by
  have hname : Text.trim c.property ≠ "" := Text.trim_ne_of_not_isAllBlank h.named
  have hbounds : c.bounds = .ok (start, stop) := by
    simp [bounds, h.value, h.endValue, hstart, hstop]
  rw [compile_of_parse? hname h.operator, h.family, if_pos (by decide), compileAllowed_between,
    hbounds, key_of_family h.family]
  rfl

/-- **The inverted-range check is chronology.** A range of two moments, each in any of its forms, is
rejected when its end is the earlier one and is compiled with both texts otherwise; for two dates
this is the order of year, month and day. A range with an end that is no moment is compiled. -/
theorem compile_range (h : c.IsDateRange properties start stop) :
    (∀ (a b : Moment) (s t : String), start = .text s → stop = .text t → a.IsWritten s →
        b.IsWritten t → c.compile properties = if b.nanos < a.nanos then .error .invertedDateRange
          else .ok (rangeQuery (Text.trim c.property) start stop)) ∧
      (∀ (a b : Moment) (s t : String), start = .text s → stop = .text t → a.IsWritten s →
        b.IsWritten t → a.form = .date → b.form = .date →
          (c.compile properties = .error .invertedDateRange ↔ b.date.Precedes a.date)) ∧
      (start.isEmptyText = false → stop.isEmptyText = false → IsUndated start ∨ IsUndated stop →
        c.compile properties = .ok (rangeQuery (Text.trim c.property) start stop)) := by
  have hmoments : ∀ (a b : Moment) (s t : String), start = .text s → stop = .text t →
      a.IsWritten s → b.IsWritten t → c.compile properties =
        if b.nanos < a.nanos then .error .invertedDateRange
        else .ok (rangeQuery (Text.trim c.property) start stop) := by
    rintro a b s t rfl rfl ha hb
    rw [compile_between h (isEmptyText_of_isWritten ha) (isEmptyText_of_isWritten hb)]
    exact if_congr (isInverted_of_isWritten ha hb) rfl rfl
  refine ⟨hmoments, ?_, ?_⟩
  · intro a b s t hs ht ha hb hformA hformB
    rw [hmoments a b s t hs ht ha hb, ← Moment.nanos_lt_iff_of_date hformB hformA]
    by_cases hearlier : b.nanos < a.nanos <;> simp [hearlier]
  · intro hstart hstop hundated
    rw [compile_between h hstart hstop, isInverted_of_isUndated hundated]
    rfl

/-- Half past midnight on a first of March, an hour ahead of universal time. -/
def marchMoment : Moment where
  date := ⟨2024, 3, 1⟩
  form := .stamp ⟨'T', by decide⟩ ⟨0, 30, 0⟩ none (.ahead 1 0)
  valid := by decide
  year_nonneg := by decide
  year_le := by decide

/-- The leap day before it, which has not ended yet in universal time. -/
def leapMoment : Moment where
  date := ⟨2024, 2, 29⟩
  form := .date
  valid := by decide
  year_nonneg := by decide
  year_le := by decide

def closedColumns : List Property := [⟨"Closed", .date, none, none⟩]

theorem compile_range_leapDay :
    (range "c" "Closed" (.text "2024-03-01T00:30:00+01:00") (.text " 2024-02-29\n")).compile
        closedColumns = .error .invertedDateRange ∧
      (range "c" "Closed" (.text "soon") (.number 5)).compile closedColumns =
        .ok (rangeQuery "Closed" (.text "soon") (.number 5)) := by
  have hnamed : Text.isAllBlank "Closed" = false := by decide
  have hoperator : Operator.parse? Operator.between.name = some .between := by decide
  have hfamily : (resolve closedColumns (Text.trim "Closed")).family = .date := by decide +kernel
  have hrange : ∀ start stop, (range "c" "Closed" start stop).IsDateRange closedColumns start stop :=
    fun start stop => ⟨hnamed, hoperator, hfamily, rfl, rfl⟩
  constructor
  · have hmarch : marchMoment.IsWritten "2024-03-01T00:30:00+01:00" :=
      ⟨[], [], List.forall_mem_nil _, List.forall_mem_nil _, by decide⟩
    have hleap : leapMoment.IsWritten " 2024-02-29\n" :=
      ⟨[' '], ['\n'], List.forall_mem_singleton.mpr rfl, List.forall_mem_singleton.mpr rfl,
        by decide⟩
    have hearlier : leapMoment.nanos < marchMoment.nanos :=
      (leapMoment.isBefore_instant_iff marchMoment).mp (by decide)
    obtain ⟨hmoments, -, -⟩ := compile_range (hrange _ _)
    rw [hmoments _ _ _ _ rfl rfl hmarch hleap, if_pos hearlier]
  · have hsoon : IsUndated (.text "soon") := ⟨by decide, by decide, by decide⟩
    have hname : Text.trim "Closed" = "Closed" := by decide
    obtain ⟨-, -, hundated⟩ := compile_range (hrange (.text "soon") (.number 5))
    exact hname ▸ hundated rfl rfl (Or.inl hsoon)

end Condition

end ChartFeed.Filter
