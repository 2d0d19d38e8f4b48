import ChartFeed.Cell
import ChartFeed.Proofs.Decimal.Number

/-!
# The numbers of cells

* `Json.IsFinite` : values whose doubles are finite, as those of all JSON texts are.
* `Cell.isNumber_normalize` : a cell of a finite value never comes to not-a-number.
* `Cell.toNumber_ofRow_ne_nan` : hence nor does a row on a numeric axis.
-/

namespace ChartFeed

/-- Every double in the value is finite, at any depth. -/
inductive Json.IsFinite : Json → Prop
  | null : IsFinite .null
  | bool (b : Bool) : IsFinite (.bool b)
  | int (n : Int) : IsFinite (.int n)
  | float {x : Float} (h : x.isFinite = true) : IsFinite (.float x)
  | text (s : String) : IsFinite (.text s)
  | list {items : List Json} (h : ∀ item ∈ items, IsFinite item) : IsFinite (.list items)
  | object {fields : List (String × Json)} (h : ∀ field ∈ fields, IsFinite field.2) :
    IsFinite (.object fields)

namespace Json

@[simp] theorem isFinite_text (s : String) : (text s).IsFinite := .text s

@[simp] theorem isFinite_float {x : Float} : (float x).IsFinite ↔ x.isFinite = true :=
  ⟨fun h => by cases h with | float h => exact h, .float⟩

@[simp] theorem isFinite_object {fields : List (String × Json)} :
    (object fields).IsFinite ↔ ∀ field ∈ fields, field.2.IsFinite :=
  ⟨fun h => by cases h with | object h => exact h, .object⟩

variable {j v : Json} {key : String}

theorem IsFinite.get? (hj : j.IsFinite) (h : j.get? key = some v) : v.IsFinite := by
  cases hj with
  | object hfields =>
    obtain ⟨before, after, rfl, -⟩ := List.lookup_eq_some_iff.mp h
    exact hfields (key, v) (List.mem_append_right before List.mem_cons_self)
  | _ => cases h

theorem IsFinite.number?_ne_nan (hj : j.IsFinite) {x : Float} (h : j.number? = some x) :
    x ≠ .nan := by
  cases hj with
  | int n =>
    cases h
    exact Double.ofInt_ne_nan n
  | float hx =>
    cases h
    exact Double.ne_nan_of_isFinite hx
  | _ => cases h

end Json

/-- The scalar is not the number that is none. -/
def Scalar.IsNumber : Scalar → Prop
  | .number x => x ≠ .nan
  | _ => True

theorem Scalar.IsNumber.toNumber_ne_nan {s : Scalar} (h : s.IsNumber) : s.toNumber ≠ .nan := by
  cases s with
  | bool b => exact Double.zero_ne_nan
  | number x => exact h
  | text s =>
    rw [Scalar.toNumber]
    cases hs : leadingNumber s with
    | none => exact Double.zero_ne_nan
    | some x => exact leadingNumber_ne_nan hs

namespace Cell

open Scalar (IsNumber)

variable {j : Json}

theorem numberField_ne_nan (hj : j.IsFinite) (key : String) : numberField key j ≠ .nan := by
  unfold numberField
  cases hvalue : j.get? key with
  | none => exact Double.zero_ne_nan
  | some v =>
    rw [Option.bind_some]
    cases hnumber : v.number? with
    | none => exact Double.zero_ne_nan
    | some x => exact (hj.get? hvalue).number?_ne_nan hnumber

theorem isNumber_usable (hj : j.IsFinite) {s : Scalar} (h : usable j = some s) : s.IsNumber := by
  cases hj with
  | int n =>
    cases h
    exact Double.ofInt_ne_nan n
  | float hx =>
    cases h
    exact Double.ne_nan_of_isFinite hx
  | bool b => cases b <;> cases h; trivial
  | text t =>
    rw [usable] at h
    split at h
    · cases h
    · cases h
      trivial
  | _ => cases h

theorem isNumber_fallback (hj : j.IsFinite) (tag : Option String) : (fallback tag j).IsNumber := by
  unfold fallback
  split
  · next s hs =>
    obtain ⟨key, -, hkey⟩ := List.exists_of_findSome?_eq_some hs
    obtain ⟨v, hv, husable⟩ := Option.bind_eq_some_iff.mp hkey
    exact isNumber_usable (hj.get? hv) husable
  · split <;> trivial

theorem isNumber_uniqueId (hj : j.IsFinite) : (uniqueId j).IsNumber := by
  unfold uniqueId
  split
  · trivial
  next n hn =>
    obtain ⟨v, hv, hnumber⟩ := Option.bind_eq_some_iff.mp hn
    have hne := (hj.get? hv).number?_ne_nan hnumber
    split
    · split
      · exact hne
      · trivial
    · exact hne

theorem isFinite_getD (hj : j.IsFinite) (key : String) : (j.getD key).IsFinite := by
  unfold Json.getD
  cases h : j.get? key with
  | none => exact .null
  | some v => exact hj.get? h

theorem isNumber_ofPayload (hj : j.IsFinite) (t : PropertyType) : (ofPayload t j).IsNumber := by
  have hpayload := isFinite_getD hj t.tag
  unfold ofPayload
  cases t with
  | number =>
    cases h : (j.getD PropertyType.number.tag).number? with
    | none =>
      dsimp only
      rw [h]
      exact Double.zero_ne_nan
    | some x =>
      dsimp only
      rw [h]
      exact hpayload.number?_ne_nan h
  | uniqueId => exact isNumber_uniqueId hpayload
  | _ => trivial

theorem isNumber_ofFormula (hj : j.IsFinite) (hcell : (normalize j).IsNumber) :
    (ofFormula j).IsNumber := by
  unfold ofFormula
  split
  · trivial
  · exact numberField_ne_nan hj _
  · trivial
  · trivial
  · exact hcell

theorem isNumber_ofRollup (hj : j.IsFinite) (hcell : (normalize j).IsNumber) :
    (ofRollup j).IsNumber := by
  unfold ofRollup
  split
  · exact numberField_ne_nan hj _
  · trivial
  · split
    · trivial
    · split <;> trivial
  · trivial
  · trivial
  · exact hcell

theorem isNumber_normalize {j : Json} (hj : j.IsFinite) : (normalize j).IsNumber := by
  unfold normalize
  split
  · trivial
  split
  · exact isNumber_fallback hj _
  split
  · exact isNumber_fallback hj _
  · split
    · trivial
    next payload hpayload =>
      have hsmaller := sizeOf_lt_of_get? hpayload
      have hfinite := hj.get? hpayload
      exact isNumber_ofFormula hfinite (isNumber_normalize hfinite)
  · split
    · trivial
    next payload hpayload =>
      have hsmaller := sizeOf_lt_of_get? hpayload
      have hfinite := hj.get? hpayload
      exact isNumber_ofRollup hfinite (isNumber_normalize hfinite)
  · exact isNumber_ofPayload hj _
termination_by sizeOf j

theorem toNumber_ofRow_ne_nan (hj : j.IsFinite) (name : String) :
    (ofRow j name).toNumber ≠ .nan := by
  apply Scalar.IsNumber.toNumber_ne_nan
  unfold ofRow
  split
  · next cell hcell =>
    obtain ⟨properties, hproperties, hcell⟩ := Option.bind_eq_some_iff.mp hcell
    exact isNumber_normalize ((hj.get? hproperties).get? hcell)
  · trivial

end Cell

end ChartFeed
