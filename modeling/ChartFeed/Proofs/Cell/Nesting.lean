import ChartFeed.Cell

/-!
# Cells within cells

A cell can be the result of a formula or of a rollup, and a rollup can gather cells in an array.

* `Nesting`, `Nesting.Forms` : how cells are wrapped and gathered around values, and the JSON values
  of that shape; `Nesting.leaves` the values, from left to right.
* `ofFormula_eq_normalize`, `ofRollup_eq_normalize` : a value under a wrapper comes to the same as by
  itself, although its number or date is read on another way.
* `joinLabels_append` : labels that are joined in parts are joined as a whole.
* `normalize_nested` : wrappers change nothing, and arrays in arrays come to one list.
-/

namespace ChartFeed.Cell

/-! ## Wrapping and gathering -/

/-- A cell around values. -/
inductive Nesting where
  | leaf (value : Json)
  | formula (inner : Nesting)
  | rollup (inner : Nesting)
  | gathered (parts : List Nesting)

/-- Tags that only the result of a formula or of a rollup has. -/
def resultTags : List String := ["string", "boolean", "array", "incomplete", "unsupported"]

/-- A value that can stand by itself: its tag, if it has one, is not that of a result. -/
def IsValue (j : Json) : Prop := ∀ tag, tag? j = some tag → tag ∉ resultTags

namespace Nesting

@[elab_as_elim]
theorem inductionOn {motive : Nesting → Prop} (leaf : ∀ value, motive (leaf value))
    (formula : ∀ t, motive t → motive (formula t)) (rollup : ∀ t, motive t → motive (rollup t))
    (gathered : ∀ ts, (∀ t ∈ ts, motive t) → motive (gathered ts)) (t : Nesting) : motive t := by
  refine @Nesting.rec motive (fun ts => ∀ t ∈ ts, motive t) leaf formula rollup gathered ?_ ?_ t
  · intro t ht
    cases ht
  · intro t ts ht hts t' ht'
    rcases List.mem_cons.mp ht' with rfl | ht'
    · exact ht
    · exact hts t' ht'

mutual

/-- The JSON value has this shape. Objects may hold further fields, in any order. -/
def Forms : Nesting → Json → Prop
  | .leaf value, j => j = value ∧ IsValue value
  | .formula t, j =>
    tag? j = some "formula" ∧ ∃ inner, j.get? "formula" = some inner ∧ t.Forms inner
  | .rollup t, j =>
    tag? j = some "rollup" ∧ ∃ inner, j.get? "rollup" = some inner ∧ t.Forms inner
  | .gathered ts, j =>
    tag? j = some "rollup" ∧ ∃ array items, j.get? "rollup" = some array ∧
      tag? array = some "array" ∧ array.get? "array" = some (.list items) ∧ AllForm ts items
termination_by structural t => t

/-- The JSON values have these shapes, one after the other. -/
def AllForm : List Nesting → List Json → Prop
  | [], items => items = []
  | t :: ts, items => ∃ j rest, items = j :: rest ∧ t.Forms j ∧ AllForm ts rest
termination_by structural ts => ts

end

mutual

/-- The values that a cell is nested around, from left to right. -/
def leaves : Nesting → List Json
  | .leaf value => [value]
  | .formula t | .rollup t => t.leaves
  | .gathered ts => leavesOf ts
termination_by structural t => t

def leavesOf : List Nesting → List Json
  | [] => []
  | t :: ts => t.leaves ++ leavesOf ts
termination_by structural ts => ts

end

/-- There is an array in it. Since a wrapper holds one cell, an array is then the first thing below
the wrappers. -/
def isGathered : Nesting → Bool
  | .leaf _ => false
  | .formula t | .rollup t => t.isGathered
  | .gathered _ => true

end Nesting

/-! ## Values under wrappers -/

variable {j inner : Json}

theorem fields?_of_tag? {tag : String} (h : tag? j = some tag) :
    ∃ fields, j.fields? = some fields := by
  cases j with
  | object fields => exact ⟨fields, rfl⟩
  | _ => cases h

theorem isValue_of_tag? {tag : String} (htag : tag? j = some tag) (h : tag ∉ resultTags) :
    IsValue j := by
  intro tag' htag'
  obtain rfl := Option.some.inj (htag.symm.trans htag')
  exact h

theorem number?_getD (key : String) (j : Json) :
    (j.getD key).number?.getD 0.0 = numberField key j := by
  unfold Json.getD numberField
  cases j.get? key <;> rfl

theorem normalize_of_number (h : tag? j = some "number") :
    normalize j = .number (numberField "number" j) := by
  obtain ⟨fields, hfields⟩ := fields?_of_tag? h
  have htype : PropertyType.ofTag? "number" = some .number := by decide
  rw [normalize, hfields, h]
  simp only [htype, ofPayload]
  exact congrArg Scalar.number (number?_getD "number" j)

theorem normalize_of_date (h : tag? j = some "date") :
    normalize j = .text (fieldLabel "start" (j.getD "date")) := by
  obtain ⟨fields, hfields⟩ := fields?_of_tag? h
  have htype : PropertyType.ofTag? "date" = some .date := by decide
  rw [normalize, hfields, h]
  simp only [htype, ofPayload]
  rfl

theorem ofFormula_eq_normalize (h : IsValue j) : ofFormula j = normalize j := by
  unfold ofFormula
  split
  · next htag => exact absurd (by decide) (h _ htag)
  · next htag => exact (normalize_of_number htag).symm
  · next htag => exact absurd (by decide) (h _ htag)
  · next htag => exact (normalize_of_date htag).symm
  · rfl

theorem ofRollup_eq_normalize (h : IsValue j) : ofRollup j = normalize j := by
  unfold ofRollup
  split
  · next htag => exact (normalize_of_number htag).symm
  · next htag => exact (normalize_of_date htag).symm
  · next htag => exact absurd (by decide) (h _ htag)
  · next htag => exact absurd (by decide) (h _ htag)
  · next htag => exact absurd (by decide) (h _ htag)
  · rfl

theorem normalize_of_formula (htag : tag? j = some "formula")
    (hinner : j.get? "formula" = some inner) : normalize j = ofFormula inner := by
  obtain ⟨fields, hfields⟩ := fields?_of_tag? htag
  have htype : PropertyType.ofTag? "formula" = some .formula := by decide
  rw [normalize, hfields, htag]
  simp only [htype]
  split
  · next hnone => simp [hinner] at hnone
  · next payload hpayload => rw [Option.some.inj (hpayload.symm.trans hinner)]

theorem normalize_of_rollup (htag : tag? j = some "rollup")
    (hinner : j.get? "rollup" = some inner) : normalize j = ofRollup inner := by
  obtain ⟨fields, hfields⟩ := fields?_of_tag? htag
  have htype : PropertyType.ofTag? "rollup" = some .rollup := by decide
  rw [normalize, hfields, htag]
  simp only [htype]
  split
  · next hnone => simp [hinner] at hnone
  · next payload hpayload => rw [Option.some.inj (hpayload.symm.trans hinner)]

def itemLabel (j : Json) : String := (normalize j).display

theorem ofRollup_of_array {items : List Json} (htag : tag? j = some "array")
    (hitems : j.get? "array" = some (.list items)) :
    ofRollup j = .text (joinLabels (items.map itemLabel)) := by
  rw [ofRollup]
  simp only [htag]
  split
  · next hnone => simp [hitems] at hnone
  · next array harray =>
    obtain rfl := Option.some.inj (harray.symm.trans hitems)
    exact congrArg (fun labels => Scalar.text (joinLabels labels))
      (List.attach_map_val (l := items) (f := itemLabel))

/-! ## Joined labels -/

theorem intercalate_ne_empty (sep : String) {labels : List String} (hne : labels ≠ [])
    (h : ∀ label ∈ labels, label ≠ "") : sep.intercalate labels ≠ "" := by
  obtain ⟨label, rest, rfl⟩ := List.exists_cons_of_ne_nil hne
  have hlabel := h label List.mem_cons_self
  cases rest with
  | nil => rwa [String.intercalate_singleton]
  | cons next rest =>
    rw [String.intercalate_cons_cons, ne_eq, String.append_eq_empty_iff, String.append_eq_empty_iff]
    exact fun hempty => hlabel hempty.1.1

@[simp] theorem joinLabels_singleton (label : String) : joinLabels [label] = label := by
  unfold joinLabels
  by_cases h : label = ""
  · simp [h]
  · simp [h]

theorem joinLabels_eq_empty {labels : List String} :
    joinLabels labels = "" ↔ labels.filter (!·.isEmpty) = [] := by
  constructor
  · intro h
    refine Decidable.byContradiction fun hne => intercalate_ne_empty ", " hne ?_ h
    intro label hlabel
    simpa using (List.mem_filter.mp hlabel).2
  · intro h
    rw [joinLabels, h, String.intercalate_nil]

theorem joinLabels_append (ls ls' : List String) :
    joinLabels (ls ++ ls') = joinLabels [joinLabels ls, joinLabels ls'] := by
  by_cases h : ls.filter (!·.isEmpty) = []
  · have hdropped : joinLabels ["", joinLabels ls'] = joinLabels [joinLabels ls'] := rfl
    rw [joinLabels_eq_empty.mpr h, hdropped, joinLabels_singleton, joinLabels, List.filter_append, h,
      List.nil_append]
    rfl
  by_cases h' : ls'.filter (!·.isEmpty) = []
  · have hdropped : joinLabels [joinLabels ls, ""] = joinLabels [joinLabels ls] := by
      simp [joinLabels, List.filter_cons]
    rw [joinLabels_eq_empty.mpr h', hdropped, joinLabels_singleton, joinLabels, List.filter_append,
      h', List.append_nil]
    rfl
  · have hne : joinLabels ls ≠ "" := mt joinLabels_eq_empty.mp h
    have hne' : joinLabels ls' ≠ "" := mt joinLabels_eq_empty.mp h'
    have hkept : [joinLabels ls, joinLabels ls'].filter (!·.isEmpty) =
      [joinLabels ls, joinLabels ls'] := by simp [hne, hne']
    rw [joinLabels, List.filter_append, String.intercalate_append_of_ne_nil h h', joinLabels, hkept,
      String.intercalate_cons_cons, String.intercalate_singleton]
    rfl

/-! ## Nested cells -/

open Nesting

theorem isValue_of_forms {t : Nesting} (h : t.Forms j) : IsValue j := by
  cases t with
  | leaf value =>
    obtain ⟨rfl, hvalue⟩ := h
    exact hvalue
  | formula t => exact isValue_of_tag? h.1 (by decide)
  | rollup t => exact isValue_of_tag? h.1 (by decide)
  | gathered ts => exact isValue_of_tag? h.1 (by decide)

/-- A cell of this shape comes to its only value, or to the labels of its values. -/
structure Settles (t : Nesting) (j : Json) : Prop where
  bare : t.isGathered = false → ∃ value, t.leaves = [value] ∧ normalize j = normalize value
  listed : t.isGathered = true → normalize j = .text (joinLabels (t.leaves.map itemLabel))

theorem Settles.itemLabel_eq {t : Nesting} (h : Settles t j) :
    itemLabel j = joinLabels (t.leaves.map itemLabel) := by
  cases hgathered : t.isGathered with
  | false =>
    obtain ⟨value, hleaves, hvalue⟩ := h.bare hgathered
    rw [hleaves, List.map_singleton, joinLabels_singleton, itemLabel, hvalue]
    rfl
  | true =>
    rw [itemLabel, h.listed hgathered]
    rfl

theorem joinLabels_of_settles {ts : List Nesting} {items : List Json} (hforms : AllForm ts items)
    (h : ∀ t ∈ ts, ∀ j, t.Forms j → Settles t j) :
    joinLabels (items.map itemLabel) = joinLabels ((leavesOf ts).map itemLabel) := by
  induction ts generalizing items with
  | nil =>
    cases hforms
    rfl
  | cons t ts ih =>
    obtain ⟨j, rest, rfl, hj, hrest⟩ := hforms
    have hfirst := (h t List.mem_cons_self j hj).itemLabel_eq
    have hparts := joinLabels_append [itemLabel j] (rest.map itemLabel)
    rw [joinLabels_singleton, hfirst, ih hrest fun t' ht' => h t' (List.mem_cons_of_mem t ht'),
      ← joinLabels_append, ← List.map_append] at hparts
    rw [List.map_cons, hfirst]
    exact hparts

theorem settles_of_forms {t : Nesting} {j : Json} (h : t.Forms j) : Settles t j := by
  induction t using Nesting.inductionOn generalizing j with
  | leaf value =>
    obtain ⟨rfl, -⟩ := h
    exact ⟨fun _ => ⟨j, rfl, rfl⟩, nofun⟩
  | formula t ih =>
    obtain ⟨htag, inner, hinner, hforms⟩ := h
    have hsame : normalize j = normalize inner :=
      (normalize_of_formula htag hinner).trans (ofFormula_eq_normalize (isValue_of_forms hforms))
    exact ⟨fun hbare => hsame ▸ (ih hforms).bare hbare,
      fun hlisted => hsame ▸ (ih hforms).listed hlisted⟩
  | rollup t ih =>
    obtain ⟨htag, inner, hinner, hforms⟩ := h
    have hsame : normalize j = normalize inner :=
      (normalize_of_rollup htag hinner).trans (ofRollup_eq_normalize (isValue_of_forms hforms))
    exact ⟨fun hbare => hsame ▸ (ih hforms).bare hbare,
      fun hlisted => hsame ▸ (ih hforms).listed hlisted⟩
  | gathered ts ih =>
    obtain ⟨htag, array, items, harray, hlist, hitems, hforms⟩ := h
    refine ⟨nofun, fun _ => ?_⟩
    rw [normalize_of_rollup htag harray, ofRollup_of_array hlist hitems,
      joinLabels_of_settles hforms fun t ht j hj => ih t ht hj]
    rfl

theorem leavesOf_map_leaf (values : List Json) : leavesOf (values.map leaf) = values := by
  induction values with
  | nil => rfl
  | cons value values ih =>
    rw [List.map_cons, leavesOf, ih]
    rfl

/-- **Wrappers change nothing, and arrays in arrays come to one list.** A cell that is wrapped in
formulas and rollups comes to what its value comes to. Where there is an array below the wrappers, it
comes to the labels of the values below it that are not empty, from left to right, however deep they
stand; and so does the array of just these values. -/
theorem normalize_nested {t : Nesting} {j : Json} (h : t.Forms j) :
    (t.isGathered = false → ∃ value, t.leaves = [value] ∧ normalize j = normalize value) ∧
      (t.isGathered = true →
        normalize j = .text (String.intercalate ", "
          ((t.leaves.map fun value => (normalize value).display).filter (· ≠ ""))) ∧
        ∀ flat, (gathered (t.leaves.map leaf)).Forms flat → normalize flat = normalize j) := by
  have hsettles := settles_of_forms h
  refine ⟨hsettles.bare, fun hgathered => ⟨?_, fun flat hflat => ?_⟩⟩
  · rw [hsettles.listed hgathered, joinLabels]
    refine congrArg (fun labels => Scalar.text (", ".intercalate labels)) ?_
    refine List.filter_congr fun label _ => ?_
    rw [Bool.eq_iff_iff]
    simp
  · rw [hsettles.listed hgathered, (settles_of_forms hflat).listed rfl]
    exact congrArg (fun values => Scalar.text (joinLabels (List.map itemLabel values)))
      (leavesOf_map_leaf t.leaves)

/-- A number under two wrappers. -/
def wrappedDeal : Json :=
  .object [("formula", .object [("rollup", .object [("number", .int 5), ("type", .text "number")]),
    ("type", .text "rollup")]), ("type", .text "formula")]

def dueDate (day : String) : Json :=
  .object [("date", .object [("start", .text day)]), ("type", .text "date")]

/-- Dates in an array in an array, some of them wrapped, one missing. -/
def gatheredDeals : Json :=
  .object [("formula", .object [("rollup", .object [("array", .list [
      .object [("formula", dueDate "2024-05-01"), ("type", .text "formula")],
      .object [("rollup", .object [("array", .list [.null, dueDate "2024-06-01"]),
        ("type", .text "array")]), ("type", .text "rollup")]]),
      ("function", .text "show_original"), ("type", .text "array")]), ("type", .text "rollup")]),
    ("type", .text "formula")]

theorem normalize_nested_deals :
    (Nesting.formula (.rollup (.leaf (.object [("number", .int 5), ("type", .text "number")])))).Forms
        wrappedDeal ∧
      normalize wrappedDeal = normalize (.object [("number", .int 5), ("type", .text "number")]) ∧
      (Nesting.formula (.gathered [.formula (.leaf (dueDate "2024-05-01")),
        .gathered [.leaf .null, .leaf (dueDate "2024-06-01")]])).Forms gatheredDeals ∧
      normalize gatheredDeals = .text "2024-05-01, 2024-06-01" := by
  have hwrapped : (Nesting.formula (.rollup (.leaf (.object [("number", .int 5),
      ("type", .text "number")])))).Forms wrappedDeal :=
    ⟨rfl, _, rfl, rfl, _, rfl, rfl, isValue_of_tag? rfl (show "number" ∉ resultTags by decide)⟩
  have hgathered : (Nesting.formula (.gathered [.formula (.leaf (dueDate "2024-05-01")),
      .gathered [.leaf .null, .leaf (dueDate "2024-06-01")]])).Forms gatheredDeals := by
    have hdate (day : String) : IsValue (dueDate day) :=
      isValue_of_tag? rfl (show "date" ∉ resultTags by decide)
    refine ⟨rfl, _, rfl, rfl, _, _, rfl, rfl, rfl, _, _, rfl, ⟨rfl, _, rfl, rfl, hdate _⟩, _, _, rfl,
      ⟨rfl, _, _, rfl, rfl, rfl, _, _, rfl, ⟨rfl, nofun⟩, _, _, rfl, ⟨rfl, hdate _⟩, rfl⟩, rfl⟩
  have hdisplay (day : String) : (normalize (dueDate day)).display = day := by
    rw [normalize_of_date rfl]
    rfl
  have hnull : (normalize .null).display = "" := by
    rw [normalize]
    rfl
  obtain ⟨value, hleaves, hnumber⟩ := (normalize_nested hwrapped).1 rfl
  have hdates := ((normalize_nested hgathered).2 rfl).1
  cases hleaves
  refine ⟨hwrapped, hnumber, hgathered, hdates.trans ?_⟩
  simp [leaves, leavesOf, hdisplay, hnull]

end ChartFeed.Cell
