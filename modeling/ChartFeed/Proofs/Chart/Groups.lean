import ChartFeed.Chart
import ChartFeed.Proofs.Cell.Number
import Mathlib.Algebra.BigOperators.Group.List.Lemmas

/-!
# Charts group their rows

* `AggregateFunction.combine` : what a function makes of values of which there is a first one.
* `Chart.keys`, `Chart.group`, `Chart.bucket` : the keys of rows, the rows of a key, their bucket.
* `Chart.Buckets.Holds` : the buckets of all keys, each at the slot of its key; adding a row keeps it
  so.
* `Point.Draws` : a point is what a group of rows comes to.
* `Chart.aggregate_groups` : a chart has one point for each key, drawn of the rows of the key.
-/

namespace ChartFeed

namespace AggregateFunction

/-- The value that a function makes of a first value and those behind it, taken from left to
right. -/
def combine : AggregateFunction → Float → List Float → Float
  | .sum, v, vs => vs.foldl (· + ·) v
  | .avg, v, vs => vs.foldl (· + ·) v / Float.ofNat (vs.length + 1)
  | .min, v, vs => vs.foldl (fun a v => if v < a then v else a) v
  | .max, v, vs => vs.foldl (fun a v => if a < v then v else a) v
  | .count, _, vs => Float.ofNat (vs.length + 1)

variable {v : Float}

theorem smallest_cons (hv : v ≠ .nan) (vs : List Float) :
    smallest (v :: vs) = vs.foldl (fun a v => if v < a then v else a) v := by
  unfold smallest
  rw [List.foldl_cons]
  obtain hlt | rfl := Double.lt_infinity_or_eq hv
  · rw [if_pos hlt]
  · rw [ite_self]

theorem largest_cons (hv : v ≠ .nan) (vs : List Float) :
    largest (v :: vs) = vs.foldl (fun a v => if a < v then v else a) v := by
  unfold largest
  rw [List.foldl_cons]
  obtain hlt | rfl := Double.neg_infinity_lt_or_eq hv
  · rw [if_pos hlt]
  · rw [ite_self]

/-- The infinities that the least and the greatest value start from do not show. -/
theorem apply_cons (f : AggregateFunction) (hv : v ≠ .nan) (vs : List Float) :
    f.apply (v :: vs) (vs.length + 1) = f.combine v vs := by
  cases f with
  | min => exact smallest_cons hv vs
  | max => exact largest_cons hv vs
  | _ => rfl

end AggregateFunction

namespace Chart

/-! ## Buckets -/

/-- The keys of rows, in the order in which they are first seen. -/
def keys (a : Axes) (rows : List Json) : List String := (rows.map a.key).eraseDups

/-- The rows of a key, in their order. -/
def group (a : Axes) (rows : List Json) (key : String) : List Json := rows.filter (a.key · = key)

/-- The bucket of a key: the label of its first row and the values of all its rows. -/
def bucket (a : Axes) (rows : List Json) (key : String) : Bucket where
  key
  label := ((group a rows key).head?.map a.labelOf).getD key
  values := ((group a rows key).map a.value).toArray
  rows := (group a rows key).length

/-- The buckets of all keys, in the order of the keys, each at the slot of its key. -/
structure Buckets.Holds (bs : Buckets) (a : Axes) (rows : List Json) : Prop where
  opened : bs.opened.toList = (keys a rows).map (bucket a rows)
  slots : ∀ key, bs.slots.lookup key = (keys a rows).idxOf? key

variable {a : Axes} {rows : List Json} {row : Json} {bs : Buckets} {key : String}

/-! ## One more row -/

theorem mem_keys : key ∈ keys a rows ↔ ∃ row ∈ rows, a.key row = key := by
  rw [keys, List.mem_eraseDups, List.mem_map]

theorem keys_append_of_mem (h : a.key row ∈ keys a rows) :
    keys a (rows ++ [row]) = keys a rows := by
  rw [mem_keys] at h
  rw [keys, List.map_append, List.eraseDups_append]
  simp [List.removeAll, h, keys]

theorem keys_append_of_notMem (h : a.key row ∉ keys a rows) :
    keys a (rows ++ [row]) = keys a rows ++ [a.key row] := by
  rw [mem_keys] at h
  rw [keys, List.map_append, List.eraseDups_append]
  simp [List.removeAll, List.eraseDups_cons, h, keys]

theorem nodup_keys (a : Axes) (rows : List Json) : (keys a rows).Nodup := by
  induction rows using List.reverseRecOn with
  | nil => exact List.nodup_nil
  | append_singleton rows row ih =>
    by_cases h : a.key row ∈ keys a rows
    · rw [keys_append_of_mem h]
      exact ih
    · rw [keys_append_of_notMem h]
      exact List.nodup_append.mpr ⟨ih, List.nodup_singleton _, by
        rintro key hkey _ hself rfl
        exact h (List.mem_singleton.mp hself ▸ hkey)⟩

theorem group_append_of_ne (h : a.key row ≠ key) :
    group a (rows ++ [row]) key = group a rows key := by
  simp [group, h]

theorem group_append_self :
    group a (rows ++ [row]) (a.key row) = group a rows (a.key row) ++ [row] := by
  simp [group]

theorem group_ne_nil (h : key ∈ keys a rows) : group a rows key ≠ [] := by
  obtain ⟨row, hrow, hkey⟩ := mem_keys.mp h
  exact List.ne_nil_of_mem (List.mem_filter.mpr ⟨hrow, decide_eq_true hkey⟩)

theorem group_eq_nil (h : key ∉ keys a rows) : group a rows key = [] := by
  rw [group, List.filter_eq_nil_iff]
  intro row hrow hkey
  exact h (mem_keys.mpr ⟨row, hrow, of_decide_eq_true hkey⟩)

theorem bucket_append_of_ne (h : a.key row ≠ key) :
    bucket a (rows ++ [row]) key = bucket a rows key := by
  rw [bucket, group_append_of_ne h, bucket]

theorem bucket_append_of_mem (h : a.key row ∈ keys a rows) :
    bucket a (rows ++ [row]) (a.key row) = (bucket a rows (a.key row)).add (a.value row) := by
  rw [bucket, group_append_self, bucket, Bucket.add]
  obtain ⟨first, rest, hgroup⟩ := List.exists_cons_of_ne_nil (group_ne_nil h)
  simp [hgroup]

theorem bucket_append_of_notMem (h : a.key row ∉ keys a rows) :
    bucket a (rows ++ [row]) (a.key row) =
      Bucket.add (a.value row) ⟨a.key row, a.labelOf row, #[], 0⟩ := by
  rw [bucket, group_append_self, group_eq_nil h]
  rfl

theorem modify_buckets {i : Nat} (h : (keys a rows)[i]? = some (a.key row)) :
    ((keys a rows).map (bucket a rows)).modify i (Bucket.add (a.value row)) =
      (keys a rows).map (bucket a (rows ++ [row])) := by
  apply List.ext_getElem?
  intro j
  rw [List.getElem?_modify, List.getElem?_map, List.getElem?_map]
  cases hj : (keys a rows)[j]? with
  | none => rfl
  | some key =>
    by_cases hij : i = j
    · obtain rfl : key = a.key row := Option.some.inj (hj.symm.trans (hij ▸ h))
      simp [hij, bucket_append_of_mem (List.mem_of_getElem? h)]
    · have hne : a.key row ≠ key := by
        rintro rfl
        have hi : i < (keys a rows).length := (List.getElem?_eq_some_iff.mp h).1
        exact hij ((List.getElem?_inj hi (nodup_keys a rows)).mp (h.trans hj.symm))
      simp [hij, bucket_append_of_ne hne]

/-! ## Slots -/

theorem idxOf?_append_of_notMem {keys : List String} {new key : String} (h : new ∉ keys) :
    (keys ++ [new]).idxOf? key = if key = new then some keys.length else keys.idxOf? key := by
  have happend : (keys ++ [new]).idxOf? key =
      (keys.idxOf? key).or (([new].idxOf? key).map (· + keys.length)) := List.findIdx?_append
  rw [happend, List.idxOf?_cons]
  by_cases hkey : key = new
  · subst hkey
    simp [List.idxOf?_eq_none_iff.mpr h]
  · simp [hkey, Ne.symm hkey]

theorem modify_push_size {α : Type} (xs : Array α) (x : α) (f : α → α) :
    (xs.push x).modify xs.size f = xs.push (f x) := by
  apply Array.ext_getElem?
  intro i
  rw [Array.getElem?_modify, Array.getElem?_push, Array.getElem?_push]
  by_cases hi : i = xs.size
  · simp [hi]
  · simp [hi, Ne.symm hi]

theorem Buckets.Holds.addRow_of_mem (h : bs.Holds a rows) (hmem : a.key row ∈ keys a rows) :
    (bs.addRow a row).Holds a (rows ++ [row]) := by
  obtain ⟨i, hi⟩ : ∃ i, (keys a rows).idxOf? (a.key row) = some i :=
    Option.ne_none_iff_exists'.mp fun hnone => List.idxOf?_eq_none_iff.mp hnone hmem
  have hadd : bs.addRow a row =
      { bs with opened := bs.opened.modify i (Bucket.add (a.value row)) } := by
    rw [Buckets.addRow, slot, h.slots, hi]
  obtain ⟨hlt, hkey, -⟩ := List.idxOf?_eq_some_iff.mp hi
  rw [hadd]
  constructor
  · rw [Array.toList_modify, h.opened, keys_append_of_mem hmem]
    exact modify_buckets (List.getElem?_eq_some_iff.mpr ⟨hlt, hkey⟩)
  · rw [keys_append_of_mem hmem]
    exact h.slots

theorem Buckets.Holds.addRow_of_notMem (h : bs.Holds a rows) (hmem : a.key row ∉ keys a rows) :
    (bs.addRow a row).Holds a (rows ++ [row]) := by
  have hsize : bs.opened.size = (keys a rows).length := by
    rw [← Array.length_toList, h.opened, List.length_map]
  have hadd : bs.addRow a row =
      { opened := bs.opened.push (Bucket.add (a.value row) ⟨a.key row, a.labelOf row, #[], 0⟩)
        slots := (a.key row, bs.opened.size) :: bs.slots } := by
    rw [Buckets.addRow, slot, h.slots, List.idxOf?_eq_none_iff.mpr hmem]
    simp only [modify_push_size]
  rw [hadd]
  constructor
  · rw [keys_append_of_notMem hmem, List.map_append, List.map_singleton,
      bucket_append_of_notMem hmem, Array.toList_push, h.opened]
    congr 1
    apply List.map_congr_left
    intro key hkey
    exact (bucket_append_of_ne fun heq => hmem (heq ▸ hkey)).symm
  · intro key
    rw [keys_append_of_notMem hmem, idxOf?_append_of_notMem hmem, List.lookup_cons, hsize]
    by_cases hkey : key = a.key row
    · rw [if_pos hkey, hkey, beq_self_eq_true]
    · rw [if_neg hkey, beq_false_of_ne hkey, ← h.slots]

theorem Buckets.Holds.addRow (h : bs.Holds a rows) (row : Json) :
    (bs.addRow a row).Holds a (rows ++ [row]) := by
  by_cases hmem : a.key row ∈ keys a rows
  · exact h.addRow_of_mem hmem
  · exact h.addRow_of_notMem hmem

/-- Adding rows one by one fills the buckets of all keys. -/
theorem Buckets.Holds.foldl_addRow (h : bs.Holds a rows) (later : List Json) :
    (later.foldl (fun bs row => Buckets.addRow a row bs) bs).Holds a (rows ++ later) := by
  induction later generalizing bs rows with
  | nil => rwa [List.append_nil, List.foldl_nil]
  | cons row later ih =>
    have hlater := ih (h.addRow row)
    rwa [List.append_assoc, List.singleton_append] at hlater

theorem aggregate_eq (a : Axes) (rows : List Json) :
    aggregate a rows = (keys a rows).map fun key => (bucket a rows key).point a.applied := by
  have hempty : Buckets.Holds ⟨#[], []⟩ a [] := ⟨rfl, fun _ => rfl⟩
  have hbuckets := (hempty.foldl_addRow rows).opened
  rw [List.nil_append] at hbuckets
  rw [aggregate, hbuckets, List.map_map]
  rfl

theorem sum_length_group (a : Axes) (rows : List Json) :
    ((keys a rows).map fun key => (group a rows key).length).sum = rows.length := by
  have hperm : (keys a rows).Perm (rows.map a.key).dedup := by
    rw [List.perm_ext_iff_of_nodup (nodup_keys a rows) (List.nodup_dedup _)]
    intro key
    rw [keys, List.mem_eraseDups, List.mem_dedup]
  have hcount : ∀ key, (group a rows key).length = (rows.map a.key).count key := by
    intro key
    rw [group, ← List.countP_eq_length_filter, List.count, List.countP_map]
    rfl
  calc ((keys a rows).map fun key => (group a rows key).length).sum
      = ((rows.map a.key).dedup.map fun key => (rows.map a.key).count key).sum := by
        simp only [hcount]
        exact (hperm.map _).sum_eq
    _ = rows.length := by rw [List.sum_map_count_dedup_eq_length, List.length_map]

end Chart

/-! ## Points -/

/-- A point is what a group of rows comes to: a first one and those behind it. -/
structure Point.Draws (p : Point) (a : Chart.Axes) (first : Json) (rest : List Json) : Prop where
  rowCount : p.rowCount = rest.length + 1
  valueCount : p.valueCount = rest.length + 1
  /-- The label is the label cell of the first row where there is a field for labels. -/
  label : p.label = match a.label with
    | none => p.x
    | some field => if field = "" then p.x else (Cell.ofRow first field).display
  /-- The sentinel in place of a Y field counts rows, whatever the function. -/
  function : p.function =
    if a.y = "__count__" ∨ a.function = .count then .count else a.function
  /-- The function goes out under its name. -/
  name : p.toJson.get? "aggregateFunction" = some (.text p.function.name)
  y : p.y = p.function.combine (Cell.ofRow first a.y).toNumber
    (rest.map fun row => (Cell.ofRow row a.y).toNumber)

namespace Chart

variable {a : Axes} {rows : List Json} {row : Json} {key : String}

theorem Axes.applied_eq (a : Axes) :
    a.applied = if a.y = "__count__" ∨ a.function = .count then .count else a.function := by
  unfold applied counts countField
  simp

theorem Axes.labelOf_eq (a : Axes) (row : Json) :
    a.labelOf row = match a.label with
      | none => a.key row
      | some field => if field = "" then a.key row else (Cell.ofRow row field).display := by
  unfold labelOf
  cases a.label with
  | none => rfl
  | some field => simp

theorem apply_values (a : Axes) (first : Json) (rest : List Json)
    (hfirst : (Cell.ofRow first a.y).toNumber ≠ .nan) :
    a.applied.apply ((first :: rest).map a.value) (rest.length + 1) =
      a.applied.combine (Cell.ofRow first a.y).toNumber
        (rest.map fun row => (Cell.ofRow row a.y).toNumber) := by
  by_cases hcounts : a.counts = true
  · rw [Axes.applied, if_pos hcounts, AggregateFunction.apply, AggregateFunction.combine,
      List.length_map]
  · have hvalue : a.value = fun row => (Cell.ofRow row a.y).toNumber := by
      funext row
      exact if_neg hcounts
    rw [hvalue, List.map_cons, ← List.length_map]
    exact AggregateFunction.apply_cons _ hfirst _

theorem draws_bucket {first : Json} {rest : List Json} (hgroup : group a rows key = first :: rest)
    (hkey : a.key first = key) (hfirst : (Cell.ofRow first a.y).toNumber ≠ .nan) :
    ((bucket a rows key).point a.applied).Draws a first rest where
  rowCount := by simp [bucket, Bucket.point, hgroup]
  valueCount := by simp [bucket, Bucket.point, hgroup]
  label := by
    have hlabel : ((bucket a rows key).point a.applied).label = a.labelOf first := by
      simp [bucket, Bucket.point, hgroup]
    rw [hlabel, Axes.labelOf_eq, hkey]
    rfl
  function := a.applied_eq
  name := rfl
  y := by
    have hvalues : (bucket a rows key).values.toList = (first :: rest).map a.value := by
      rw [bucket, hgroup]
    have hrows : (bucket a rows key).rows = rest.length + 1 := by
      rw [bucket, hgroup, List.length_cons]
    rw [Bucket.point, hvalues, hrows]
    exact apply_values a first rest hfirst

/-- **A chart has one point for each key, drawn of the rows of the key.** The points stand in the
order in which their keys are first seen, no two under one key. Each of them is drawn of the rows of
its key, of which there is a first one, in their order. Together they count every row once. -/
theorem aggregate_groups (a : Axes) (hfinite : ∀ row ∈ rows, row.IsFinite) :
    (aggregate a rows).map Point.x = (rows.map a.key).eraseDups ∧
      ((aggregate a rows).map Point.x).Nodup ∧
      (∀ p ∈ aggregate a rows, ∃ first rest,
        rows.filter (a.key · = p.x) = first :: rest ∧ p.Draws a first rest) ∧
      ((aggregate a rows).map Point.rowCount).sum = rows.length := by
  have hkeys : (aggregate a rows).map Point.x = keys a rows := by
    rw [aggregate_eq, List.map_map]
    exact List.map_id _
  refine ⟨hkeys, ?_, ?_, ?_⟩
  · rw [hkeys]
    exact nodup_keys a rows
  · intro p hp
    rw [aggregate_eq, List.mem_map] at hp
    obtain ⟨key, hkey, rfl⟩ := hp
    -- a key is that of some row, so that its group has a first one
    obtain ⟨first, rest, hgroup⟩ := List.exists_cons_of_ne_nil (group_ne_nil hkey)
    obtain ⟨hfirst, hown⟩ : first ∈ rows ∧ a.key first = key := by
      have hmem : first ∈ group a rows key := hgroup ▸ List.mem_cons_self
      rw [group, List.mem_filter] at hmem
      exact ⟨hmem.1, of_decide_eq_true hmem.2⟩
    exact ⟨first, rest, hgroup,
      draws_bucket hgroup hown (Cell.toNumber_ofRow_ne_nan (hfinite first hfirst) a.y)⟩
  · rw [aggregate_eq, List.map_map]
    exact sum_length_group a rows

def dealRow (stage : String) (amount : Float) : Json :=
  .object [("properties", .object
    [("Amount", .object [("number", .float amount), ("type", .text "number")]),
      ("Stage", .object [("select", .object [("name", .text stage)]), ("type", .text "select")])])]

/-- The least amount of each stage, under the first one. -/
def dealAxes : Axes := ⟨"Stage", "Amount", some "Amount", .min⟩

def dealRows : List Json := [dealRow "Won" 3.0, dealRow "Lost" 5.0, dealRow "Won" 1.0]

theorem isFinite_dealRow (stage : String) {amount : Float} (h : amount.isFinite = true) :
    (dealRow stage amount).IsFinite := by
  simp [dealRow, h]

theorem key_dealRow (stage : String) (amount : Float) :
    dealAxes.key (dealRow stage amount) = stage := by
  have hcell : ((dealRow stage amount).get? "properties").bind (Json.get? dealAxes.x) =
      some (.object [("select", .object [("name", .text stage)]), ("type", .text "select")]) := rfl
  rw [Axes.key, Cell.ofRow, hcell]
  dsimp only
  rw [Cell.normalize]
  rfl

theorem amount_dealRow (stage : String) (amount : Float) :
    Cell.ofRow (dealRow stage amount) "Amount" = .number amount := by
  have hcell : ((dealRow stage amount).get? "properties").bind (Json.get? "Amount") =
      some (.object [("number", .float amount), ("type", .text "number")]) := rfl
  rw [Cell.ofRow, hcell]
  dsimp only
  rw [Cell.normalize]
  rfl

theorem aggregate_groups_deals :
    (∀ row ∈ dealRows, row.IsFinite) ∧
      (aggregate dealAxes dealRows).map Point.x = ["Won", "Lost"] ∧
      ∀ p ∈ aggregate dealAxes dealRows, p.x = "Won" →
        p.y = 1.0 ∧ p.label = "3" ∧ p.rowCount = 2 := by
  have hfinite : ∀ row ∈ dealRows, row.IsFinite := by
    intro row hrow
    simp only [dealRows, List.mem_cons, List.not_mem_nil, or_false] at hrow
    obtain rfl | rfl | rfl := hrow <;> exact isFinite_dealRow _ (by decide)
  obtain ⟨hkeys, -, hpoints, -⟩ := aggregate_groups dealAxes hfinite
  refine ⟨hfinite, ?_, ?_⟩
  · rw [hkeys]
    simp only [dealRows, List.map_cons, List.map_nil, key_dealRow]
    decide
  · intro p hp hx
    obtain ⟨first, rest, hgroup, hdraws⟩ := hpoints p hp
    have hwon : dealRows.filter (dealAxes.key · = p.x) =
        [dealRow "Won" 3.0, dealRow "Won" 1.0] := by
      simp [dealRows, key_dealRow, hx]
    rw [hwon, List.cons.injEq] at hgroup
    obtain ⟨rfl, rfl⟩ := hgroup
    have hfunction : p.function = .min := hdraws.function
    refine ⟨?_, ?_, hdraws.rowCount⟩
    · rw [hdraws.y, hfunction]
      show AggregateFunction.combine .min (Cell.ofRow (dealRow "Won" 3.0) "Amount").toNumber
        [(Cell.ofRow (dealRow "Won" 1.0) "Amount").toNumber] = 1.0
      rw [amount_dealRow, amount_dealRow]
      decide
    · rw [hdraws.label]
      show (Cell.ofRow (dealRow "Won" 3.0) "Amount").display = "3"
      rw [amount_dealRow]
      decide

end Chart

end ChartFeed
