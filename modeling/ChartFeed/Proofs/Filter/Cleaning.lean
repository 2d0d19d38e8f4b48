import ChartFeed.Proofs.Filter.Warnings

/-!
# Groups without their rejected conditions

* `Group.without`, `cleaned` : the conditions at given addresses are deleted, and all groups stay.
* `Group.accepted` : the conditions that are rejected are deleted at every depth;
  `without_eq_accepted` says that the addresses of the warnings lead to just these.
* `Group.query?_accepted` : the rejected conditions have no part in the query.
* `length_validate` : there is a warning for each rejected condition.
* `report_cleaned` : without the conditions that are warned of, groups compile to the same query and
  nothing is left to warn of; there is no query exactly when all conditions are warned of.
-/

namespace ChartFeed.Filter

/-! ## Lists by index -/

theorem map_zipIdx_eq {α β : Type} {f : α × Nat → β} {e : α → β} {xs : List α}
    (h : ∀ x i, xs[i]? = some x → f (x, i) = e x) : xs.zipIdx.map f = xs.map e := by
  have hf : xs.zipIdx.map f = xs.zipIdx.map (e ∘ Prod.fst) :=
    List.map_congr_left fun xi hxi => h xi.1 xi.2 (List.mem_zipIdx_iff_getElem?.mp hxi)
  rw [hf, ← List.map_map, List.zipIdx_map_fst]

theorem map_fst_filter_zipIdx {α : Type} {p : α → Bool} {q : α × Nat → Bool} {xs : List α}
    (h : ∀ x i, xs[i]? = some x → q (x, i) = p x) :
    (xs.zipIdx.filter q).map Prod.fst = xs.filter p := by
  have hq : xs.zipIdx.filter q = xs.zipIdx.filter (p ∘ Prod.fst) :=
    List.filter_congr fun xi hxi => h xi.1 xi.2 (List.mem_zipIdx_iff_getElem?.mp hxi)
  rw [hq, ← List.filter_map, List.zipIdx_map_fst]

/-! ## Deleting conditions -/

namespace Group

mutual

/-- The group at a path without the conditions at the addresses, in it and below it. -/
def without (addresses : List (List Nat × Nat)) (path : List Nat) : Group → Group
  | ⟨id, conditions, subgroups, connective⟩ =>
    ⟨id, (conditions.zipIdx.filter fun (_, i) => (path, i) ∉ addresses).map Prod.fst,
      allWithout addresses path 0 subgroups, connective⟩
termination_by structural g => g

/-- Groups side by side, counted from an index, without the conditions at the addresses. -/
def allWithout (addresses : List (List Nat × Nat)) (path : List Nat) :
    Nat → List Group → List Group
  | _, [] => []
  | i, g :: gs => g.without addresses (path ++ [i]) :: allWithout addresses path (i + 1) gs
termination_by structural _ gs => gs

end

theorem allWithout_eq (addresses : List (List Nat × Nat)) (path : List Nat) (i : Nat)
    (gs : List Group) : allWithout addresses path i gs =
      (gs.zipIdx i).map fun (g, k) => g.without addresses (path ++ [k]) := by
  induction gs generalizing i with
  | nil => rfl
  | cons g gs ih => rw [allWithout, ih, List.zipIdx_cons, List.map_cons]

end Group

/-- Groups without the conditions that warnings are about. -/
def cleaned (groups : List Group) (warnings : List Warning) : List Group :=
  Group.allWithout (warnings.map Warning.address) [] 0 groups

/-! ## Accepted conditions -/

variable (properties : List Property)

theorem Condition.isAccepted_eq_false {c : Condition} :
    c.isAccepted properties = false ↔ ∃ reason, c.compile properties = .error reason := by
  unfold isAccepted query?
  cases c.compile properties <;> simp [Except.toOption]

namespace Group

mutual

/-- The group with the conditions alone that are accepted, in it and below it. -/
def accepted : Group → Group
  | ⟨id, conditions, subgroups, connective⟩ =>
    ⟨id, conditions.filter (·.isAccepted properties), allAccepted subgroups, connective⟩
termination_by structural g => g

def allAccepted : List Group → List Group
  | [] => []
  | g :: gs => g.accepted :: allAccepted gs
termination_by structural gs => gs

end

theorem allAccepted_eq (gs : List Group) :
    allAccepted properties gs = gs.map (accepted properties) := by
  induction gs with
  | nil => rfl
  | cons g gs ih => rw [allAccepted, ih, List.map_cons]

theorem accepted_mk (id : String) (cs : List Condition) (gs : List Group) (k : Connective) :
    accepted properties ⟨id, cs, gs, k⟩ =
      ⟨id, cs.filter (·.isAccepted properties), gs.map (accepted properties), k⟩ := by
  rw [accepted, allAccepted_eq]

theorem filterMap_query?_accepted (cs : List Condition) :
    (cs.filter (·.isAccepted properties)).filterMap (·.query? properties) =
      cs.filterMap (·.query? properties) := by
  rw [List.filterMap_filter]
  refine List.filterMap_congr fun c _ => ?_
  unfold Condition.isAccepted
  cases c.query? properties <;> rfl

/-- **Rejected conditions have no part in the query**, nor in how its members are joined. -/
theorem query?_accepted (g : Group) :
    (g.accepted properties).query? properties = g.query? properties := by
  induction g using Group.inductionOn with
  | mk id cs gs k ih =>
    rw [accepted_mk, query?_mk, query?_mk, filterMap_query?_accepted, List.filterMap_map]
    congr 2
    exact List.filterMap_congr ih

theorem allConditions_accepted (g : Group) :
    (g.accepted properties).allConditions =
      g.allConditions.filter (·.isAccepted properties) := by
  induction g using Group.inductionOn with
  | mk id cs gs k ih =>
    rw [accepted_mk, allConditions_mk, allConditions_mk, List.filter_append, List.filter_flatMap,
      List.flatMap_map]
    congr 1
    exact List.flatMap_congr ih

/-! ## The addresses of rejected conditions -/

/-- Among the addresses, those that lead from a path into a group are those of its rejected
conditions. -/
def IsRejectedAt (addresses : List (List Nat × Nat)) (path : List Nat) (g : Group) : Prop :=
  ∀ s i, (path ++ s, i) ∈ addresses ↔
    ∃ c, (g.descend? s).bind (·.conditions[i]?) = some c ∧ c.isAccepted properties = false

/-- **Deleting by address deletes the rejected conditions**, and nothing else. -/
theorem without_eq_accepted {addresses : List (List Nat × Nat)} {path : List Nat} {g : Group}
    (h : g.IsRejectedAt properties addresses path) :
    g.without addresses path = g.accepted properties := by
  induction g using Group.inductionOn generalizing path with
  | mk id cs gs k ih =>
    have hconditions : (cs.zipIdx.filter fun (_, i) => (path, i) ∉ addresses).map Prod.fst =
        cs.filter (·.isAccepted properties) := by
      refine map_fst_filter_zipIdx fun c i hc => ?_
      have hhere := h [] i
      rw [List.append_nil, descend?, Option.bind_some, hc] at hhere
      rw [Bool.eq_iff_iff, decide_eq_true_iff, hhere]
      simp
    have hsubgroups : allWithout addresses path 0 gs = gs.map (accepted properties) := by
      have hbelow : ∀ (g : Group) i, gs[i]? = some g →
          g.without addresses (path ++ [i]) = g.accepted properties := by
        intro g i hg
        refine ih g (List.mem_of_getElem? hg) fun s j => ?_
        have hdescend : descend? ⟨id, cs, gs, k⟩ (i :: s) = g.descend? s := by
          rw [descend?, hg, Option.bind_some]
        rw [List.append_assoc, List.singleton_append, h, hdescend]
      rw [allWithout_eq]
      exact map_zipIdx_eq hbelow
    rw [without, accepted_mk, hconditions, hsubgroups]

end Group

theorem isRejectedAt_validate (groups : List Group) :
    (Group.whole groups).IsRejectedAt properties
      ((validate groups properties).map Warning.address) [] := by
  intro s i
  rw [List.nil_append, List.mem_map]
  constructor
  · rintro ⟨w, hw, haddress⟩
    obtain ⟨c, hc, hreason, -⟩ := (mem_validate properties).mp hw
    cases haddress
    refine ⟨c, by rwa [← conditionAt?_eq_bind], ?_⟩
    exact (Condition.isAccepted_eq_false properties).mpr ⟨w.reason, hreason⟩
  · rintro ⟨c, hc, hrejected⟩
    obtain ⟨reason, hreason⟩ := (Condition.isAccepted_eq_false properties).mp hrejected
    rw [← conditionAt?_eq_bind] at hc
    exact ⟨.make s i c reason, (mem_validate properties).mpr ⟨c, hc, hreason, rfl, rfl⟩, rfl⟩

theorem whole_cleaned (groups : List Group) :
    Group.whole (cleaned groups (validate groups properties)) =
      (Group.whole groups).accepted properties := by
  rw [← Group.without_eq_accepted properties (isRejectedAt_validate properties groups)]
  rfl

/-! ## Counting warnings -/

theorem map_condition_places (g : Group) (path : List Nat) :
    (g.places path).map Place.condition = g.allConditions := by
  induction g using Group.inductionOn generalizing path with
  | mk id cs gs k ih =>
    rw [places_mk, Group.allConditions_mk, List.map_append, List.map_map, List.map_flatMap]
    congr 1
    · exact List.zipIdx_map_fst 0 cs
    · rw [List.flatMap_def, List.flatMap_def]
      congr 1
      exact map_zipIdx_eq fun g i hg => ih g (List.mem_of_getElem? hg) _

/-- **There is one warning for each rejected condition.** -/
theorem length_validate (groups : List Group) :
    (validate groups properties).length =
      (Group.allConditionsOf groups).countP fun c => !c.isAccepted properties := by
  have hwarned : (fun p : Place => (p.warning? properties).isSome) =
      (fun c : Condition => !c.isAccepted properties) ∘ Place.condition := by
    funext p
    unfold Place.warning? Condition.isAccepted Condition.query?
    dsimp only [Function.comp_apply]
    cases p.condition.compile properties <;> rfl
  rw [validate_eq, List.length_filterMap_eq_countP, hwarned, ← List.countP_map,
    map_condition_places, Group.allConditions_whole]

theorem validate_eq_nil {groups : List Group} :
    validate groups properties = [] ↔
      ∀ c ∈ Group.allConditionsOf groups, c.isAccepted properties = true := by
  rw [← List.length_eq_zero_iff, length_validate, List.countP_eq_zero]
  simp

theorem conditionCounts_of {gs : List Group}
    (h : ∀ g ∈ gs, g.conditionCount = g.allConditions.length) :
    Group.conditionCounts gs = (Group.allConditionsOf gs).length := by
  induction gs with
  | nil => rfl
  | cons g gs ih =>
    rw [Group.conditionCounts, Group.allConditionsOf, List.length_append, h g List.mem_cons_self,
      ih fun g' hg' => h g' (List.mem_cons_of_mem g hg')]

theorem conditionCount_eq (g : Group) : g.conditionCount = g.allConditions.length := by
  induction g using Group.inductionOn with
  | mk id cs gs k ih =>
    rw [Group.conditionCount, Group.allConditions, List.length_append, conditionCounts_of ih]

/-! ## What is left -/

/-- **The warnings account for the whole difference.** Without the conditions that are warned of,
groups have the same query and no warning. There is no query exactly when there are as many warnings
as conditions. -/
theorem report_cleaned (groups : List Group) :
    report (cleaned groups (validate groups properties)) properties =
        ⟨(report groups properties).query, []⟩ ∧
      (compile groups properties = none ↔
        (validate groups properties).length = Group.conditionCounts groups) := by
  constructor
  · have hquery : compile (cleaned groups (validate groups properties)) properties =
        compile groups properties := by
      rw [compile_eq, whole_cleaned, Group.query?_accepted, ← compile_eq]
    have hwarnings : (report (cleaned groups (validate groups properties)) properties).warnings =
        [] := by
      rw [report_warnings, validate_eq_nil, ← Group.allConditions_whole, whole_cleaned,
        Group.allConditions_accepted]
      exact fun c hc => (List.mem_filter.mp hc).2
    calc report (cleaned groups (validate groups properties)) properties
        = ⟨compile (cleaned groups (validate groups properties)) properties,
            (report (cleaned groups (validate groups properties)) properties).warnings⟩ := rfl
      _ = ⟨(report groups properties).query, []⟩ := by rw [hquery, hwarnings, compile]
  · rw [compile_eq, Option.map_eq_none_iff, Group.query?_eq_none, Group.allConditions_whole,
      length_validate, conditionCounts_of fun g _ => conditionCount_eq g, List.countP_eq_length]
    simp

end ChartFeed.Filter
