import ChartFeed.Proofs.Filter.NormalForm
import Mathlib.Logic.Relation

/-!
# Regrouping leaves the query as it is

* `Group.Recast` : a group, itself or at one place below it, is put into a group of its own, or the
  first subgroup of a group is dissolved into it.
* `Regrouped` : one of several groups is recast, or its subgroups stand in its place.
* `Group.flatQuery?` : the flattened query of a group; `Group.Recast.flatQuery?_eq` that it stays.
* `compile_of_regrouped` : however often groups are regrouped, they are compiled to the same query.
-/

namespace ChartFeed.Filter

open Query (join flatten)

/-- One group is put in the place of another, at the root of a tree or anywhere below it. -/
inductive Group.Recast : Group → Group → Prop
  /-- The group becomes the only subgroup of one that holds nothing else. -/
  | enclose (id : String) (k : Connective) (g : Group) : Recast g ⟨id, [], [g], k⟩
  /-- The first subgroup has the connective of the group: its conditions and subgroups become those
  of the group. -/
  | dissolve (id id' : String) (cs cs' : List Condition) (gs gs' : List Group) (k : Connective) :
      Recast ⟨id, cs, ⟨id', cs', gs', k⟩ :: gs, k⟩ ⟨id, cs ++ cs', gs' ++ gs, k⟩
  /-- A subgroup is recast. -/
  | under {g g' : Group} (id : String) (cs : List Condition) (before after : List Group)
      (k : Connective) (h : Recast g g') :
      Recast ⟨id, cs, before ++ g :: after, k⟩ ⟨id, cs, before ++ g' :: after, k⟩

/-- Groups side by side are regrouped at one place. -/
inductive Regrouped : List Group → List Group → Prop
  /-- One of the groups is recast. -/
  | within {g g' : Group} (before after : List Group) (h : g.Recast g') :
      Regrouped (before ++ g :: after) (before ++ g' :: after)
  /-- A conjunction without conditions makes room for its subgroups. -/
  | release (id : String) (before gs after : List Group) :
      Regrouped (before ++ ⟨id, [], gs, .and⟩ :: after) (before ++ gs ++ after)

variable (properties : List Property)

/-! ## Flattened queries of groups -/

namespace Group

def flatQuery? (g : Group) : Option Query := (g.query? properties).map flatten

theorem filterMap_query?_cons (g : Group) (gs : List Group) :
    (g :: gs).filterMap (query? properties) =
      (g.query? properties).toList ++ gs.filterMap (query? properties) := by
  rw [← queries_eq, ← queries_eq, queries]

theorem flatQuery?_congr {gs gs' : List Group}
    (h : gs.filterMap (flatQuery? properties) = gs'.filterMap (flatQuery? properties))
    (id : String) (cs : List Condition) (k : Connective) :
    flatQuery? properties ⟨id, cs, gs, k⟩ = flatQuery? properties ⟨id, cs, gs', k⟩ := by
  have hflat : ∀ gs : List Group, (gs.filterMap (query? properties)).map flatten =
      gs.filterMap (flatQuery? properties) := fun gs => List.map_filterMap
  rw [flatQuery?, flatQuery?, query?_mk, query?_mk]
  refine Query.flatten_join_congr ?_
  rw [List.map_append, List.map_append, hflat, hflat, h]

theorem flatQuery?_enclosed (id : String) (k : Connective) (g : Group) :
    flatQuery? properties ⟨id, [], [g], k⟩ = g.flatQuery? properties := by
  have hquery : query? properties ⟨id, [], [g], k⟩ = g.query? properties := by
    rw [query?_mk, filterMap_query?_cons]
    cases g.query? properties <;> rfl
  rw [flatQuery?, flatQuery?, hquery]

theorem flatQuery?_dissolved (id id' : String) (cs cs' : List Condition) (gs gs' : List Group)
    (k : Connective) :
    flatQuery? properties ⟨id, cs, ⟨id', cs', gs', k⟩ :: gs, k⟩ =
      flatQuery? properties ⟨id, cs ++ cs', gs' ++ gs, k⟩ := by
  rw [flatQuery?, flatQuery?, query?_mk, query?_mk, filterMap_query?_cons, query?_mk,
    ← List.append_assoc, Query.flatten_join_merge, List.filterMap_append, List.filterMap_append]
  simp only [List.append_assoc]

theorem flatQuery?_released (id id' : String) (cs : List Condition) (before gs after : List Group)
    (k : Connective) :
    flatQuery? properties ⟨id, cs, before ++ ⟨id', [], gs, k⟩ :: after, k⟩ =
      flatQuery? properties ⟨id, cs, before ++ gs ++ after, k⟩ := by
  rw [flatQuery?, flatQuery?, query?_mk, query?_mk, List.filterMap_append, filterMap_query?_cons,
    query?_mk, List.filterMap_nil, List.nil_append, ← List.append_assoc, ← List.append_assoc,
    Query.flatten_join_merge, List.filterMap_append, List.filterMap_append]
  simp only [List.append_assoc]

theorem Recast.flatQuery?_eq {g g' : Group} (h : g.Recast g') :
    g.flatQuery? properties = g'.flatQuery? properties := by
  induction h with
  | enclose id k g => exact (flatQuery?_enclosed properties id k g).symm
  | dissolve id id' cs cs' gs gs' k => exact flatQuery?_dissolved properties id id' cs cs' gs gs' k
  | under id cs before after k _ ih =>
    refine flatQuery?_congr properties ?_ id cs k
    rw [List.filterMap_append, List.filterMap_append, List.filterMap_cons, List.filterMap_cons, ih]

end Group

/-! ## Compiling -/

theorem compile_eq_flatQuery? (groups : List Group) :
    compile groups properties = (Group.whole groups).flatQuery? properties :=
  compile_eq properties groups

theorem Regrouped.compile_eq {groups groups' : List Group} (h : Regrouped groups groups') :
    compile groups properties = compile groups' properties := by
  rw [compile_eq_flatQuery?, compile_eq_flatQuery?]
  cases h with
  | within before after h => exact (h.under "" [] before after .and).flatQuery?_eq properties
  | release id before gs after =>
    exact Group.flatQuery?_released properties "" id [] before gs after .and

/-- **Regrouping leaves the query as it is.** Groups that are regrouped any number of times, in
either direction and wherever in the tree, are compiled to the same query. -/
theorem compile_of_regrouped {groups groups' : List Group}
    (h : Relation.EqvGen Regrouped groups groups') :
    compile groups properties = compile groups' properties := by
  induction h with
  | rel _ _ h => exact h.compile_eq properties
  | refl _ => rfl
  | symm _ _ _ ih => exact ih.symm
  | trans _ _ _ _ _ ih ih' => exact ih.trans ih'

def stageCondition : Condition :=
  ⟨"c1", " Stage ", "contains", some (.list [.text "Won", .text "Lost"]), none, none⟩

def dueCondition : Condition :=
  ⟨"c2", "Due", "between", some (.one (.text "2024-01-01")), some (.text "2024-01-31"), none⟩

def datedCondition : Condition := ⟨"c3", "Due", "is_not_empty", none, none, none⟩

/-- The first group of the deals with the condition of its subgroup moved up. -/
def movedDeals : Group := ⟨"g1", [stageCondition, dueCondition], [⟨"g3", [], [], .or⟩], .and⟩

def datedDeals : Group := ⟨"g4", [datedCondition], [], .or⟩

def enclosedDeals : Group := ⟨"g5", [], [datedDeals], .or⟩

theorem compile_regroupedDeals :
    Relation.EqvGen Regrouped dealGroups [⟨"g6", [], [movedDeals, enclosedDeals], .and⟩] ∧
      compile dealGroups dealProperties =
        compile [⟨"g6", [], [movedDeals, enclosedDeals], .and⟩] dealProperties := by
  have hdissolve : Regrouped dealGroups [movedDeals, datedDeals] :=
    .within [] [datedDeals]
      (.dissolve "g1" "g2" [stageCondition] [dueCondition] [⟨"g3", [], [], .or⟩] [] .and)
  have henclose : Regrouped [movedDeals, datedDeals] [movedDeals, enclosedDeals] :=
    .within [movedDeals] [] (.enclose "g5" .or datedDeals)
  have hrelease : Regrouped [⟨"g6", [], [movedDeals, enclosedDeals], .and⟩]
      [movedDeals, enclosedDeals] :=
    .release "g6" [] [movedDeals, enclosedDeals] []
  have h : Relation.EqvGen Regrouped dealGroups [⟨"g6", [], [movedDeals, enclosedDeals], .and⟩] :=
    .trans _ _ _ (.rel _ _ hdissolve)
      (.trans _ _ _ (.rel _ _ henclose) (.symm _ _ (.rel _ _ hrelease)))
  exact ⟨h, compile_of_regrouped dealProperties h⟩

end ChartFeed.Filter
