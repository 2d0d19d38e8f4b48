import Mathlib.Data.List.Basic
import ChartFeed.Proofs.Filter.GroupTree

/-!
# The warnings are the rejected conditions

* `conditionAt?` : the condition at an address, the indices that lead to a group and an index there;
  `Precedes` is the order of addresses in the document.
* `Group.places` : the conditions of a tree with their addresses; `mem_places` says which they are,
  `pairwise_places` that they come in the order of the document.
* `Group.validate_eq`, `Group.compile_snd` : both walks warn of the rejected ones among the places.
* `validate_lists_rejected` : the warnings are those of the rejected conditions, each one once and in
  the order of the document.
-/

namespace ChartFeed.Filter

/-! ## Addresses -/

/-- The group that a path of indices leads to, from a group down through its subgroups. -/
def Group.descend? : Group → List Nat → Option Group
  | g, [] => some g
  | g, i :: is => g.subgroups[i]?.bind (·.descend? is)

/-- The group that a path leads to, from groups side by side. -/
def groupAt? (groups : List Group) : List Nat → Option Group
  | [] => none
  | i :: is => groups[i]?.bind (·.descend? is)

/-- The condition at an index in the group that a path leads to. -/
def conditionAt? (groups : List Group) (path : List Nat) (index : Nat) : Option Condition :=
  (groupAt? groups path).bind (·.conditions[index]?)

/-- One address comes before another in the document: a group comes before those below it, all else
goes by index. -/
def Precedes (a b : List Nat × Nat) : Prop :=
  List.Lex (· < ·) a.1 b.1 ∨ a.1 = b.1 ∧ a.2 < b.2

def Warning.address (w : Warning) : List Nat × Nat := (w.groupPath, w.conditionIndex)

theorem lex_append_left (base : List Nat) {s t : List Nat} (h : List.Lex (· < ·) s t) :
    List.Lex (· < ·) (base ++ s) (base ++ t) := by
  induction base with
  | nil => exact h
  | cons i base ih => exact List.Lex.cons ih

theorem not_precedes_self (a : List Nat × Nat) : ¬ Precedes a a := by
  rintro (h | ⟨-, h⟩)
  · exact List.lex_irrefl Nat.lt_irrefl a.1 h
  · exact Nat.lt_irrefl a.2 h

theorem conditionAt?_eq_bind (groups : List Group) (path : List Nat) (index : Nat) :
    conditionAt? groups path index =
      ((Group.whole groups).descend? path).bind (·.conditions[index]?) := by
  cases path with
  | nil => rfl
  | cons i is => rfl

/-! ## Places -/

/-- A condition and its address. -/
structure Place where
  path : List Nat
  index : Nat
  condition : Condition

def Place.address (p : Place) : List Nat × Nat := (p.path, p.index)

mutual

/-- The conditions of a group at a path, and after them those of the groups below it. -/
def Group.places (path : List Nat) : Group → List Place
  | ⟨_, conditions, subgroups, _⟩ =>
    (conditions.zipIdx.map fun (c, i) => ⟨path, i, c⟩) ++ groupPlaces path 0 subgroups
termination_by structural g => g

/-- The conditions of groups side by side, counted from an index, and of those below them. -/
def groupPlaces (path : List Nat) : Nat → List Group → List Place
  | _, [] => []
  | i, g :: gs => g.places (path ++ [i]) ++ groupPlaces path (i + 1) gs
termination_by structural _ gs => gs

end

theorem groupPlaces_eq (path : List Nat) (i : Nat) (gs : List Group) :
    groupPlaces path i gs = (gs.zipIdx i).flatMap fun (g, k) => g.places (path ++ [k]) := by
  induction gs generalizing i with
  | nil => rfl
  | cons g gs ih => rw [groupPlaces, ih, List.zipIdx_cons, List.flatMap_cons]

theorem places_mk (path : List Nat) (id : String) (cs : List Condition) (gs : List Group)
    (k : Connective) :
    Group.places path ⟨id, cs, gs, k⟩ = (cs.zipIdx.map fun (c, i) => ⟨path, i, c⟩) ++
      gs.zipIdx.flatMap fun (g, i) => g.places (path ++ [i]) := by
  rw [Group.places, groupPlaces_eq]

theorem mem_places {g : Group} {base : List Nat} {p : Place} :
    p ∈ g.places base ↔ ∃ s, p.path = base ++ s ∧
      (g.descend? s).bind (·.conditions[p.index]?) = some p.condition := by
  induction g using Group.inductionOn generalizing base with
  | mk id cs gs k ih =>
    rw [places_mk, List.mem_append, List.mem_map, List.mem_flatMap]
    constructor
    · rintro (⟨⟨c, i⟩, hc, rfl⟩ | ⟨⟨g, i⟩, hg, hp⟩)
      · exact ⟨[], (List.append_nil base).symm, List.mem_zipIdx_iff_getElem?.mp hc⟩
      · have hg := List.mem_zipIdx_iff_getElem?.mp hg
        obtain ⟨s, hpath, hc⟩ := (ih g (List.mem_of_getElem? hg)).mp hp
        refine ⟨i :: s, by rw [hpath, List.append_assoc, List.singleton_append], ?_⟩
        rw [Group.descend?, hg]
        exact hc
    · rintro ⟨s, hpath, hc⟩
      obtain ⟨path, index, c⟩ := p
      dsimp only at hpath hc
      subst hpath
      cases s with
      | nil =>
        refine Or.inl ⟨(c, index), List.mem_zipIdx_iff_getElem?.mpr hc, ?_⟩
        rw [List.append_nil]
      | cons i s =>
        rw [Group.descend?] at hc
        obtain ⟨g', hg', hc⟩ := Option.bind_eq_some_iff.mp hc
        obtain ⟨g, hg, hdescend⟩ := Option.bind_eq_some_iff.mp hg'
        refine Or.inr ⟨(g, i), List.mem_zipIdx_iff_getElem?.mpr hg, ?_⟩
        refine (ih g (List.mem_of_getElem? hg)).mpr ⟨s, ?_, ?_⟩
        · rw [List.append_assoc, List.singleton_append]
        · rw [hdescend]
          exact hc

theorem pairwise_zipIdx {α : Type} (as : List α) :
    as.zipIdx.Pairwise fun a b => a.2 < b.2 := by
  rw [← List.pairwise_map, List.zipIdx_map_snd]
  exact List.pairwise_lt_range'

/-- **The places of a tree are listed in the order of the document.** -/
theorem pairwise_places (g : Group) (base : List Nat) :
    (g.places base).Pairwise fun p q => Precedes p.address q.address := by
  induction g using Group.inductionOn generalizing base with
  | mk id cs gs k ih =>
    rw [places_mk, List.pairwise_append, List.pairwise_map, List.pairwise_flatMap]
    refine ⟨(pairwise_zipIdx cs).imp fun h => Or.inr ⟨rfl, h⟩, ⟨fun gi hgi => ?_, ?_⟩, ?_⟩
    · exact ih gi.1 (List.mem_of_getElem? (List.mem_zipIdx_iff_getElem?.mp hgi)) _
    · -- two subgroups: their paths part right below the group
      refine (pairwise_zipIdx gs).imp fun {a b} hab p hp q hq => Or.inl ?_
      obtain ⟨s, hs, -⟩ := mem_places.mp hp
      obtain ⟨t, ht, -⟩ := mem_places.mp hq
      show List.Lex (· < ·) p.path q.path
      rw [hs, ht, List.append_assoc, List.append_assoc]
      exact lex_append_left base (List.Lex.rel hab)
    · -- a condition of the group and one below it: the path of the group is the shorter one
      intro p hp q hq
      left
      obtain ⟨ci, -, rfl⟩ := List.mem_map.mp hp
      obtain ⟨gi, -, hq⟩ := List.mem_flatMap.mp hq
      obtain ⟨t, ht, -⟩ := mem_places.mp hq
      show List.Lex (· < ·) base q.path
      rw [ht, List.append_assoc]
      have hlex : List.Lex (· < ·) (base ++ []) (base ++ ([gi.2] ++ t)) :=
        lex_append_left base List.Lex.nil
      rwa [List.append_nil] at hlex

/-! ## The two walks -/

variable (properties : List Property)

/-- The warning about the condition of a place, if it is rejected. -/
def Place.warning? (p : Place) : Option Warning :=
  match p.condition.compile properties with
  | .ok _ => none
  | .error reason => some (.make p.path p.index p.condition reason)

theorem Place.warning?_eq_some {p : Place} {w : Warning} :
    p.warning? properties = some w ↔ ∃ reason, p.condition.compile properties = .error reason ∧
      w = .make p.path p.index p.condition reason := by
  unfold warning?
  split
  · rename_i hok
    simp [hok]
  · rename_i reason herror
    simp [herror, eq_comm]

theorem validateConditions_eq (path : List Nat) (i : Nat) (cs : List Condition) :
    validateConditions properties path i cs =
      ((cs.zipIdx i).map fun (c, k) => (⟨path, k, c⟩ : Place)).filterMap
        (·.warning? properties) := by
  induction cs generalizing i with
  | nil => rfl
  | cons c cs ih =>
    rw [validateConditions, List.zipIdx_cons, List.map_cons, List.filterMap_cons, ih (i + 1)]
    unfold Place.warning?
    cases c.compile properties <;> rfl

theorem validateGroups_eq (path : List Nat) (i : Nat) (gs : List Group) :
    validateGroups properties path i gs =
      (gs.zipIdx i).flatMap fun (g, k) => g.validate properties (path ++ [k]) := by
  induction gs generalizing i with
  | nil => rfl
  | cons g gs ih => rw [validateGroups, ih, List.zipIdx_cons, List.flatMap_cons]

theorem Group.validate_eq (g : Group) (path : List Nat) :
    g.validate properties path = (g.places path).filterMap (·.warning? properties) := by
  induction g using Group.inductionOn generalizing path with
  | mk id cs gs k ih =>
    rw [Group.validate, places_mk, List.filterMap_append, validateConditions_eq,
      validateGroups_eq, List.filterMap_flatMap]
    congr 1
    refine List.flatMap_congr fun gi hgi => ?_
    exact ih gi.1 (List.mem_of_getElem? (List.mem_zipIdx_iff_getElem?.mp hgi)) _

theorem compileConditions_snd (path : List Nat) (i : Nat) (cs : List Condition) :
    (compileConditions properties path i cs).2 = validateConditions properties path i cs := by
  induction cs generalizing i with
  | nil => rfl
  | cons c cs ih =>
    rw [compileConditions, validateConditions, ← ih (i + 1)]
    cases c.compile properties <;> rfl

theorem compileGroups_snd (path : List Nat) (i : Nat) (gs : List Group) :
    (compileGroups properties path i gs).2 =
      (gs.zipIdx i).flatMap fun (g, k) => (g.compile properties (path ++ [k])).2 := by
  induction gs generalizing i with
  | nil => rfl
  | cons g gs ih => rw [compileGroups, List.zipIdx_cons, List.flatMap_cons, ← ih]

theorem Group.compile_snd (g : Group) (path : List Nat) :
    (g.compile properties path).2 = g.validate properties path := by
  induction g using Group.inductionOn generalizing path with
  | mk id cs gs k ih =>
    rw [Group.compile, Group.validate, ← compileConditions_snd, validateGroups_eq]
    have hbelow : (compileGroups properties path 0 gs).2 =
        gs.zipIdx.flatMap fun (g, k) => g.validate properties (path ++ [k]) := by
      rw [compileGroups_snd]
      refine List.flatMap_congr fun gi hgi => ?_
      exact ih gi.1 (List.mem_of_getElem? (List.mem_zipIdx_iff_getElem?.mp hgi)) _
    rw [← hbelow]

/-! ## The list of warnings -/

theorem validate_eq (groups : List Group) :
    validate groups properties =
      ((Group.whole groups).places []).filterMap (·.warning? properties) := by
  rw [← Group.validate_eq, Group.whole, Group.validate, validateConditions, List.nil_append,
    validate]

theorem report_warnings (groups : List Group) :
    (report groups properties).warnings = validate groups properties := by
  have h := Group.compile_snd properties (Group.whole groups) []
  rw [Group.whole, Group.compile, Group.validate, compileConditions, validateConditions] at h
  exact h

theorem mem_validate {groups : List Group} {w : Warning} :
    w ∈ validate groups properties ↔
      ∃ c, conditionAt? groups w.groupPath w.conditionIndex = some c ∧
        c.compile properties = .error w.reason ∧ w.conditionId = c.id ∧
        w = .make w.groupPath w.conditionIndex c w.reason := by
  rw [validate_eq, List.mem_filterMap]
  constructor
  · rintro ⟨⟨path, index, c⟩, hp, hw⟩
    obtain ⟨reason, hreason, rfl⟩ := (Place.warning?_eq_some properties).mp hw
    obtain ⟨s, hs, hc⟩ := mem_places.mp hp
    rw [List.nil_append] at hs
    subst hs
    exact ⟨c, (conditionAt?_eq_bind groups path index).trans hc, hreason, rfl, rfl⟩
  · rintro ⟨c, hc, hreason, -, hw⟩
    rw [conditionAt?_eq_bind] at hc
    refine ⟨⟨w.groupPath, w.conditionIndex, c⟩, mem_places.mpr ⟨w.groupPath, rfl, hc⟩, ?_⟩
    exact (Place.warning?_eq_some properties).mpr ⟨w.reason, hreason, hw⟩

theorem Place.address_of_warning? {p : Place} {w : Warning}
    (h : p.warning? properties = some w) : w.address = p.address := by
  obtain ⟨reason, -, rfl⟩ := (warning?_eq_some properties).mp h
  rfl

theorem pairwise_validate (groups : List Group) :
    (validate groups properties).Pairwise fun v w => Precedes v.address w.address := by
  rw [validate_eq, List.pairwise_filterMap]
  refine (pairwise_places (Group.whole groups) []).imp fun {p q} hpq v hv w hw => ?_
  rw [Place.address_of_warning? properties hv, Place.address_of_warning? properties hw]
  exact hpq

/-- **The warnings are the rejected conditions.** Both walks give the same list: it holds a warning
exactly for every address at which a condition is rejected, with its id and the reason, it goes in
the order of the document, and no address comes twice. -/
theorem validate_lists_rejected (groups : List Group) :
    validate groups properties = (report groups properties).warnings ∧
    (∀ w, w ∈ validate groups properties ↔
      ∃ c, conditionAt? groups w.groupPath w.conditionIndex = some c ∧
        c.compile properties = .error w.reason ∧ w.conditionId = c.id ∧
        w = .make w.groupPath w.conditionIndex c w.reason) ∧
    ((validate groups properties).Pairwise fun v w => Precedes v.address w.address) ∧
    ((validate groups properties).map Warning.address).Nodup := by
  have hpairwise := pairwise_validate properties groups
  refine ⟨(report_warnings properties groups).symm, fun w => mem_validate properties, hpairwise, ?_⟩
  rw [List.nodup_iff_pairwise_ne, List.pairwise_map]
  refine hpairwise.imp fun {v w} hvw heq => ?_
  rw [heq] at hvw
  exact not_precedes_self _ hvw

end ChartFeed.Filter
