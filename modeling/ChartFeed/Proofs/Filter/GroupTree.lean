import ChartFeed.Filter.Compile
import ChartFeed.Proofs.Query.Tree

/-!
# Groups as trees

* `Group.inductionOn` : a claim holds of every group if it holds of a group whose subgroups have it.
* `Group.allConditions` : the conditions of a group and of all groups below it.
* `Group.query?` : the query of a group by itself, without paths and warnings.
* `Group.whole`, `compile_eq` : groups side by side are compiled as one group that holds them.
* `Group.query?_eq_none` : only a group without accepted conditions has no query.
* `Group.query?_induct` : what the query of a group takes over from those of its conditions.
-/

namespace ChartFeed.Filter

variable (properties : List Property)

/-- The query of a condition, if it is accepted. -/
def Condition.query? (c : Condition) : Option Query := (c.compile properties).toOption

def Condition.isAccepted (c : Condition) : Bool := (c.query? properties).isSome

theorem Condition.query?_eq_some {c : Condition} {q : Query} :
    c.query? properties = some q ↔ c.compile properties = .ok q := by
  unfold query?
  cases c.compile properties <;> simp [Except.toOption]

namespace Group

@[elab_as_elim]
theorem inductionOn {motive : Group → Prop}
    (mk : ∀ id conditions subgroups connective, (∀ g ∈ subgroups, motive g) →
      motive ⟨id, conditions, subgroups, connective⟩)
    (g : Group) : motive g := by
  refine @Group.rec motive (fun gs => ∀ g ∈ gs, motive g) mk ?_ ?_ g
  · intro g hg
    cases hg
  · intro g gs hg hgs h hh
    rcases List.mem_cons.mp hh with rfl | hh
    · exact hg
    · exact hgs h hh

/-! ## All conditions -/

mutual

/-- The conditions of a group, and after them those of the groups below it. -/
def allConditions : Group → List Condition
  | ⟨_, conditions, subgroups, _⟩ => conditions ++ allConditionsOf subgroups
termination_by structural g => g

def allConditionsOf : List Group → List Condition
  | [] => []
  | g :: gs => g.allConditions ++ allConditionsOf gs
termination_by structural gs => gs

end

theorem allConditionsOf_eq (gs : List Group) : allConditionsOf gs = gs.flatMap allConditions := by
  induction gs with
  | nil => rfl
  | cons g gs ih => rw [allConditionsOf, ih, List.flatMap_cons]

theorem allConditions_mk (id : String) (cs : List Condition) (gs : List Group) (k : Connective) :
    allConditions ⟨id, cs, gs, k⟩ = cs ++ gs.flatMap allConditions := by
  rw [allConditions, allConditionsOf_eq]

/-! ## The query of a group -/

mutual

/-- The query of a group: those of its conditions and subgroups, joined. -/
def query? : Group → Option Query
  | ⟨_, conditions, subgroups, connective⟩ =>
    Query.join connective (conditions.filterMap (·.query? properties) ++ queries subgroups)
termination_by structural g => g

def queries : List Group → List Query
  | [] => []
  | g :: gs => g.query?.toList ++ queries gs
termination_by structural gs => gs

end

theorem queries_eq (gs : List Group) : queries properties gs = gs.filterMap (query? properties) := by
  induction gs with
  | nil => rfl
  | cons g gs ih =>
    rw [queries, ih, List.filterMap_cons]
    cases g.query? properties <;> rfl

theorem query?_mk (id : String) (cs : List Condition) (gs : List Group) (k : Connective) :
    query? properties ⟨id, cs, gs, k⟩ =
      Query.join k (cs.filterMap (·.query? properties) ++ gs.filterMap (query? properties)) := by
  rw [query?, queries_eq]

end Group

/-! ## The compiler in terms of it -/

theorem compileConditions_fst (path : List Nat) (i : Nat) (cs : List Condition) :
    (compileConditions properties path i cs).1 = cs.filterMap (·.query? properties) := by
  induction cs generalizing i with
  | nil => rfl
  | cons c cs ih =>
    rw [compileConditions, List.filterMap_cons, ← ih (i + 1)]
    unfold Condition.query?
    cases c.compile properties <;> rfl

theorem compileGroups_fst_of {gs : List Group} (path : List Nat) (i : Nat)
    (h : ∀ g ∈ gs, ∀ path, (g.compile properties path).1 = g.query? properties) :
    (compileGroups properties path i gs).1 = gs.filterMap (Group.query? properties) := by
  induction gs generalizing i with
  | nil => rfl
  | cons g gs ih =>
    rw [compileGroups, List.filterMap_cons, ← h g List.mem_cons_self (path ++ [i]),
      ← ih (i + 1) fun g' hg' => h g' (List.mem_cons_of_mem g hg')]
    rcases g.compile properties (path ++ [i]) with ⟨_ | q, ws⟩ <;> rfl

theorem Group.compile_fst (g : Group) (path : List Nat) :
    (g.compile properties path).1 = g.query? properties := by
  induction g using Group.inductionOn generalizing path with
  | mk id cs gs k ih =>
    rw [Group.compile, query?_mk, ← compileConditions_fst properties path 0,
      ← compileGroups_fst_of properties path 0 ih]

/-- Groups side by side, as one group that holds them. -/
def Group.whole (groups : List Group) : Group := ⟨"", [], groups, .and⟩

theorem Group.allConditions_whole (groups : List Group) :
    (whole groups).allConditions = allConditionsOf groups := by
  rw [whole, allConditions, List.nil_append]

/-- **Groups side by side are compiled as one group that holds them**, and the query is flattened. -/
theorem compile_eq (groups : List Group) :
    compile groups properties =
      ((Group.whole groups).query? properties).map Query.flatten := by
  unfold compile report
  dsimp only
  rw [Group.whole, Group.query?_mk,
    compileGroups_fst_of properties [] 0 fun g _ => g.compile_fst properties]
  rfl

/-! ## Groups without a query -/

theorem filterMap_query?_eq_nil {cs : List Condition} :
    cs.filterMap (·.query? properties) = [] ↔ ∀ c ∈ cs, c.isAccepted properties = false := by
  rw [List.filterMap_eq_nil_iff]
  unfold Condition.isAccepted
  simp only [Option.isSome_eq_false_iff, Option.isNone_iff_eq_none]

/-- **Only a group without accepted conditions, at any depth, has no query.** -/
theorem Group.query?_eq_none {g : Group} :
    g.query? properties = none ↔ ∀ c ∈ g.allConditions, c.isAccepted properties = false := by
  induction g using Group.inductionOn with
  | mk id cs gs k ih =>
    rw [query?_mk, allConditions_mk, Query.join_eq_none, List.append_eq_nil_iff,
      filterMap_query?_eq_nil, List.filterMap_eq_nil_iff]
    constructor
    · rintro ⟨hcs, hgs⟩ c hc
      rcases List.mem_append.mp hc with hc | hc
      · exact hcs c hc
      · obtain ⟨g, hg, hc⟩ := List.mem_flatMap.mp hc
        exact (ih g hg).mp (hgs g hg) c hc
    · intro h
      refine ⟨fun c hc => h c (List.mem_append_left _ hc), fun g hg => (ih g hg).mpr ?_⟩
      exact fun c hc => h c (List.mem_append_right _ (List.mem_flatMap.mpr ⟨g, hg, hc⟩))

theorem Group.query?_induct {P : Query → Prop}
    (hcondition : ∀ (c : Condition) q, c.compile properties = .ok q → P q)
    (hcompound : ∀ k qs, 2 ≤ qs.length → (∀ q ∈ qs, P q) → P (.compound k qs))
    {g : Group} {q : Query} (hg : g.query? properties = some q) : P q := by
  induction g using Group.inductionOn generalizing q with
  | mk id cs gs k ih =>
    rw [query?_mk] at hg
    refine Query.join_induct hg (fun p hp => ?_) (hcompound k _)
    rcases List.mem_append.mp hp with hp | hp
    · obtain ⟨c, -, hc⟩ := List.mem_filterMap.mp hp
      exact hcondition c p ((Condition.query?_eq_some properties).mp hc)
    · obtain ⟨g, hmem, hg⟩ := List.mem_filterMap.mp hp
      exact ih g hmem hg

end ChartFeed.Filter
