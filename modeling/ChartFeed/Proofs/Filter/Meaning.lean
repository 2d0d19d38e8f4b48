import ChartFeed.Proofs.Filter.Condition
import ChartFeed.Proofs.Filter.GroupTree
import ChartFeed.Proofs.Query.Flatten

/-!
# Compiling keeps the meaning

The tree of the builder is given a meaning of its own, in terms of the truth of comparisons and not
of queries.

* `Condition.meaning` : the comparisons that a condition asks for.
* `Group.meaning`, `meaning` : what groups ask for; rejected conditions, and groups in which nothing
  is accepted, do not count.
* `map_holds_compile` : the compiled query holds when the tree means so, and there is a query when
  some condition is accepted.
-/

namespace ChartFeed.Filter

variable (truth : Comparison → Bool) (properties : List Property)

/-! ## Conditions -/

/-- What a list of values asks for. A select column has one of several options, or has none of them;
a column with several options holds one of them, or holds none of them. Elsewhere only a list of one
value has a meaning, that of the value. -/
def listMeaning (asks : Operator → Scalar → Bool) (family : Family) (o : Operator)
    (vs : List Scalar) : Bool :=
  match family, o with
  | .select, .contains => vs.any (asks .equals)
  | .select, .doesNotContain => vs.all (asks .doesNotEqual)
  | .multiSelect, .contains => vs.any (asks .contains)
  | .multiSelect, .doesNotContain => vs.all (asks .doesNotContain)
  | _, _ =>
    match vs with
    | [v] => asks o v
    | _ => false

/-- What a condition asks for; of rejected conditions it says nothing. -/
def Condition.meaning (c : Condition) : Bool :=
  let property := Text.trim c.property
  let r := resolve properties property
  let asks (o : Operator) (operand : Operand) : Bool := truth ⟨property, r.key, o, operand⟩
  match Operator.parse? c.operator with
  | none => false
  | some o =>
    if o.isFlag then asks o .flag
    else if o.isRelative then asks o .span
    else if o = .between then
      match c.value, c.endValue with
      | some (.one start), some stop =>
        asks .onOrAfter (.value start) && asks .onOrBefore (.value stop)
      | _, _ => false
    else
      match c.value with
      | some (.one v) => asks o (.value v)
      | some (.list vs) => listMeaning (fun o v => asks o (.value v)) r.family o vs
      | none => false

theorem listMeaning_of_spread? {family : Family} {o each : Operator} {k : Connective}
    (h : spread? family o = some (each, k)) (asks : Operator → Scalar → Bool) (vs : List Scalar) :
    listMeaning asks family o vs = k.combine (vs.map (asks each)) := by
  unfold spread? at h
  split at h <;> cases h <;>
    simp [listMeaning, Connective.combine, List.any_map, List.all_map]

theorem listMeaning_singleton {family : Family} {o : Operator} (h : spread? family o = none)
    (asks : Operator → Scalar → Bool) (v : Scalar) :
    listMeaning asks family o [v] = asks o v := by
  unfold listMeaning
  split <;> simp_all [spread?]

theorem not_flag_of_spread? {family : Family} {o each : Operator} {k : Connective}
    (h : spread? family o = some (each, k)) :
    o.isFlag = false ∧ o.isRelative = false ∧ o ≠ .between := by
  unfold spread? at h
  split at h <;> cases h <;> simp [Operator.isFlag, Operator.isRelative]

theorem Condition.holds_of_compile {c : Condition} {q : Query}
    (h : c.compile properties = .ok q) : q.holds truth = c.meaning truth properties := by
  obtain ⟨o, hc⟩ := accepted_of_compile h
  have ho : Operator.parse? c.operator = some o := hc.operator
  unfold meaning
  rw [ho]
  dsimp only
  cases hc.shape with
  | flag hflag => rw [if_pos hflag, Query.holds]
  | span hspan =>
    have hflag : o.isFlag = false := by cases o <;> simp_all [Operator.isRelative, Operator.isFlag]
    rw [if_neg (by simp [hflag]), if_pos hspan, Query.holds]
  | range hrange hvalue hend =>
    subst hrange
    rw [hvalue, hend]
    simp [Operator.isFlag, Operator.isRelative, Query.holds, Query.allHold, leafWith]
  | plain htakes hrange hvalue =>
    obtain ⟨hflag, hspan⟩ : o.isFlag = false ∧ o.isRelative = false := by
      simpa [Operator.takesValue] using htakes
    rw [if_neg (by simp [hflag]), if_neg (by simp [hspan]), if_neg hrange]
    rcases hvalue with hvalue | ⟨hvalue, hspread⟩
    · rw [hvalue]
      rfl
    · rw [hvalue]
      dsimp only
      rw [listMeaning_singleton hspread]
      rfl
  | spread hvalue hspread hjoin =>
    obtain ⟨hflag, hspan, hrange⟩ := not_flag_of_spread? hspread
    rw [if_neg (by simp [hflag]), if_neg (by simp [hspan]), if_neg hrange, hvalue]
    dsimp only
    rw [listMeaning_of_spread? hspread, Query.holds_of_join truth hjoin, List.map_map]
    rfl

/-! ## Groups -/

def Group.hasAccepted (g : Group) : Bool := g.allConditions.any (·.isAccepted properties)

mutual

/-- What a group asks for: its accepted conditions, and the subgroups in which something is accepted,
joined by its connective. -/
def Group.meaning : Group → Bool
  | ⟨_, conditions, subgroups, connective⟩ =>
    connective.combine
      ((conditions.filter (·.isAccepted properties)).map (·.meaning truth properties) ++
        Group.meanings subgroups)
termination_by structural g => g

def Group.meanings : List Group → List Bool
  | [] => []
  | g :: gs =>
    if g.hasAccepted properties then g.meaning :: Group.meanings gs else Group.meanings gs
termination_by structural gs => gs

end

/-- What groups side by side ask for: all that those ask for in which something is accepted. -/
def meaning (groups : List Group) : Bool :=
  Connective.and.combine (Group.meanings truth properties groups)

theorem Group.meanings_eq (gs : List Group) :
    Group.meanings truth properties gs =
      (gs.filter (·.hasAccepted properties)).map (·.meaning truth properties) := by
  induction gs with
  | nil => rfl
  | cons g gs ih =>
    rw [Group.meanings, List.filter_cons, ih]
    split <;> rfl

theorem Group.hasAccepted_eq (g : Group) :
    g.hasAccepted properties = (g.query? properties).isSome := by
  rw [Bool.eq_iff_iff, hasAccepted, List.any_eq_true, Option.isSome_iff_ne_none, ne_eq,
    query?_eq_none]
  simp

theorem map_filterMap_eq {α β γ : Type} {f : α → Option β} {judge : β → γ} {p : α → Bool}
    {m : α → γ} {xs : List α} (hp : ∀ x ∈ xs, p x = (f x).isSome)
    (hm : ∀ x ∈ xs, ∀ y, f x = some y → judge y = m x) :
    (xs.filterMap f).map judge = (xs.filter p).map m := by
  induction xs with
  | nil => rfl
  | cons x xs ih =>
    have hrest := ih (fun y hy => hp y (List.mem_cons_of_mem x hy))
      (fun y hy => hm y (List.mem_cons_of_mem x hy))
    have hx := hp x List.mem_cons_self
    rw [List.filterMap_cons, List.filter_cons, hx]
    cases hf : f x with
    | none => exact hrest
    | some y =>
      rw [Option.isSome_some, if_pos rfl, List.map_cons, List.map_cons, hrest,
        hm x List.mem_cons_self y hf]

theorem map_holds_conditions (cs : List Condition) :
    (cs.filterMap (·.query? properties)).map (Query.holds truth) =
      (cs.filter (·.isAccepted properties)).map (·.meaning truth properties) :=
  map_filterMap_eq (fun _ _ => rfl) fun _ _ _ hq =>
    Condition.holds_of_compile truth properties ((Condition.query?_eq_some properties).mp hq)

theorem Group.holds_of_query? {g : Group} {q : Query} (h : g.query? properties = some q) :
    q.holds truth = g.meaning truth properties := by
  induction g using Group.inductionOn generalizing q with
  | mk id cs gs k ih =>
    rw [query?_mk] at h
    rw [Query.holds_of_join truth h, List.map_append, map_holds_conditions, Group.meaning,
      meanings_eq]
    congr 2
    exact map_filterMap_eq (fun g _ => hasAccepted_eq properties g) fun g hg q hq => ih g hg hq

theorem Group.meaning_whole (groups : List Group) :
    (whole groups).meaning truth properties = Filter.meaning truth properties groups := by
  rw [whole, meaning, Filter.meaning]
  rfl

/-- **Compiling keeps the meaning of the tree.** There is a query exactly when some condition is
accepted, at whatever depth, and whichever comparisons are true, the query holds when the tree means
so. -/
theorem map_holds_compile (groups : List Group) :
    (compile groups properties).map (Query.holds truth) =
      if (Group.allConditionsOf groups).any (·.isAccepted properties) then
        some (meaning truth properties groups)
      else none := by
  have haccepted := Group.hasAccepted_eq properties (Group.whole groups)
  rw [Group.hasAccepted, Group.allConditions_whole] at haccepted
  rw [compile_eq, haccepted]
  cases hquery : (Group.whole groups).query? properties with
  | none => rfl
  | some q =>
    rw [Option.isSome_some, if_pos rfl, Option.map_some, Option.map_some, Query.holds_flatten,
      Group.holds_of_query? truth properties hquery, Group.meaning_whole]

end ChartFeed.Filter
