import ChartFeed.Proofs.Filter.Coding
import ChartFeed.Proofs.Filter.Leaves
import ChartFeed.Proofs.Filter.NormalForm
import Mathlib.Data.List.Permutation

/-!
# Queries as they are sent

An arbitrary query cannot be told by its JSON form: a flag is sent as the truth value is. Of
compiled queries the operator tells which of the two it is.

* `Doc.Writes.object_singleton`, `Doc.Writes.object_pair` : documents of objects with one field and
  with two, which may stand in either order.
* `Comparison.IsReadable`, `isReadable_of_compile` : the right-hand sides in compiled queries are of
  the kind that their operators ask for.
* `Comparison.eq_of_writes`, `Query.eq_of_writes` : one document is never that of two readable
  comparisons, nor of two queries of such.
* `sent_alike_iff` : compiled queries that are sent alike are the same.
-/

namespace ChartFeed

/-! ## Documents of objects -/

namespace Doc

variable {d : Doc} {key key' : String} {j j' : Json}

theorem Writes.object_singleton (h : d.Writes (.object [(key, j)])) :
    ∃ e : Doc, d = .object [(some key, e)] ∧ e.Writes j := by
  cases h with
  | object order hds =>
    rw [List.perm_singleton] at order
    subst order
    cases hds with
    | cons _ he hnil =>
      cases hnil
      exact ⟨_, rfl, he⟩

theorem Writes.object_pair (h : d.Writes (.object [(key, j), (key', j')])) :
    ∃ e e' : Doc, e.Writes j ∧ e'.Writes j' ∧
      (d = .object [(some key, e), (some key', e')] ∨
        d = .object [(some key', e'), (some key, e)]) := by
  cases h with
  | object order hds =>
    rcases List.perm_pair.mp order with rfl | rfl
    · cases hds with
      | cons _ he hds =>
        cases hds with
        | cons _ he' hnil =>
          cases hnil
          exact ⟨_, _, he, he', Or.inl rfl⟩
    · cases hds with
      | cons _ he' hds =>
        cases hds with
        | cons _ he hnil =>
          cases hnil
          exact ⟨_, _, he, he', Or.inr rfl⟩

theorem WritesItems.unique {α : Type} {toJson : α → Json} {as bs : List α}
    (hunique : ∀ a ∈ as, ∀ b ∈ bs, ∀ d : Doc, d.Writes (toJson a) → d.Writes (toJson b) → a = b)
    {ds : List Doc} (has : WritesItems ds (as.map toJson)) (hbs : WritesItems ds (bs.map toJson)) :
    as = bs := by
  induction as generalizing bs ds with
  | nil =>
    cases has
    cases bs with
    | nil => rfl
    | cons b bs => cases hbs
  | cons a as ih =>
    cases has with
    | cons ha has =>
      cases bs with
      | nil => cases hbs
      | cons b bs =>
        cases hbs with
        | cons hb hbs =>
          have hhead := hunique a List.mem_cons_self b List.mem_cons_self _ ha hb
          have htail := ih (fun a' ha' b' hb' => hunique a' (List.mem_cons_of_mem a ha') b'
            (List.mem_cons_of_mem b hb')) has hbs
          rw [hhead, htail]

end Doc

namespace Filter

/-! ## Names -/

theorem Connective.name_inj {k k' : Connective} (h : k.name = k'.name) : k = k' :=
  Option.some.inj ((ofName?_name k).symm.trans ((congrArg ofName? h).trans (ofName?_name k')))

theorem Operator.name_inj {o o' : Operator} (h : o.name = o'.name) : o = o' :=
  Option.some.inj ((ofName?_name o).symm.trans ((congrArg ofName? h).trans (ofName?_name o')))

theorem Key.name_inj {k k' : Key} (h : k.name = k'.name) : k = k' := by
  revert h
  cases k <;> cases k' <;> decide

theorem Key.name_ne_property (k : Key) : k.name ≠ "property" := by
  cases k <;> decide

/-! ## Comparisons -/

/-- The operator tells the kind of the right-hand side, and a value there has a JSON form. -/
structure Comparison.IsReadable (c : Comparison) : Prop where
  flag : c.operand = .flag ↔ c.operator ∈ [Operator.isEmpty, .isNotEmpty]
  span : c.operand = .span ↔ c.operator ∈ [Operator.pastWeek, .pastMonth, .pastYear]
  finite : ∀ v, c.operand = .value v → v.IsFinite

theorem Operand.eq_of_writes {a b : Operand} (hflag : a = .flag ↔ b = .flag)
    (hspan : a = .span ↔ b = .span) (ha : ∀ v, a = .value v → v.IsFinite)
    (hb : ∀ v, b = .value v → v.IsFinite) {d : Doc} (hda : d.Writes a.toJson)
    (hdb : d.Writes b.toJson) : a = b := by
  cases a with
  | flag => exact (hflag.mp rfl).symm
  | span => exact (hspan.mp rfl).symm
  | value v =>
    cases b with
    | flag => exact hflag.mpr rfl
    | span => exact hspan.mpr rfl
    | value w =>
      exact congrArg value (Decoder.Reads.unique (Scalar.reads_decoder (ha v rfl))
        (Scalar.reads_decoder (hb w rfl)) hda hdb)

/-- **No document is that of two readable comparisons.** -/
theorem Comparison.eq_of_writes {c c' : Comparison} (hc : c.IsReadable) (hc' : c'.IsReadable)
    {d : Doc} (h : d.Writes c.toJson) (h' : d.Writes c'.toJson) : c = c' := by
  obtain ⟨property, key, operator, operand⟩ := c
  obtain ⟨property', key', operator', operand'⟩ := c'
  obtain ⟨e, f, he, hf, hd⟩ := h.object_pair
  obtain ⟨e', f', he', hf', hd'⟩ := h'.object_pair
  -- the field of the property is told by its key, whichever of the two comes first
  obtain ⟨rfl, hkey, rfl⟩ : e = e' ∧ key.name = key'.name ∧ f = f' := by
    have hne := key.name_ne_property
    have hne' := key'.name_ne_property
    rcases hd with rfl | rfl <;> rcases hd' with hd' | hd' <;> simp_all
  obtain rfl := Key.name_inj hkey
  obtain ⟨g, rfl, hg⟩ := hf.object_singleton
  obtain ⟨g', hfields, hg'⟩ := hf'.object_singleton
  obtain ⟨hoperator, rfl⟩ : operator.name = operator'.name ∧ g = g' := by simpa using hfields
  obtain rfl := Operator.name_inj hoperator
  have hproperty : property = property' := by
    cases he
    cases he'
    rfl
  have hoperand : operand = operand' := Operand.eq_of_writes (hc.flag.trans hc'.flag.symm)
    (hc.span.trans hc'.span.symm) hc.finite hc'.finite hg hg'
  rw [hproperty, hoperand]

/-- Without the operator to tell, a flag is sent as the truth value is. -/
example : (⟨"Client", .title, .isEmpty, .flag⟩ : Comparison).toJson =
    (⟨"Client", .title, .isEmpty, .value (.bool true)⟩ : Comparison).toJson := rfl

/-! ## Queries -/

namespace Query

theorem toJsonAll_eq (qs : List Query) : toJsonAll qs = qs.map toJson := by
  induction qs with
  | nil => rfl
  | cons q qs ih => rw [toJsonAll, ih, List.map_cons]

theorem toJson_compound (k : Connective) (qs : List Query) :
    (compound k qs).toJson = .object [(k.name, .list (qs.map toJson))] := by
  cases k <;> rw [compound, toJson, toJsonAll_eq] <;> rfl

theorem exists_of_writes_compound {d : Doc} {k : Connective} {qs : List Query}
    (h : d.Writes (compound k qs).toJson) :
    ∃ ds, d = .object [(some k.name, .list ds)] ∧ Doc.WritesItems ds (qs.map toJson) := by
  rw [toJson_compound] at h
  obtain ⟨e, rfl, he⟩ := h.object_singleton
  cases he with
  | list hds => exact ⟨_, rfl, hds⟩

theorem not_writes_leaf_of_compound {d : Doc} {k : Connective} {qs : List Query} {c : Comparison}
    (h : d.Writes (compound k qs).toJson) : ¬ d.Writes (leaf c).toJson := by
  intro hleaf
  obtain ⟨ds, rfl, -⟩ := exists_of_writes_compound h
  obtain ⟨e, f, -, -, hd | hd⟩ := Doc.Writes.object_pair hleaf <;> simp at hd

/-- **No document is that of two queries of readable comparisons**, however they are nested. -/
theorem eq_of_writes {p q : Query} (hp : ∀ c ∈ p.leaves, c.IsReadable)
    (hq : ∀ c ∈ q.leaves, c.IsReadable) {d : Doc} (h : d.Writes p.toJson) (h' : d.Writes q.toJson) :
    p = q := by
  induction p using inductionOn generalizing q d with
  | compound k ps ih =>
    induction q using inductionOn with
    | compound k' qs _ =>
      obtain ⟨ds, rfl, hds⟩ := exists_of_writes_compound h
      obtain ⟨ds', hfields, hds'⟩ := exists_of_writes_compound h'
      obtain ⟨hname, rfl⟩ : k.name = k'.name ∧ ds = ds' := by simpa using hfields
      obtain rfl := Connective.name_inj hname
      rw [leaves_compound] at hp hq
      have hmembers : ps = qs := by
        refine hds.unique (fun p hmem q hmem' d h h' => ?_) hds'
        exact ih p hmem (fun c hc => hp c (List.mem_flatMap.mpr ⟨p, hmem, hc⟩))
          (fun c hc => hq c (List.mem_flatMap.mpr ⟨q, hmem', hc⟩)) h h'
      rw [hmembers]
    | leaf c => exact absurd h' (not_writes_leaf_of_compound h)
  | leaf c =>
    induction q using inductionOn with
    | compound k qs _ => exact absurd h (not_writes_leaf_of_compound h')
    | leaf c' =>
      have hc := hp c (List.mem_singleton_self c)
      have hc' := hq c' (List.mem_singleton_self c')
      rw [Comparison.eq_of_writes hc hc' h h']

end Query

/-! ## Compiled queries -/

variable {properties : List Property}

theorem Condition.isFinite_of_mem_comparisons {c : Condition} (hc : c.IsFinite) {d : Comparison}
    (hd : d ∈ c.comparisons properties) {v : Scalar} (hv : d.operand = .value v) : v.IsFinite := by
  unfold comparisons at hd
  dsimp only at hd
  split at hd
  · cases hd
  split at hd
  · simp_all
  split at hd
  · simp_all
  split at hd
  · split at hd
    · rename_i start stop hvalue hend
      have hstart : start.IsFinite := hc.value _ hvalue
      have hstop : stop.IsFinite := hc.endValue _ hend
      rw [List.mem_cons, List.mem_singleton] at hd
      rcases hd with rfl | rfl <;> cases hv <;> assumption
    · cases hd
  · split at hd
    · cases hd
    · rename_i value hvalue
      rw [List.mem_singleton] at hd
      subst hd
      cases hv
      exact hc.value _ hvalue
    · rename_i values hvalue
      obtain ⟨value, hmem, rfl⟩ := List.mem_map.mp hd
      cases hv
      have hall : ∀ s ∈ values, s.IsFinite := hc.value _ hvalue
      exact hall v hmem

theorem isReadable_of_compile {groups : List Group} {q : Query}
    (hfinite : ∀ c ∈ Group.allConditionsOf groups, c.IsFinite)
    (h : compile groups properties = some q) : ∀ c ∈ q.leaves, c.IsReadable := by
  rw [compile_eq] at h
  obtain ⟨p, hp, rfl⟩ := Option.map_eq_some_iff.mp h
  rw [Query.leaves_flatten]
  intro c hc
  have hformed := (Group.isWellFormed_of_query? hp).leaves c hc
  refine ⟨hformed.flag, hformed.span, fun v hv => ?_⟩
  have hleaves := Group.leaves_query? properties (Group.whole groups)
  rw [hp, Option.elim_some, Group.allConditions_whole] at hleaves
  rw [hleaves] at hc
  obtain ⟨condition, hcondition, hc⟩ := List.mem_flatMap.mp hc
  exact Condition.isFinite_of_mem_comparisons
    (hfinite condition (List.mem_of_mem_filter hcondition)) hc hv

/-- **No two compiled queries are sent alike.** Whatever the groups and columns that they are
compiled of, if some document is the JSON form of both, with the fields of objects in any order, then
they are the same. -/
theorem sent_alike_iff {groups groups' : List Group} {properties properties' : List Property}
    {q q' : Query} (hfinite : ∀ c ∈ Group.allConditionsOf groups, c.IsFinite)
    (hfinite' : ∀ c ∈ Group.allConditionsOf groups', c.IsFinite)
    (h : compile groups properties = some q) (h' : compile groups' properties' = some q') :
    (∃ d : Doc, d.Writes q.toJson ∧ d.Writes q'.toJson) ↔ q = q' := by
  constructor
  · rintro ⟨d, hd, hd'⟩
    exact Query.eq_of_writes (isReadable_of_compile hfinite h) (isReadable_of_compile hfinite' h')
      hd hd'
  · rintro rfl
    exact ⟨.ofJson q.toJson, Doc.writes_ofJson _, Doc.writes_ofJson _⟩

def invoiceColumns : List Property :=
  [⟨"Client", .title, none, none⟩, ⟨"Amount", .number, none, none⟩]

/-- Invoices of more than an amount, and those that a condition on the client asks for. -/
def invoiceGroups (operator : Operator) (value : Option Value) : List Group :=
  [⟨"g", [.make "c" "Client" operator value,
    .make "d" "Amount" .greaterThan (some (.one (.number 1.5)))], [], .or⟩]

def invoiceQuery (operator : Operator) (operand : Operand) : Query :=
  .any [.leaf ⟨"Client", .title, operator, operand⟩,
    leafWith "Amount" .number .greaterThan (.number 1.5)]

theorem isFinite_invoiceGroups (operator : Operator) (value : Option Value)
    (h : ∀ v ∈ value, v.IsFinite) :
    ∀ c ∈ Group.allConditionsOf (invoiceGroups operator value), c.IsFinite := by
  have hmake : ∀ {id property operator} {value : Option Value}, (∀ v ∈ value, v.IsFinite) →
      (Condition.make id property operator value).IsFinite :=
    fun h => ⟨h, by simp [Condition.make, Condition.blank]⟩
  have hamount : (1.5 : Float).isFinite = true := by decide
  simp only [invoiceGroups, Group.allConditionsOf, Group.allConditions, List.append_nil,
    List.forall_mem_cons]
  exact ⟨hmake h, hmake (by simp [Value.IsFinite, Scalar.IsFinite, hamount]), List.forall_mem_nil _⟩

/-- That a client is missing, and that it is the truth value, are told apart by the operators. -/
theorem sent_alike_iff_invoices :
    (∀ c ∈ Group.allConditionsOf (invoiceGroups .isEmpty none), c.IsFinite) ∧
      (∀ c ∈ Group.allConditionsOf (invoiceGroups .equals (some (.one (.bool true)))),
        c.IsFinite) ∧
      compile (invoiceGroups .isEmpty none) invoiceColumns =
        some (invoiceQuery .isEmpty .flag) ∧
      compile (invoiceGroups .equals (some (.one (.bool true)))) invoiceColumns =
        some (invoiceQuery .equals (.value (.bool true))) ∧
      ¬ ∃ d : Doc, d.Writes (invoiceQuery .isEmpty .flag).toJson ∧
        d.Writes (invoiceQuery .equals (.value (.bool true))).toJson := by
  have hfinite := isFinite_invoiceGroups .isEmpty none (by simp)
  have hfinite' := isFinite_invoiceGroups .equals (some (.one (.bool true)))
    (by simp [Value.IsFinite, Scalar.IsFinite])
  have hcompile : compile (invoiceGroups .isEmpty none) invoiceColumns =
      some (invoiceQuery .isEmpty .flag) := rfl
  have hcompile' : compile (invoiceGroups .equals (some (.one (.bool true)))) invoiceColumns =
      some (invoiceQuery .equals (.value (.bool true))) := rfl
  refine ⟨hfinite, hfinite', hcompile, hcompile', ?_⟩
  rw [sent_alike_iff hfinite hfinite' hcompile hcompile']
  simp [invoiceQuery]

end Filter

end ChartFeed
