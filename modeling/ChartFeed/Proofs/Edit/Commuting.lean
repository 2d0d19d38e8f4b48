import ChartFeed.Proofs.Edit.Target

/-!
# Edits of two groups commute

* `Change` : an edit of what a group holds itself, which leaves its subgroups alone.
* `Change.perform_eq_ok_iff` : it reads and writes the conditions and the connective of the
  addressed group.
* `AgreeOff.exists_isTarget` : so it moves no other group and changes none.
* `edits_commute` : changes of groups of two ids may be performed in either order.
-/

namespace ChartFeed.Filter

/-! ## Changes of a group -/

/-- What a group holds itself. -/
abbrev Content := List Condition × Connective

namespace Group

def content (g : Group) : Content := (g.conditions, g.connective)

def withContent (o : Content) (g : Group) : Group :=
  { g with conditions := o.1, connective := o.2 }

end Group

/-- An edit of what the addressed group holds itself. -/
inductive Change where
  | addCondition (c : Condition)
  | removeCondition (id : String)
  | updateCondition (id : String) (edit : Condition → Condition)
  | setConnective (connective : Connective)

namespace Change

def perform : Change → List Group → String → Except EditError (List Group)
  | addCondition c, groups, id => Filter.addCondition groups id c
  | removeCondition conditionId, groups, id => Filter.removeCondition groups id conditionId
  | updateCondition conditionId edit, groups, id =>
    Filter.updateCondition groups id conditionId edit
  | setConnective connective, groups, id => Filter.setConnective groups id connective

def revise : Change → Content → Except EditError Content
  | addCondition c, (conditions, connective) => .ok (conditions ++ [c], connective)
  | removeCondition id, (conditions, connective) =>
    if (conditions.filter (·.id != id)).length = conditions.length then
      .error (.conditionNotFound id)
    else .ok (conditions.filter (·.id != id), connective)
  | updateCondition id edit, (conditions, connective) =>
    match updateFirstCondition? id edit conditions with
    | some conditions => .ok (conditions, connective)
    | none => .error (.conditionNotFound id)
  | setConnective connective, (conditions, _) => .ok (conditions, connective)

theorem perform_eq (x : Change) (groups : List Group) (id : String) :
    x.perform groups id =
      update groups id fun g => (x.revise g.content).map fun o => g.withContent o := by
  cases x with
  | addCondition c => rfl
  | removeCondition conditionId =>
    refine congrArg (update groups id) (funext fun g => ?_)
    rw [Group.content, revise, apply_ite (Except.map fun o => g.withContent o)]
    rfl
  | updateCondition conditionId edit =>
    refine congrArg (update groups id) (funext fun g => ?_)
    simp only [revise, Group.content]
    cases updateFirstCondition? conditionId edit g.conditions <;> rfl
  | setConnective connective => rfl

end Change

/-! ## Writing to the group at a path -/

/-- Groups side by side with another content in the one that a path leads to. -/
def writeAt (o : Content) (path : List Nat) (groups : List Group) : List Group :=
  ((Group.whole groups).modifyAt (·.withContent o) path).subgroups

namespace Group

theorem modifyAt_withContent_comm (o o' : Content) {path path' : List Nat} (h : path ≠ path')
    (g : Group) :
    (g.modifyAt (·.withContent o) path).modifyAt (·.withContent o') path' =
      (g.modifyAt (·.withContent o') path').modifyAt (·.withContent o) path := by
  induction path generalizing g path' with
  | nil =>
    cases path' with
    | nil => exact absurd rfl h
    | cons j path' => rfl
  | cons i path ih =>
    cases path' with
    | nil => rfl
    | cons j path' =>
      simp only [modifyAt]
      by_cases hij : i = j
      · subst hij
        rw [List.modify_modify_eq, List.modify_modify_eq]
        refine congrArg (fun f => { g with subgroups := g.subgroups.modify i f }) ?_
        funext g'
        exact ih (fun hpath => h (congrArg (i :: ·) hpath)) g'
      · rw [List.modify_modify_ne _ _ _ hij]

end Group

theorem writeAt_comm (o o' : Content) {path path' : List Nat} (h : path ≠ path')
    (groups : List Group) :
    writeAt o' path' (writeAt o path groups) = writeAt o path (writeAt o' path' groups) := by
  cases path with
  | nil => rfl
  | cons i path =>
    cases path' with
    | nil => rfl
    | cons j path' =>
      exact congrArg Group.subgroups (Group.modifyAt_withContent_comm o o' h (.whole groups))

theorem replaceAt_withContent (o : Content) {groups : List Group} {path : List Nat} {g : Group}
    (hg : groupAt? groups path = some g) :
    replaceAt (g.withContent o) path groups = writeAt o path groups := by
  cases path with
  | nil => cases hg
  | cons i path =>
    have hwhole : (Group.whole groups).descend? (i :: path) = some g := hg
    exact congrArg Group.subgroups (Group.modifyAt_const (·.withContent o) hwhole)

theorem Change.perform_eq_ok_iff {x : Change} {groups groups' : List Group} {id : String} :
    x.perform groups id = .ok groups' ↔
      ∃ path g o, IsTarget groups id path g ∧ x.revise g.content = .ok o ∧
        groups' = writeAt o path groups := by
  rw [perform_eq, update_eq_ok_iff]
  constructor
  · rintro ⟨path, g, t, htarget, ht, rfl⟩
    cases ho : x.revise g.content with
    | error e =>
      rw [ho] at ht
      cases ht
    | ok o =>
      rw [ho] at ht
      cases ht
      exact ⟨path, g, o, htarget, ho, replaceAt_withContent o htarget.leads⟩
  · rintro ⟨path, g, o, htarget, ho, rfl⟩
    refine ⟨path, g, g.withContent o, htarget, ?_, (replaceAt_withContent o htarget.leads).symm⟩
    rw [ho]
    rfl

/-! ## Groups that agree -/

/-- The same ids stand at the same paths, and except at one path with the same contents. -/
structure AgreeOff (path : List Nat) (groups groups' : List Group) : Prop where
  ids : ∀ q, (groupAt? groups q).map (·.id) = (groupAt? groups' q).map (·.id)
  headings : ∀ q, q ≠ path →
    (groupAt? groups q).map Group.heading = (groupAt? groups' q).map Group.heading

theorem AgreeOff.symm {path : List Nat} {groups groups' : List Group}
    (h : AgreeOff path groups groups') : AgreeOff path groups' groups :=
  ⟨fun q => (h.ids q).symm, fun q hq => (h.headings q hq).symm⟩

theorem heading_groupAt?_writeAt (o : Content) {groups : List Group} {path q : List Nat} {g : Group}
    (hg : groupAt? groups path = some g) (hq : q ≠ path) :
    (groupAt? (writeAt o path groups) q).map Group.heading =
      (groupAt? groups q).map Group.heading := by
  rw [← replaceAt_withContent o hg]
  by_cases hpre : path <+: q
  · obtain ⟨s, rfl⟩ := hpre
    cases s with
    | nil => exact absurd (List.append_nil path) hq
    | cons j s =>
      rw [groupAt?_replaceAt_append hg, groupAt?_append hg]
      rfl
  · exact heading_groupAt?_replaceAt _ hpre

theorem agreeOff_writeAt (o : Content) {groups : List Group} {path : List Nat} {g : Group}
    (hg : groupAt? groups path = some g) : AgreeOff path groups (writeAt o path groups) where
  ids q := by
    by_cases hq : q = path
    · have hwritten := groupAt?_replaceAt_append hg (g.withContent o) []
      rw [List.append_nil, replaceAt_withContent o hg] at hwritten
      rw [hq, hg, hwritten]
      rfl
    · have hheading := congrArg (Option.map Prod.fst) (heading_groupAt?_writeAt o hg hq)
      rw [Option.map_map, Option.map_map] at hheading
      exact hheading.symm
  headings _ hq := (heading_groupAt?_writeAt o hg hq).symm

theorem AgreeOff.exists_isTarget {path q : List Nat} {groups groups' : List Group} {id : String}
    {g : Group} (h : AgreeOff path groups groups') (hg : IsTarget groups id q g) (hq : q ≠ path) :
    ∃ g', IsTarget groups' id q g' ∧ g'.content = g.content := by
  have hheading := h.headings q hq
  rw [hg.leads] at hheading
  obtain ⟨g', hg', hsame⟩ := Option.map_eq_some_iff.mp hheading.symm
  obtain ⟨hid, hcontent⟩ := Prod.mk.inj hsame
  refine ⟨g', ⟨hg', hid.trans hg.named, fun q' t' ht' hid' => ?_⟩, hcontent⟩
  have hids := h.ids q'
  rw [ht'] at hids
  obtain ⟨t, ht, htid⟩ := Option.map_eq_some_iff.mp hids
  exact hg.first q' t ht (htid.trans hid')

/-! ## Two changes -/

theorem except_bind_eq_ok {ε α β : Type} {x : Except ε α} {f : α → Except ε β} {b : β} :
    (x >>= f) = .ok b ↔ ∃ a, x = .ok a ∧ f a = .ok b := by
  cases x with
  | error e =>
    constructor
    · intro h
      cases h
    · rintro ⟨a, ha, -⟩
      cases ha
  | ok a =>
    constructor
    · intro h
      exact ⟨a, rfl, h⟩
    · rintro ⟨a', ha, h⟩
      cases ha
      exact h

theorem Change.perform_swap {a b : String} (hab : a ≠ b) {x y : Change}
    {groups between t : List Group} (hx : x.perform groups a = .ok between)
    (hy : y.perform between b = .ok t) :
    ∃ between', y.perform groups b = .ok between' ∧ x.perform between' a = .ok t := by
  obtain ⟨p, g, o, hg, ho, rfl⟩ := perform_eq_ok_iff.mp hx
  obtain ⟨q, h, o', hh, ho', rfl⟩ := perform_eq_ok_iff.mp hy
  have hagree := agreeOff_writeAt o hg.leads
  -- one path does not lead to groups of two ids
  have hqp : q ≠ p := by
    rintro rfl
    have hid := hagree.ids q
    rw [hg.leads, hh.leads, Option.map_some, Option.map_some, hg.named, hh.named] at hid
    exact hab (Option.some.inj hid)
  obtain ⟨h', hh', hcontent⟩ := hagree.symm.exists_isTarget hh hqp
  obtain ⟨g', hg', hcontent'⟩ :=
    (agreeOff_writeAt o' hh'.leads).exists_isTarget hg (Ne.symm hqp)
  refine ⟨writeAt o' q groups, perform_eq_ok_iff.mpr ⟨q, h', o', hh', hcontent ▸ ho', rfl⟩,
    perform_eq_ok_iff.mpr ⟨p, g', o, hg', hcontent' ▸ ho, ?_⟩⟩
  exact writeAt_comm o o' (Ne.symm hqp) groups

/-- **Edits of different groups commute.** Two changes, addressed to groups of two ids, succeed in
one order exactly when they succeed in the other, with the same groups, whether the groups stand
side by side or one inside the other. -/
theorem edits_commute {a b : String} (hab : a ≠ b) (x y : Change) (groups t : List Group) :
    (x.perform groups a >>= fun groups => y.perform groups b) = .ok t ↔
      (y.perform groups b >>= fun groups => x.perform groups a) = .ok t := by
  rw [except_bind_eq_ok, except_bind_eq_ok]
  constructor
  · rintro ⟨between, hx, hy⟩
    exact Change.perform_swap hab hx hy
  · rintro ⟨between, hy, hx⟩
    exact Change.perform_swap hab.symm hy hx

/-- Groups of two ids inside one another, twice. -/
def nestedDeals : List Group :=
  [⟨"open", [], [⟨"late", [{ Condition.blank with id := "due" }], [⟨"open", [], [], .or⟩], .and⟩],
    .and⟩, ⟨"late", [], [], .or⟩]

/-- The outer of the groups named first is changed, and the first group inside it. -/
theorem edits_commute_nestedDeals :
    "open" ≠ "late" ∧
      ((Change.setConnective .or).perform nestedDeals "open" >>= fun groups =>
          (Change.removeCondition "due").perform groups "late") =
        .ok [⟨"open", [], [⟨"late", [], [⟨"open", [], [], .or⟩], .and⟩], .or⟩,
          ⟨"late", [], [], .or⟩] ∧
      ((Change.removeCondition "due").perform nestedDeals "late" >>= fun groups =>
          (Change.setConnective .or).perform groups "open") =
        .ok [⟨"open", [], [⟨"late", [], [⟨"open", [], [], .or⟩], .and⟩], .or⟩,
          ⟨"late", [], [], .or⟩] :=
  ⟨by decide, rfl, (edits_commute (by decide) _ _ nestedDeals _).mp rfl⟩

end ChartFeed.Filter
