import ChartFeed.Proofs.Edit.Commuting

/-!
# Additions can be undone

* `isTarget_writeAt` : writing to the addressed group leaves it the addressed one.
* `isTarget_addSubgroup` : a group whose id is new is addressed where it was added, whatever ids
  stand below it.
* `writeAt_content_writeAt`, `cutAt_replaceAt_addSubgroup` : the old contents put back, and the added
  group cut out, leave the groups as they were.
* `additions_undone` : hence removing by id takes back an addition.
-/

namespace ChartFeed.Filter

/-! ## Putting back -/

theorem modify_eq_self {α : Type} {as : List α} {i : Nat} {a : α} {f : α → α} (ha : as[i]? = some a)
    (hf : f a = a) : as.modify i f = as := by
  obtain ⟨hi, rfl⟩ := List.getElem?_eq_some_iff.mp ha
  rw [List.modify_eq_set_getElem?, ha]
  show as.set i (f as[i]) = as
  rw [hf, List.set_getElem_self]

namespace Group

variable {g t : Group} {path : List Nat}

theorem modifyAt_eq_self {f : Group → Group} (h : g.descend? path = some t) (hf : f t = t) :
    g.modifyAt f path = g := by
  induction path generalizing g with
  | nil =>
    cases h
    exact hf
  | cons i path ih =>
    rw [descend?_cons] at h
    obtain ⟨g', hg', ht⟩ := Option.bind_eq_some_iff.mp h
    rw [modifyAt, modify_eq_self hg' (ih ht)]
    cases g
    rfl

theorem modifyAt_modifyAt (f f' : Group → Group) (path : List Nat) (g : Group) :
    (g.modifyAt f path).modifyAt f' path = g.modifyAt (f' ∘ f) path := by
  induction path generalizing g with
  | nil => rfl
  | cons i path ih =>
    rw [modifyAt, modifyAt, modifyAt, List.modify_modify_eq]
    exact congrArg (fun f => { g with subgroups := g.subgroups.modify i f }) (funext ih)

theorem cutAt_modifyAt_addSubgroup (s : Group) (h : g.descend? path = some t) :
    (g.modifyAt (fun _ => t.addSubgroup s) path).cutAt (path ++ [t.subgroups.length]) = g := by
  induction path generalizing g with
  | nil =>
    cases h
    rw [modifyAt, List.nil_append, cutAt_singleton, addSubgroup, List.eraseIdx_append_of_length_le
      (Nat.le_refl _), Nat.sub_self, List.eraseIdx_cons_zero, List.append_nil]
    cases t
    rfl
  | cons i path ih =>
    rw [descend?_cons] at h
    obtain ⟨g', hg', ht⟩ := Option.bind_eq_some_iff.mp h
    have hcut : (cutAt (path ++ [t.subgroups.length]) ∘ modifyAt (fun _ => t.addSubgroup s) path) g' =
      g' := ih ht
    rw [modifyAt, List.cons_append, cutAt_cons (by simp), List.modify_modify_eq,
      modify_eq_self hg' hcut]
    cases g
    rfl

end Group

variable {groups : List Group} {id : String} {path : List Nat} {g : Group}

theorem writeAt_content_writeAt (hg : groupAt? groups path = some g) (o : Content) :
    writeAt g.content path (writeAt o path groups) = groups := by
  cases path with
  | nil => cases hg
  | cons i path =>
    have hwhole : (Group.whole groups).descend? (i :: path) = some g := hg
    have htwice := Group.modifyAt_modifyAt (·.withContent o) (·.withContent g.content) (i :: path)
      (.whole groups)
    have hback : ((·.withContent g.content) ∘ (·.withContent o)) g = g := by
      cases g
      rfl
    rw [Group.modifyAt_eq_self hwhole hback] at htwice
    exact congrArg Group.subgroups htwice

theorem cutAt_replaceAt_addSubgroup (hg : groupAt? groups path = some g) (s : Group) :
    cutAt (path ++ [g.subgroups.length]) (replaceAt (g.addSubgroup s) path groups) = groups := by
  cases path with
  | nil => cases hg
  | cons i path =>
    have hwhole : (Group.whole groups).descend? (i :: path) = some g := hg
    exact congrArg Group.subgroups (Group.cutAt_modifyAt_addSubgroup s hwhole)

/-! ## What is addressed after an addition -/

theorem IsFirst.unique {look : List Nat → Option Group} {path' : List Nat} {g' : Group}
    (h : IsFirst id look path g) (h' : IsFirst id look path' g') : path = path' ∧ g = g' := by
  have hpath : path = path' := by
    rcases h.first path' g' h'.leads h'.named with heq | hlt
    · exact heq
    · rcases h'.first path g h.leads h.named with heq | hgt
      · exact heq.symm
      · exact absurd hgt (List.lex_asymm (fun hij => Nat.lt_asymm hij) hlt)
  subst hpath
  exact ⟨rfl, Option.some.inj (h.leads.symm.trans h'.leads)⟩

theorem isTarget_writeAt (h : IsTarget groups id path g) (o : Content) :
    IsTarget (writeAt o path groups) id path (g.withContent o) where
  leads := by
    have hwritten := groupAt?_replaceAt_append h.leads (g.withContent o) []
    rwa [List.append_nil, replaceAt_withContent o h.leads] at hwritten
  named := h.named
  first q t ht hid := by
    -- at every path stands the id that stood there before
    have hids := (agreeOff_writeAt o h.leads).ids q
    rw [ht] at hids
    obtain ⟨t', ht', hsame⟩ := Option.map_eq_some_iff.mp hids
    exact h.first q t' ht' (hsame.trans hid)

theorem isTarget_addSubgroup (hg : groupAt? groups path = some g) {s : Group}
    (hnew : IsAbsent s.id (groupAt? groups)) :
    IsTarget (replaceAt (g.addSubgroup s) path groups) s.id (path ++ [g.subgroups.length]) s where
  leads := by
    rw [groupAt?_replaceAt_append hg, Group.descend?_cons, Group.addSubgroup,
      List.getElem?_append_right (Nat.le_refl _), Nat.sub_self]
    rfl
  named := rfl
  first q t ht hid := by
    by_cases hpre : path <+: q
    · obtain ⟨r, rfl⟩ := hpre
      rw [groupAt?_replaceAt_append hg] at ht
      cases r with
      | nil =>
        cases ht
        exact absurd hid (hnew path g hg)
      | cons j r =>
        rw [Group.descend?_cons, Group.addSubgroup] at ht
        rcases Nat.lt_trichotomy j g.subgroups.length with hj | rfl | hj
        · rw [List.getElem?_append_left hj] at ht
          exact absurd hid (hnew (path ++ j :: r) t ((groupAt?_append hg (j :: r)).trans ht))
        · cases r with
          | nil => exact Or.inl rfl
          | cons k r => exact Or.inr (lex_append_left path (.cons .nil))
        · rw [List.getElem?_eq_none (by rw [List.length_append, List.length_singleton]; omega)] at ht
          cases ht
    · have hheading : _ = (groupAt? groups q).map Group.heading :=
        heading_groupAt?_replaceAt (g.addSubgroup s) hpre
      rw [ht] at hheading
      obtain ⟨t', ht', hsame⟩ := Option.map_eq_some_iff.mp hheading.symm
      exact absurd ((congrArg Prod.fst hsame).trans hid) (hnew q t' ht')

/-! ## Undoing -/

theorem removeCondition_addCondition (h : IsTarget groups id path g) {c : Condition}
    (hnew : ∀ b ∈ g.conditions, b.id ≠ c.id) :
    (addCondition groups id c >>= fun added => removeCondition added id c.id) = .ok groups := by
  have hadd : addCondition groups id c = .ok (writeAt (g.conditions ++ [c], g.connective) path
      groups) :=
    Change.perform_eq_ok_iff (x := .addCondition c).mpr ⟨path, g, _, h, rfl, rfl⟩
  have hkept : (g.conditions ++ [c]).filter (·.id != c.id) = g.conditions := by
    rw [List.filter_append, List.filter_eq_self.mpr fun b hb => by simpa using hnew b hb]
    simp
  have hrevise : (Change.removeCondition c.id).revise (g.conditions ++ [c], g.connective) =
      .ok g.content := by
    rw [Change.revise, hkept, if_neg (by simp)]
    rfl
  rw [except_bind_eq_ok]
  refine ⟨_, hadd, Change.perform_eq_ok_iff (x := .removeCondition c.id).mpr
    ⟨path, _, _, isTarget_writeAt h _, hrevise, ?_⟩⟩
  exact (writeAt_content_writeAt h.leads _).symm

theorem removeGroup_addSubgroup (h : IsTarget groups id path g) {s : Group}
    (hnew : IsAbsent s.id (groupAt? groups)) :
    (addSubgroup groups id s >>= fun added => removeGroup added s.id) = .ok groups := by
  have hadd : addSubgroup groups id s = .ok (replaceAt (g.addSubgroup s) path groups) :=
    update_of_isTarget h
  rw [except_bind_eq_ok]
  refine ⟨_, hadd, ?_⟩
  rw [removeGroup_of_isTarget (isTarget_addSubgroup h.leads hnew),
    cutAt_replaceAt_addSubgroup h.leads]

/-- **Additions can be undone.** Where there is a group of the id, a condition whose id is new to the
addressed group, and a group whose id is new to all groups, are added and removed again by their ids,
and the groups are as they were. -/
theorem additions_undone {groups : List Group} {id : String}
    (hpresent : ¬ IsAbsent id (groupAt? groups)) :
    (∀ c : Condition,
      (∀ path g, IsTarget groups id path g → ∀ b ∈ g.conditions, b.id ≠ c.id) →
        (addCondition groups id c >>= fun added => removeCondition added id c.id) = .ok groups) ∧
      ∀ s : Group, IsAbsent s.id (groupAt? groups) →
        (addSubgroup groups id s >>= fun added => removeGroup added s.id) = .ok groups := by
  obtain ⟨path, g, htarget⟩ := (isAbsent_or_isTarget groups id).resolve_left hpresent
  exact ⟨fun c hnew => removeCondition_addCondition htarget (hnew path g htarget),
    fun s hnew => removeGroup_addSubgroup htarget hnew⟩

/-- A group that holds groups of its own id and of the one it is added to. -/
def crowdedDeals : Group :=
  ⟨"won", [], [⟨"won", [], [], .or⟩, ⟨"late", [{ Condition.blank with id := "due" }], [], .or⟩], .and⟩

theorem isTarget_nestedDeals :
    IsTarget nestedDeals "late" [0, 0]
      ⟨"late", [{ Condition.blank with id := "due" }], [⟨"open", [], [], .or⟩], .and⟩ := by
  refine isFirst_groupAt?_cons.mpr ⟨_, rfl, isFirst_descend?_cons.mpr ⟨by decide,
    isFirst_groupAt?_cons.mpr ⟨_, rfl, isFirst_root rfl, ?_⟩⟩, ?_⟩ <;> nofun

/-- The inner of the groups of one id is addressed, since it comes first, and a group that holds
others of its id is removed as a whole. -/
theorem additions_undone_nestedDeals :
    ¬ IsAbsent "late" (groupAt? nestedDeals) ∧
      (addCondition nestedDeals "late" { Condition.blank with id := "lost" } >>= fun added =>
        removeCondition added "late" "lost") = .ok nestedDeals ∧
      IsAbsent "won" (groupAt? nestedDeals) ∧
      (addSubgroup nestedDeals "late" crowdedDeals >>= fun added => removeGroup added "won") =
        .ok nestedDeals := by
  have hpresent : ¬ IsAbsent "late" (groupAt? nestedDeals) := fun habsent =>
    habsent _ _ isTarget_nestedDeals.leads rfl
  have hnew : IsAbsent "won" (groupAt? nestedDeals) :=
    (removeGroup_eq_error_iff.mp (rfl : removeGroup nestedDeals "won" = _)).1
  have hundone := additions_undone hpresent
  refine ⟨hpresent, hundone.1 { Condition.blank with id := "lost" } ?_, hnew,
    hundone.2 crowdedDeals hnew⟩
  intro path g htarget
  obtain ⟨-, rfl⟩ := isTarget_nestedDeals.unique htarget
  simp

end ChartFeed.Filter
