import ChartFeed.Proofs.Filter.Warnings
import Mathlib.Data.Nat.Find

/-!
# Groups by id and by path

An id may stand at several groups, at any depth. A path of indices leads to one group.

* `IsFirst`, `IsAbsent` : the group of an id that comes first in the order of the document, and that
  there is none. The order is that of paths: a group comes before those below it, all else goes by
  index.
* `isAbsent_or_isTarget` : among groups there is a first one of the id, or there is none.
* `replaceAt`, `cutAt` : the group that a path leads to is replaced, or cut out with all below it.
* `groupAt?_replaceAt_append`, `heading_groupAt?_replaceAt`, `groupAt?_cutAt_of_le`,
  `heading_groupAt?_cutAt` : what stands at each path then.
-/

namespace ChartFeed.Filter

/-! ## The first group of an id -/

/-- Among the groups that paths lead to, none has the id. -/
def IsAbsent (id : String) (look : List Nat → Option Group) : Prop :=
  ∀ path g, look path = some g → g.id ≠ id

/-- The path leads to a group of the id, and any other path to one comes later. -/
structure IsFirst (id : String) (look : List Nat → Option Group) (path : List Nat) (g : Group) :
    Prop where
  leads : look path = some g
  named : g.id = id
  first : ∀ path' g', look path' = some g' → g'.id = id →
    path = path' ∨ List.Lex (· < ·) path path'

/-- The group that an edit of the id addresses. -/
abbrev IsTarget (groups : List Group) (id : String) (path : List Nat) (g : Group) : Prop :=
  IsFirst id (groupAt? groups) path g

section lookup

variable {id : String}

theorem groupAt?_cons_eq_some {groups : List Group} {i : Nat} {path : List Nat} {t : Group} :
    groupAt? groups (i :: path) = some t ↔
      ∃ g, groups[i]? = some g ∧ g.descend? path = some t :=
  Option.bind_eq_some_iff

theorem isAbsent_groupAt? {groups : List Group} :
    IsAbsent id (groupAt? groups) ↔ ∀ g ∈ groups, IsAbsent id g.descend? := by
  constructor
  · intro h g hg path t ht
    obtain ⟨i, hi⟩ := List.mem_iff_getElem?.mp hg
    exact h (i :: path) t (groupAt?_cons_eq_some.mpr ⟨g, hi, ht⟩)
  · intro h path t ht
    cases path with
    | nil => cases ht
    | cons i path =>
      obtain ⟨g, hg, ht⟩ := groupAt?_cons_eq_some.mp ht
      exact h g (List.mem_of_getElem? hg) path t ht

theorem isAbsent_descend? {g : Group} :
    IsAbsent id g.descend? ↔ g.id ≠ id ∧ IsAbsent id (groupAt? g.subgroups) := by
  constructor
  · intro h
    refine ⟨h [] g rfl, fun path t ht => ?_⟩
    cases path with
    | nil => cases ht
    | cons i path => exact h (i :: path) t ht
  · rintro ⟨hroot, hbelow⟩ path t ht
    cases path with
    | nil =>
      cases ht
      exact hroot
    | cons i path => exact hbelow (i :: path) t ht

theorem isFirst_root {g : Group} (h : g.id = id) : IsFirst id g.descend? [] g := by
  refine ⟨rfl, h, fun path' _ _ _ => ?_⟩
  cases path' with
  | nil => exact Or.inl rfl
  | cons i path' => exact Or.inr .nil

theorem isFirst_descend?_cons {g t : Group} {i : Nat} {path : List Nat} :
    IsFirst id g.descend? (i :: path) t ↔
      g.id ≠ id ∧ IsFirst id (groupAt? g.subgroups) (i :: path) t := by
  constructor
  · rintro ⟨hleads, hnamed, hfirst⟩
    refine ⟨fun hroot => ?_, hleads, hnamed, fun path' t' ht' => ?_⟩
    · -- the root would come before
      rcases hfirst [] g rfl hroot with h | h <;> cases h
    · cases path' with
      | nil => cases ht'
      | cons j path' => exact hfirst (j :: path') t' ht'
  · rintro ⟨hroot, hleads, hnamed, hfirst⟩
    refine ⟨hleads, hnamed, fun path' t' ht' hid => ?_⟩
    cases path' with
    | nil =>
      cases ht'
      exact absurd hid hroot
    | cons j path' => exact hfirst (j :: path') t' ht' hid

theorem isFirst_groupAt?_cons {groups : List Group} {t : Group} {i : Nat} {path : List Nat} :
    IsFirst id (groupAt? groups) (i :: path) t ↔
      ∃ g, groups[i]? = some g ∧ IsFirst id g.descend? path t ∧
        ∀ j < i, ∀ g', groups[j]? = some g' → IsAbsent id g'.descend? := by
  constructor
  · rintro ⟨hleads, hnamed, hfirst⟩
    obtain ⟨g, hg, ht⟩ := groupAt?_cons_eq_some.mp hleads
    refine ⟨g, hg, ⟨ht, hnamed, fun path' t' ht' hid => ?_⟩, fun j hj g' hg' path' t' ht' hid => ?_⟩
    · rcases hfirst (i :: path') t' (groupAt?_cons_eq_some.mpr ⟨g, hg, ht'⟩) hid with h | h
      · exact Or.inl (List.cons.inj h).2
      · rcases List.cons_lex_cons_iff.mp h with h | h
        · exact absurd h (Nat.lt_irrefl i)
        · exact Or.inr h.2
    · rcases hfirst (j :: path') t' (groupAt?_cons_eq_some.mpr ⟨g', hg', ht'⟩) hid with h | h
      · have := (List.cons.inj h).1
        omega
      · rcases List.cons_lex_cons_iff.mp h with h | h <;> omega
  · rintro ⟨g, hg, ⟨hleads, hnamed, hfirst⟩, hbefore⟩
    refine ⟨groupAt?_cons_eq_some.mpr ⟨g, hg, hleads⟩, hnamed, fun path' t' ht' hid => ?_⟩
    cases path' with
    | nil => cases ht'
    | cons j path' =>
      obtain ⟨g', hg', ht'⟩ := groupAt?_cons_eq_some.mp ht'
      rcases Nat.lt_trichotomy i j with hij | rfl | hij
      · exact Or.inr (.rel hij)
      · rw [hg] at hg'
        cases hg'
        rcases hfirst path' t' ht' hid with rfl | h
        · exact Or.inl rfl
        · exact Or.inr (.cons h)
      · exact absurd hid (hbefore j hij g' hg' path' t' ht')

theorem isAbsent_or_isFirst_groupAt? {groups : List Group}
    (h : ∀ g ∈ groups, IsAbsent id g.descend? ∨ ∃ path t, IsFirst id g.descend? path t) :
    IsAbsent id (groupAt? groups) ∨ ∃ path t, IsFirst id (groupAt? groups) path t := by
  by_cases habsent : ∀ g ∈ groups, IsAbsent id g.descend?
  · exact Or.inl (isAbsent_groupAt?.mpr habsent)
  · -- the first of the groups in which there is one
    have hsome : ∃ (i : Nat) (g : Group), groups[i]? = some g ∧ ¬ IsAbsent id g.descend? := by
      push Not at habsent
      obtain ⟨g, hg, hpresent⟩ := habsent
      obtain ⟨i, hi⟩ := List.mem_iff_getElem?.mp hg
      exact ⟨i, g, hi, hpresent⟩
    classical
    obtain ⟨g, hg, hpresent⟩ := Nat.find_spec hsome
    obtain ⟨path, t, hfirst⟩ := (h g (List.mem_of_getElem? hg)).resolve_left hpresent
    refine Or.inr ⟨Nat.find hsome :: path, t, isFirst_groupAt?_cons.mpr ⟨g, hg, hfirst, ?_⟩⟩
    intro j hj g' hg'
    by_contra hpresent'
    exact Nat.find_min hsome hj ⟨g', hg', hpresent'⟩

/-- **There is a first group of the id, or there is none.** -/
theorem isAbsent_or_isFirst (g : Group) :
    IsAbsent id g.descend? ∨ ∃ path t, IsFirst id g.descend? path t := by
  induction g using Group.inductionOn with
  | mk gid cs gs k ih =>
    by_cases hroot : gid = id
    · exact Or.inr ⟨[], _, isFirst_root hroot⟩
    rcases isAbsent_or_isFirst_groupAt? ih with h | ⟨path, t, h⟩
    · exact Or.inl (isAbsent_descend?.mpr ⟨hroot, h⟩)
    · cases path with
      | nil => cases h.leads
      | cons i path => exact Or.inr ⟨i :: path, t, isFirst_descend?_cons.mpr ⟨hroot, h⟩⟩

theorem isAbsent_or_isTarget (groups : List Group) (id : String) :
    IsAbsent id (groupAt? groups) ∨ ∃ path g, IsTarget groups id path g :=
  isAbsent_or_isFirst_groupAt? fun g _ => isAbsent_or_isFirst g

end lookup

/-! ## Changing the group at a path -/

namespace Group

/-- The group with the group that a path leads to changed. -/
def modifyAt (f : Group → Group) : List Nat → Group → Group
  | [], g => f g
  | i :: path, g => { g with subgroups := g.subgroups.modify i (modifyAt f path) }

/-- The group without the group below it that a path leads to. -/
def cutAt : List Nat → Group → Group
  | [], g => g
  | [i], g => { g with subgroups := g.subgroups.eraseIdx i }
  | i :: path, g => { g with subgroups := g.subgroups.modify i (cutAt path) }

/-- What a group holds besides its subgroups. -/
def heading (g : Group) : String × List Condition × Connective := (g.id, g.conditions, g.connective)

theorem descend?_cons (g : Group) (i : Nat) (path : List Nat) :
    g.descend? (i :: path) = g.subgroups[i]?.bind (·.descend? path) := rfl

theorem descend?_append (g : Group) (path s : List Nat) :
    g.descend? (path ++ s) = (g.descend? path).bind (·.descend? s) := by
  induction path generalizing g with
  | nil => rfl
  | cons i path ih =>
    rw [List.cons_append, descend?_cons, descend?_cons]
    cases g.subgroups[i]? with
    | none => rfl
    | some g' => exact ih g'

theorem modifyAt_const (f : Group → Group) {g t : Group} {path : List Nat}
    (h : g.descend? path = some t) : g.modifyAt (fun _ => f t) path = g.modifyAt f path := by
  induction path generalizing g with
  | nil =>
    cases h
    rfl
  | cons i path ih =>
    rw [descend?_cons] at h
    obtain ⟨g', hg', ht⟩ := Option.bind_eq_some_iff.mp h
    rw [modifyAt, modifyAt, List.modify_eq_set_getElem?, hg', List.modify_eq_set_getElem?, hg']
    exact congrArg (fun t' => { g with subgroups := g.subgroups.set i t' }) (ih ht)

theorem descend?_modifyAt_append (f : Group → Group) {g t : Group} {path : List Nat}
    (h : g.descend? path = some t) (s : List Nat) :
    (g.modifyAt f path).descend? (path ++ s) = (f t).descend? s := by
  induction path generalizing g with
  | nil =>
    cases h
    rfl
  | cons i path ih =>
    rw [descend?_cons] at h
    obtain ⟨g', hg', ht⟩ := Option.bind_eq_some_iff.mp h
    rw [List.cons_append, descend?_cons, modifyAt, List.getElem?_modify_eq, hg']
    exact ih ht

/-- **A group that does not stand at the path or below it stays**, but for the subgroups that lead
to the path. -/
theorem heading_descend?_modifyAt (f : Group → Group) (g : Group) {path q : List Nat}
    (h : ¬ path <+: q) :
    ((g.modifyAt f path).descend? q).map heading = (g.descend? q).map heading := by
  induction path generalizing g q with
  | nil => exact absurd List.nil_prefix h
  | cons i path ih =>
    cases q with
    | nil => rfl
    | cons j q =>
      rw [descend?_cons, descend?_cons, modifyAt]
      by_cases hij : i = j
      · subst hij
        rw [List.getElem?_modify_eq]
        cases g.subgroups[i]? with
        | none => rfl
        | some g' => exact ih g' fun hq => h (List.cons_prefix_cons.mpr ⟨rfl, hq⟩)
      · rw [List.getElem?_modify_ne _ _ hij]

/-! ### Cutting it out -/

theorem cutAt_singleton (g : Group) (i : Nat) :
    g.cutAt [i] = { g with subgroups := g.subgroups.eraseIdx i } := rfl

theorem cutAt_cons {path : List Nat} (hpath : path ≠ []) (g : Group) (i : Nat) :
    g.cutAt (i :: path) = { g with subgroups := g.subgroups.modify i (cutAt path) } := by
  cases path with
  | nil => exact absurd rfl hpath
  | cons j path => rfl

theorem descend?_cutAt_of_le (g : Group) (path : List Nat) {i j : Nat} (hij : i ≤ j)
    (s : List Nat) :
    (g.cutAt (path ++ [i])).descend? (path ++ j :: s) = g.descend? (path ++ (j + 1) :: s) := by
  induction path generalizing g with
  | nil =>
    rw [List.nil_append, List.nil_append, List.nil_append, cutAt_singleton, descend?_cons,
      descend?_cons, List.getElem?_eraseIdx, if_neg (Nat.not_lt.mpr hij)]
  | cons k path ih =>
    rw [List.cons_append, List.cons_append, List.cons_append, cutAt_cons (by simp), descend?_cons,
      descend?_cons, List.getElem?_modify_eq]
    cases g.subgroups[k]? with
    | none => rfl
    | some g' => exact ih g'

/-- **A group that does not stand at or after the one that is cut out stays**, but for the subgroups
that lead there. -/
theorem heading_descend?_cutAt (g : Group) (path : List Nat) (i : Nat) {q : List Nat}
    (h : ∀ j s, q = path ++ j :: s → j < i) :
    ((g.cutAt (path ++ [i])).descend? q).map heading = (g.descend? q).map heading := by
  induction path generalizing g q with
  | nil =>
    cases q with
    | nil => rfl
    | cons j q =>
      rw [List.nil_append, cutAt_singleton, descend?_cons, descend?_cons, List.getElem?_eraseIdx,
        if_pos (h j q rfl)]
  | cons k path ih =>
    rw [List.cons_append, cutAt_cons (by simp)]
    cases q with
    | nil => rfl
    | cons j q =>
      rw [descend?_cons, descend?_cons]
      by_cases hkj : k = j
      · subst hkj
        rw [List.getElem?_modify_eq]
        cases g.subgroups[k]? with
        | none => rfl
        | some g' => exact ih g' fun j s hq => h j s (congrArg (k :: ·) hq)
      · rw [List.getElem?_modify_ne _ _ hkj]

end Group

/-- Groups side by side with another group in the place of the one that a path leads to. -/
def replaceAt (t : Group) (path : List Nat) (groups : List Group) : List Group :=
  ((Group.whole groups).modifyAt (fun _ => t) path).subgroups

/-- Groups side by side without the one that a path leads to. -/
def cutAt (path : List Nat) (groups : List Group) : List Group :=
  ((Group.whole groups).cutAt path).subgroups

/-! ### Side by side -/

variable {groups : List Group} {path : List Nat}

theorem groupAt?_append {g : Group} (h : groupAt? groups path = some g) (s : List Nat) :
    groupAt? groups (path ++ s) = g.descend? s := by
  cases path with
  | nil => cases h
  | cons i path =>
    have hwhole : (Group.whole groups).descend? (i :: path) = some g := h
    have happend := (Group.whole groups).descend?_append (i :: path) s
    rw [hwhole] at happend
    exact happend

theorem groupAt?_replaceAt_append {g : Group} (h : groupAt? groups path = some g) (t : Group)
    (s : List Nat) : groupAt? (replaceAt t path groups) (path ++ s) = t.descend? s := by
  cases path with
  | nil => cases h
  | cons i path =>
    have hwhole : (Group.whole groups).descend? (i :: path) = some g := h
    exact Group.descend?_modifyAt_append (fun _ => t) hwhole s

theorem heading_groupAt?_replaceAt (t : Group) {q : List Nat} (h : ¬ path <+: q) :
    (groupAt? (replaceAt t path groups) q).map Group.heading =
      (groupAt? groups q).map Group.heading := by
  cases path with
  | nil => exact absurd List.nil_prefix h
  | cons i path =>
    cases q with
    | nil => rfl
    | cons j q => exact Group.heading_descend?_modifyAt (fun _ => t) (.whole groups) h

theorem groupAt?_cutAt_of_le {i j : Nat} (hij : i ≤ j) (s : List Nat) :
    groupAt? (cutAt (path ++ [i]) groups) (path ++ j :: s) =
      groupAt? groups (path ++ (j + 1) :: s) := by
  have hwhole := Group.descend?_cutAt_of_le (.whole groups) path hij s
  cases path <;> exact hwhole

theorem heading_groupAt?_cutAt {i : Nat} {q : List Nat} (h : ∀ j s, q = path ++ j :: s → j < i) :
    (groupAt? (cutAt (path ++ [i]) groups) q).map Group.heading =
      (groupAt? groups q).map Group.heading := by
  cases q with
  | nil => rfl
  | cons j q =>
    have hwhole := Group.heading_descend?_cutAt (.whole groups) path i h
    exact hwhole

end ChartFeed.Filter
