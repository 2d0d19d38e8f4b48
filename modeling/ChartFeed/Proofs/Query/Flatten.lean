import ChartFeed.Proofs.Query.Tree
import Mathlib.Data.List.Basic

/-!
# Flattening keeps the meaning

* `root?_flatten`, `holds_flatten`, `leaves_flatten` : what flattening does not change.
* `Query.IsUnnested`, `isUnnested_of_mem_nodes_flatten` : in a flattened query no member has the
  connective of its parent.
* `Query.IsWide`, `isWide_of_mem_nodes_flatten` : compounds of two or more members stay so.
* `Query.IsFlat`, `flatten_eq_self_iff` : queries without nesting are those that flattening leaves
  as they are.
* `Query.flatten_normalizes` : flattening is a normal form that keeps the meaning.
* `Query.flatten_join_congr`, `Query.flatten_join_merge` : a joined query, flattened, depends on its
  members flattened only, and not on whether some of them were joined before.
-/

namespace ChartFeed.Filter.Query

/-- What a query puts in its place among the members of a compound: its own members, if it has the
same connective. -/
def spliced : Connective → Query → List Query
  | .and, q => q.conjuncts
  | .or, q => q.disjuncts

theorem flattenAll_eq (qs : List Query) : flattenAll qs = qs.map flatten := by
  induction qs with
  | nil => rfl
  | cons q qs ih => rw [flattenAll, ih, List.map_cons]

theorem flatten_compound (k : Connective) (qs : List Query) :
    (compound k qs).flatten = compound k (qs.flatMap fun q => spliced k q.flatten) := by
  cases k <;> rw [compound, flatten, flattenAll_eq, List.flatMap_map] <;> rfl

theorem spliced_cases (k : Connective) (q : Query) :
    (∃ qs, q = compound k qs ∧ spliced k q = qs) ∨ q.root? ≠ some k ∧ spliced k q = [q] := by
  cases k with
  | and =>
    cases q with
    | all qs => exact Or.inl ⟨qs, rfl, rfl⟩
    | any qs => exact Or.inr ⟨by simp [root?], rfl⟩
    | leaf c => exact Or.inr ⟨by simp [root?], rfl⟩
  | or =>
    cases q with
    | all qs => exact Or.inr ⟨by simp [root?], rfl⟩
    | any qs => exact Or.inl ⟨qs, rfl, rfl⟩
    | leaf c => exact Or.inr ⟨by simp [root?], rfl⟩

/-! ## What stays -/

theorem root?_flatten (q : Query) : q.flatten.root? = q.root? := by
  cases q <;> rfl

theorem combine_spliced (truth : Comparison → Bool) (k : Connective) (q : Query) :
    k.combine ((spliced k q).map (holds truth)) = q.holds truth := by
  rcases spliced_cases k q with ⟨qs, rfl, h⟩ | ⟨-, h⟩
  · rw [h, holds_compound]
  · rw [h, List.map_singleton, Connective.combine_singleton]

theorem leaves_spliced (k : Connective) (q : Query) :
    (spliced k q).flatMap leaves = q.leaves := by
  rcases spliced_cases k q with ⟨qs, rfl, h⟩ | ⟨-, h⟩
  · rw [h, leaves_compound]
  · rw [h, List.flatMap_singleton]

/-- **A flattened query holds when the query does.** -/
theorem holds_flatten (truth : Comparison → Bool) (q : Query) :
    q.flatten.holds truth = q.holds truth := by
  induction q using inductionOn with
  | compound k qs ih =>
    rw [flatten_compound, holds_compound, holds_compound, List.map_flatMap,
      Connective.combine_flatMap]
    congr 1
    refine List.map_congr_left fun q hq => ?_
    rw [combine_spliced, ih q hq]
  | leaf c => rfl

theorem leaves_flatten (q : Query) : q.flatten.leaves = q.leaves := by
  induction q using inductionOn with
  | compound k qs ih =>
    rw [flatten_compound, leaves_compound, leaves_compound, List.flatMap_assoc, List.flatMap_def,
      List.flatMap_def]
    congr 1
    refine List.map_congr_left fun q hq => ?_
    rw [leaves_spliced, ih q hq]
  | leaf c => rfl

/-! ## What is gained -/

/-- No member has the connective of the query itself. -/
def IsUnnested (q : Query) : Prop := ∀ p ∈ q.members, p.root? ≠ q.root?

theorem nodes_of_mem_spliced {k : Connective} {p q n : Query} (hp : p ∈ spliced k q)
    (hn : n ∈ p.nodes) : n ∈ q.nodes := by
  rcases spliced_cases k q with ⟨qs, rfl, h⟩ | ⟨-, h⟩
  · rw [h] at hp
    exact mem_nodes_compound.mpr (Or.inr ⟨p, hp, hn⟩)
  · rw [h, List.mem_singleton] at hp
    exact hp ▸ hn

theorem root?_of_mem_spliced {k : Connective} {p q : Query} (hq : q.IsUnnested)
    (hp : p ∈ spliced k q) : p.root? ≠ some k := by
  rcases spliced_cases k q with ⟨qs, rfl, h⟩ | ⟨hne, h⟩
  · rw [h] at hp
    have := hq p (by rwa [members_compound])
    rwa [root?_compound] at this
  · rw [h, List.mem_singleton] at hp
    exact hp ▸ hne

/-- **No member of a flattened query has the connective of its parent**, at any depth. -/
theorem isUnnested_of_mem_nodes_flatten (q : Query) : ∀ n ∈ q.flatten.nodes, n.IsUnnested := by
  induction q using inductionOn with
  | compound k qs ih =>
    intro n hn
    rw [flatten_compound, mem_nodes_compound] at hn
    -- a member came out of a flattened query, so what was below that one is settled
    rcases hn with rfl | ⟨p, hp, hn⟩
    · intro p hp
      rw [members_compound] at hp
      obtain ⟨q, hq, hp⟩ := List.mem_flatMap.mp hp
      rw [root?_compound]
      exact root?_of_mem_spliced (ih q hq _ (self_mem_nodes _)) hp
    · obtain ⟨q, hq, hp⟩ := List.mem_flatMap.mp hp
      exact ih q hq n (nodes_of_mem_spliced hp hn)
  | leaf c =>
    intro n hn
    rw [flatten, mem_nodes_leaf] at hn
    subst hn
    intro p hp
    cases hp

/-- A compound has two or more members. -/
def IsWide (q : Query) : Prop := q.root?.isSome → 2 ≤ q.members.length

theorem isWide_compound {k : Connective} {qs : List Query} :
    (compound k qs).IsWide ↔ 2 ≤ qs.length := by
  simp [IsWide]

theorem one_le_length_spliced {k : Connective} {q : Query} (hq : q.IsWide) :
    1 ≤ (spliced k q).length := by
  rcases spliced_cases k q with ⟨qs, rfl, h⟩ | ⟨-, h⟩
  · rw [isWide_compound] at hq
    rw [h]
    omega
  · rw [h]
    exact Nat.le_refl 1

theorem length_le_length_flatMap {α β : Type} {f : α → List β} {as : List α}
    (h : ∀ a ∈ as, 1 ≤ (f a).length) : as.length ≤ (as.flatMap f).length := by
  induction as with
  | nil => exact Nat.zero_le _
  | cons a as ih =>
    have ha := h a List.mem_cons_self
    have has := ih fun b hb => h b (List.mem_cons_of_mem a hb)
    rw [List.flatMap_cons, List.length_append, List.length_cons]
    omega

theorem isWide_of_mem_nodes_flatten (q : Query) (hq : ∀ n ∈ q.nodes, n.IsWide) :
    ∀ n ∈ q.flatten.nodes, n.IsWide := by
  induction q using inductionOn with
  | compound k qs ih =>
    have hmem : ∀ q ∈ qs, ∀ n ∈ q.flatten.nodes, n.IsWide := fun q hmem =>
      ih q hmem fun n hn => hq n (mem_nodes_compound.mpr (Or.inr ⟨q, hmem, hn⟩))
    intro n hn
    rw [flatten_compound, mem_nodes_compound] at hn
    rcases hn with rfl | ⟨p, hp, hn⟩
    · have hlen : 2 ≤ qs.length := isWide_compound.mp (hq _ (self_mem_nodes _))
      refine isWide_compound.mpr (Nat.le_trans hlen (length_le_length_flatMap fun q hmem' => ?_))
      exact one_le_length_spliced (hmem q hmem' _ (self_mem_nodes _))
    · obtain ⟨q, hmem', hp⟩ := List.mem_flatMap.mp hp
      exact hmem q hmem' n (nodes_of_mem_spliced hp hn)
  | leaf c => exact hq

/-! ## Flat queries -/

/-- No query in it, at any depth, has a member with its own connective. -/
def IsFlat (q : Query) : Prop := ∀ n ∈ q.nodes, n.IsUnnested

theorem isFlat_flatten (q : Query) : q.flatten.IsFlat := isUnnested_of_mem_nodes_flatten q

theorem spliced_of_root?_ne {k : Connective} {q : Query} (h : q.root? ≠ some k) :
    spliced k q = [q] := by
  rcases spliced_cases k q with ⟨qs, rfl, -⟩ | ⟨-, hstays⟩
  · exact absurd (root?_compound k qs) h
  · exact hstays

theorem IsFlat.of_mem {k : Connective} {q : Query} {qs : List Query}
    (h : (compound k qs).IsFlat) (hq : q ∈ qs) : q.IsFlat :=
  fun n hn => h n (mem_nodes_compound.mpr (Or.inr ⟨q, hq, hn⟩))

theorem IsFlat.root?_ne {k : Connective} {q : Query} {qs : List Query}
    (h : (compound k qs).IsFlat) (hq : q ∈ qs) : q.root? ≠ some k := by
  have hroot := h _ (self_mem_nodes _) q (by rwa [members_compound])
  rwa [root?_compound] at hroot

theorem IsFlat.flatten_eq {q : Query} (h : q.IsFlat) : q.flatten = q := by
  induction q using inductionOn with
  | compound k qs ih =>
    have hmember : ∀ q ∈ qs, spliced k q.flatten = [q] := fun q hq => by
      rw [ih q hq (h.of_mem hq), spliced_of_root?_ne (h.root?_ne hq)]
    rw [flatten_compound, List.flatMap_congr hmember, List.flatMap_singleton']
  | leaf c => rfl

theorem flatten_eq_self_iff {q : Query} : q.flatten = q ↔ q.IsFlat :=
  ⟨fun h => h ▸ isFlat_flatten q, IsFlat.flatten_eq⟩

theorem exists_parent_of_spliced {k : Connective} {q p m : Query} {qs : List Query}
    (hqs : ∀ r ∈ spliced k q, r ∈ qs) (hp : p ∈ q.nodes) (hm : m ∈ p.members) :
    ∃ p' ∈ (compound k qs).nodes, p'.root? = p.root? ∧ m ∈ p'.members := by
  rcases spliced_cases k q with ⟨ps, rfl, hspliced⟩ | ⟨-, hspliced⟩
  · rw [hspliced] at hqs
    rcases mem_nodes_compound.mp hp with rfl | ⟨r, hr, hp⟩
    · refine ⟨_, self_mem_nodes _, by rw [root?_compound, root?_compound], ?_⟩
      rw [members_compound] at hm ⊢
      exact hqs m hm
    · exact ⟨p, mem_nodes_compound.mpr (Or.inr ⟨r, hqs r hr, hp⟩), rfl, hm⟩
  · have hq : q ∈ qs := hqs q (by rw [hspliced]; exact List.mem_singleton_self q)
    exact ⟨p, mem_nodes_compound.mpr (Or.inr ⟨q, hq, hp⟩), rfl, hm⟩

/-- A member of another connective than its parent is not merged: flattened itself, it is still a
member of a compound with the connective of that parent. -/
theorem exists_parent_flatten {q n m : Query} (hn : n ∈ q.nodes) (hm : m ∈ n.members)
    (hroot : m.root? ≠ n.root?) :
    ∃ p ∈ q.flatten.nodes, p.root? = n.root? ∧ m.flatten ∈ p.members := by
  induction q using inductionOn with
  | compound k qs ih =>
    rw [flatten_compound]
    have hspliced : ∀ q ∈ qs, ∀ r ∈ spliced k q.flatten,
        r ∈ qs.flatMap fun q => spliced k q.flatten :=
      fun q hq r hr => List.mem_flatMap.mpr ⟨q, hq, hr⟩
    rcases mem_nodes_compound.mp hn with rfl | ⟨q, hq, hn⟩
    · rw [members_compound] at hm
      rw [root?_compound, ← root?_flatten] at hroot
      refine ⟨_, self_mem_nodes _, by rw [root?_compound, root?_compound], ?_⟩
      rw [members_compound]
      refine hspliced m hm _ ?_
      rw [spliced_of_root?_ne hroot]
      exact List.mem_singleton_self _
    · obtain ⟨p, hp, hpn, hmp⟩ := ih q hq hn
      obtain ⟨p', hp', hroot', hmp'⟩ := exists_parent_of_spliced (hspliced q hq) hp hmp
      exact ⟨p', hp', hroot'.trans hpn, hmp'⟩
  | leaf c =>
    rw [mem_nodes_leaf] at hn
    subst hn
    cases hm

/-- **Flattening is a normal form that keeps the meaning.** It changes neither the connective at the
root nor the comparisons and their order nor what the query says of them; nothing is nested in its
result, so that it changes exactly the queries in which something is, and a second time nothing. A
conjunction among the members of a disjunction stays there, and the reverse. -/
theorem flatten_normalizes (q : Query) :
    q.flatten.root? = q.root? ∧
      q.flatten.leaves = q.leaves ∧
      (∀ truth, q.flatten.holds truth = q.holds truth) ∧
      q.flatten.IsFlat ∧
      (q.flatten = q ↔ q.IsFlat) ∧
      q.flatten.flatten = q.flatten ∧
      ∀ n ∈ q.nodes, ∀ m ∈ n.members, m.root? ≠ n.root? →
        ∃ p ∈ q.flatten.nodes, p.root? = n.root? ∧ m.flatten ∈ p.members := by
  refine ⟨root?_flatten q, leaves_flatten q, fun truth => holds_flatten truth q, isFlat_flatten q,
    flatten_eq_self_iff, (isFlat_flatten q).flatten_eq, ?_⟩
  intro n hn m hm hroot
  exact exists_parent_flatten hn hm hroot

/-- Conjunctions in a conjunction are merged, of one member or of none; a disjunction stays. -/
example (a b : Comparison) :
    (all [all [all [leaf a]], any [leaf a, all []], all [], leaf b]).flatten =
      all [leaf a, any [leaf a, all []], leaf b] := rfl

/-! ## Flattening what is joined -/

theorem flatten_compound_congr {k : Connective} {ps qs : List Query}
    (h : ps.map flatten = qs.map flatten) : (compound k ps).flatten = (compound k qs).flatten := by
  have hspliced : ∀ qs : List Query,
      (qs.flatMap fun q => spliced k q.flatten) = (qs.map flatten).flatMap (spliced k) :=
    fun qs => (List.flatMap_map flatten (spliced k) qs).symm
  rw [flatten_compound, flatten_compound, hspliced, hspliced, h]

theorem flatten_join_congr {k : Connective} {ps qs : List Query}
    (h : ps.map flatten = qs.map flatten) :
    (join k ps).map flatten = (join k qs).map flatten := by
  have hlength : ps.length = qs.length := by simpa using congrArg List.length h
  match ps, qs with
  | [], [] => rfl
  | [p], [q] => exact congrArg some (List.singleton_inj.mp h)
  | p :: p' :: ps, q :: q' :: qs => exact congrArg some (flatten_compound_congr h)

theorem flatten_compound_merge (k : Connective) (ps qs rs : List Query) :
    (compound k (ps ++ compound k qs :: rs)).flatten = (compound k (ps ++ qs ++ rs)).flatten := by
  have hmerged : spliced k (compound k qs).flatten = qs.flatMap fun q => spliced k q.flatten := by
    rw [flatten_compound]
    cases k <;> rfl
  rw [flatten_compound, flatten_compound, List.flatMap_append, List.flatMap_cons, hmerged,
    List.flatMap_append, List.flatMap_append, List.append_assoc]

theorem flatten_join_merge (k : Connective) (ps qs rs : List Query) :
    (join k (ps ++ (join k qs).toList ++ rs)).map flatten =
      (join k (ps ++ qs ++ rs)).map flatten := by
  by_cases hqs : 2 ≤ qs.length
  · have hall : 2 ≤ (ps ++ qs ++ rs).length := by
      rw [List.length_append, List.length_append]
      omega
    rw [join_of_two_le hqs, join_of_two_le hall, Option.toList_some]
    by_cases hbeside : ps = [] ∧ rs = []
    · obtain ⟨rfl, rfl⟩ := hbeside
      rw [List.nil_append, List.nil_append, List.append_nil, List.append_nil]
      rfl
    · have hmore : 2 ≤ (ps ++ [compound k qs] ++ rs).length := by
        rw [List.length_append, List.length_append, List.length_singleton]
        rw [← List.length_eq_zero_iff, ← List.length_eq_zero_iff] at hbeside
        omega
      rw [join_of_two_le hmore, Option.map_some, Option.map_some, List.append_assoc,
        List.singleton_append, flatten_compound_merge]
  · -- no member or one is joined without a compound
    match qs with
    | [] => rfl
    | [q] => rfl
    | _ :: _ :: _ => exact absurd (by simp) hqs

end ChartFeed.Filter.Query
