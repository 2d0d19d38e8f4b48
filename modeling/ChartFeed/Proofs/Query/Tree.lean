import ChartFeed.Filter.Query

/-!
# Queries as trees

The functions of `Filter/Query` recurse over a query and its members at once. Here each becomes a
function of the list of members, the same one for conjunctions and disjunctions, and proofs about
queries go by one induction.

* `Query.root?`, `Query.members`, `Query.nodes` : the connective of a query, the queries right below
  it, and those at every depth.
* `Query.inductionOn` : a claim holds of every query if it holds of a compound whose members have
  it.
* `Connective.combine` : the truth of a compound, given the truth of its members.
* `Query.join_induct` : what a joined query takes over from its members.
-/

namespace ChartFeed.Filter

namespace Connective

/-- Several truths joined: all of them under `and`, one of them under `or`. -/
def combine : Connective → List Bool → Bool
  | .and, bs => bs.all id
  | .or, bs => bs.any id

theorem combine_singleton (k : Connective) (b : Bool) : k.combine [b] = b := by
  cases k <;> simp [combine]

theorem combine_flatMap {α : Type} (k : Connective) (f : α → List Bool) (as : List α) :
    k.combine (as.flatMap f) = k.combine (as.map fun a => k.combine (f a)) := by
  cases k <;> simp [combine, List.all_flatMap, List.any_flatMap, List.all_map, List.any_map]

end Connective

namespace Query

/-- The connective at the root; a comparison has none. -/
def root? : Query → Option Connective
  | .all _ => some .and
  | .any _ => some .or
  | .leaf _ => none

def members : Query → List Query
  | .all qs | .any qs => qs
  | .leaf _ => []

@[simp] theorem root?_compound (k : Connective) (qs : List Query) :
    (compound k qs).root? = some k := by
  cases k <;> rfl

@[simp] theorem members_compound (k : Connective) (qs : List Query) :
    (compound k qs).members = qs := by
  cases k <;> rfl

theorem leaf_ne_compound (c : Comparison) (k : Connective) (qs : List Query) :
    leaf c ≠ compound k qs := by
  cases k <;> simp [compound]

@[elab_as_elim]
theorem inductionOn {motive : Query → Prop}
    (compound : ∀ k qs, (∀ q ∈ qs, motive q) → motive (compound k qs))
    (leaf : ∀ c, motive (leaf c)) (q : Query) : motive q := by
  refine @Query.rec motive (fun qs => ∀ q ∈ qs, motive q) (compound .and) (compound .or) leaf
    ?_ ?_ q
  · intro q hq
    cases hq
  · intro q qs hq hqs p hp
    rcases List.mem_cons.mp hp with rfl | hp
    · exact hq
    · exact hqs p hp

variable (truth : Comparison → Bool)

/-! ## Truth -/

theorem allHold_eq (qs : List Query) : allHold truth qs = qs.all (holds truth) := by
  induction qs with
  | nil => rfl
  | cons q qs ih => rw [allHold, ih, List.all_cons]

theorem anyHolds_eq (qs : List Query) : anyHolds truth qs = qs.any (holds truth) := by
  induction qs with
  | nil => rfl
  | cons q qs ih => rw [anyHolds, ih, List.any_cons]

theorem holds_compound (k : Connective) (qs : List Query) :
    (compound k qs).holds truth = k.combine (qs.map (holds truth)) := by
  cases k with
  | and => rw [compound, holds, allHold_eq, Connective.combine, List.all_map]; rfl
  | or => rw [compound, holds, anyHolds_eq, Connective.combine, List.any_map]; rfl

/-! ## Leaves -/

theorem leavesAll_eq (qs : List Query) : leavesAll qs = qs.flatMap leaves := by
  induction qs with
  | nil => rfl
  | cons q qs ih => rw [leavesAll, ih, List.flatMap_cons]

theorem leaves_compound (k : Connective) (qs : List Query) :
    (compound k qs).leaves = qs.flatMap leaves := by
  cases k <;> exact leavesAll_eq qs

/-! ## Nodes -/

mutual

/-- The query and the queries below it, at every depth. -/
def nodes : Query → List Query
  | .all qs => .all qs :: nodesAll qs
  | .any qs => .any qs :: nodesAll qs
  | .leaf c => [.leaf c]
termination_by structural q => q

def nodesAll : List Query → List Query
  | [] => []
  | q :: qs => q.nodes ++ nodesAll qs
termination_by structural qs => qs

end

theorem nodesAll_eq (qs : List Query) : nodesAll qs = qs.flatMap nodes := by
  induction qs with
  | nil => rfl
  | cons q qs ih => rw [nodesAll, ih, List.flatMap_cons]

theorem mem_nodes_compound {n : Query} {k : Connective} {qs : List Query} :
    n ∈ (compound k qs).nodes ↔ n = compound k qs ∨ ∃ q ∈ qs, n ∈ q.nodes := by
  cases k <;> rw [compound, nodes, nodesAll_eq, List.mem_cons, List.mem_flatMap]

theorem mem_nodes_leaf {n : Query} {c : Comparison} : n ∈ (leaf c).nodes ↔ n = leaf c := by
  rw [nodes, List.mem_singleton]

theorem self_mem_nodes (q : Query) : q ∈ q.nodes := by
  cases q <;> simp [nodes]

theorem leaf_mem_nodes {c : Comparison} {q : Query} : leaf c ∈ q.nodes ↔ c ∈ q.leaves := by
  induction q using inductionOn with
  | compound k qs ih =>
    rw [mem_nodes_compound, leaves_compound, List.mem_flatMap]
    constructor
    · rintro (h | ⟨q, hq, h⟩)
      · exact absurd h (leaf_ne_compound c k qs)
      · exact ⟨q, hq, (ih q hq).mp h⟩
    · rintro ⟨q, hq, h⟩
      exact Or.inr ⟨q, hq, (ih q hq).mpr h⟩
  | leaf d => rw [mem_nodes_leaf, leaves, List.mem_singleton, leaf.injEq]

/-! ## Joining -/

theorem join_eq_none {k : Connective} {qs : List Query} : join k qs = none ↔ qs = [] := by
  rcases qs with _ | ⟨q, _ | ⟨r, qs⟩⟩ <;> simp [join]

theorem join_of_two_le {k : Connective} {qs : List Query} (h : 2 ≤ qs.length) :
    join k qs = some (compound k qs) := by
  match qs with
  | _ :: _ :: _ => rfl

theorem holds_of_join {k : Connective} {qs : List Query} {q : Query} (h : join k qs = some q) :
    q.holds truth = k.combine (qs.map (holds truth)) := by
  rcases qs with _ | ⟨p, _ | ⟨r, qs⟩⟩
  · cases h
  · cases h
    rw [List.map_singleton, Connective.combine_singleton]
  · cases h
    exact holds_compound truth k _

theorem leaves_join (k : Connective) (qs : List Query) :
    (join k qs).elim [] leaves = qs.flatMap leaves := by
  rcases qs with _ | ⟨p, _ | ⟨r, qs⟩⟩
  · rfl
  · exact (List.flatMap_singleton leaves p).symm
  · exact leaves_compound k _

/-- What the members have and a compound of two or more members inherits, a joined query has. -/
theorem join_induct {P : Query → Prop} {k : Connective} {qs : List Query} {q : Query}
    (hjoin : join k qs = some q) (hmem : ∀ p ∈ qs, P p)
    (hcompound : 2 ≤ qs.length → (∀ p ∈ qs, P p) → P (compound k qs)) : P q := by
  rcases qs with _ | ⟨p, _ | ⟨r, qs⟩⟩
  · cases hjoin
  · cases hjoin
    exact hmem q (List.mem_singleton_self q)
  · cases hjoin
    exact hcompound (by simp) hmem

end Query

end ChartFeed.Filter
