import ChartFeed.Proofs.Filter.GroupTree
import ChartFeed.Proofs.Json.Writing

/-!
# Filters read back

What is read off the JSON form of a filter is the filter, in whatever order the fields were written.

* `Scalar.reads_decoder`, `Value.reads_decoder` : what conditions compare with, if it is finite.
* `Condition.reads_decoder` : conditions, whichever of their parts are there.
* `Group.reads_decoder`, `Group.reads_list` : groups, nested to any depth.
-/

namespace ChartFeed

open Decoder

namespace Scalar

variable {s : Scalar}

theorem ofJson?_toJson (h : s.IsFinite) : ofJson? s.toJson = some s := by
  cases s with
  | number x =>
    have hx : x.isFinite = true := h
    simp [toJson, Json.ofFloat, hx, ofJson?]
  | bool b => rfl
  | text t => rfl

theorem toJson_ne_null (h : s.IsFinite) : s.toJson ≠ .null := by
  intro hnull
  have hread := ofJson?_toJson h
  simp [hnull, ofJson?] at hread

theorem reads_json (s : Scalar) : json.Reads s.toJson s.toJson := by
  intro d hd
  have hleaf : s.toJson = .null ∨ (∃ b, s.toJson = .bool b) ∨ (∃ x, s.toJson = .float x) ∨
      ∃ t, s.toJson = .text t := by
    cases s with
    | number x => by_cases hx : x.isFinite = true <;> simp [toJson, Json.ofFloat, hx]
    | bool b => simp [toJson]
    | text t => simp [toJson]
  obtain h | ⟨b, h⟩ | ⟨x, h⟩ | ⟨t, h⟩ := hleaf <;> rw [h] at hd ⊢ <;> cases hd <;> rfl

theorem reads_decoder (h : s.IsFinite) : decoder.Reads s.toJson s :=
  reads_whole s.reads_json (ofJson?_toJson h)

end Scalar

namespace Filter

namespace Value

def IsFinite : Value → Prop
  | .list values => ∀ s ∈ values, s.IsFinite
  | .one s => s.IsFinite

variable {v : Value}

theorem mapM_ofJson?_toJson {values : List Scalar} (h : ∀ s ∈ values, s.IsFinite) :
    (values.map Scalar.toJson).mapM Scalar.ofJson? = some values := by
  induction values with
  | nil => rfl
  | cons s values ih =>
    have hs := Scalar.ofJson?_toJson (h s List.mem_cons_self)
    have hrest := ih fun t ht => h t (List.mem_cons_of_mem s ht)
    simp [hs, hrest]

theorem ofJson?_toJson (h : v.IsFinite) : ofJson? v.toJson = some v := by
  cases v with
  | list values =>
    have hread := mapM_ofJson?_toJson h
    simp [toJson, ofJson?, hread]
  | one s =>
    have hread : Scalar.ofJson? s.toJson = some s := Scalar.ofJson?_toJson h
    have hone : ofJson? s.toJson = .one <$> Scalar.ofJson? s.toJson := by
      cases hs : s.toJson with
      | list items => simp [hs, Scalar.ofJson?] at hread
      | _ => rfl
    simp [toJson, hone, hread]

theorem toJson_ne_null (h : v.IsFinite) : v.toJson ≠ .null := by
  cases v with
  | list values => simp [toJson]
  | one s => exact Scalar.toJson_ne_null h

theorem reads_decoder (h : v.IsFinite) : decoder.Reads v.toJson v := by
  refine reads_whole ?_ (ofJson?_toJson h)
  cases v with
  | list values =>
    refine reads_json_list fun j hj => ?_
    obtain ⟨s, -, rfl⟩ := List.mem_map.mp hj
    exact s.reads_json
  | one s => exact s.reads_json

end Value

/-! ## Conditions -/

namespace Condition

structure IsFinite (c : Condition) : Prop where
  value : ∀ v ∈ c.value, v.IsFinite
  endValue : ∀ s ∈ c.endValue, s.IsFinite

/-- The condition with the parts of these names, blank besides. -/
def filled (c : Condition) (names : List String) : Condition where
  id := if "id" ∈ names then c.id else ""
  property := if "property" ∈ names then c.property else ""
  operator := if "operator" ∈ names then c.operator else ""
  value := if "value" ∈ names then c.value else none
  endValue := if "endValue" ∈ names then c.endValue else none
  connective := if "logicalOperator" ∈ names then c.connective else none

theorem reads_decoder {c : Condition} (h : c.IsFinite) : decoder.Reads c.toJson c := by
  refine reads_record c.filled ?_ ?_ ?_ ?_ rfl
  · simp only [List.forall_mem_append, List.forall_mem_cons]
    refine ⟨⟨⟨⟨?_, ?_, ?_, List.forall_mem_nil _⟩, ?_⟩, ?_⟩, ?_⟩
    · exact fills_of_find? rfl (reads_text c.id) fun names => by simp [filled]
    · exact fills_of_find? rfl (reads_text c.property) fun names => by simp [filled]
    · exact fills_of_find? rfl (reads_text c.operator) fun names => by simp [filled]
    · refine fills_field? fun v hv => ?_
      have hfinite := h.value v hv
      exact fills_of_find? rfl ((Value.reads_decoder hfinite).optional (Value.toJson_ne_null hfinite))
        fun names => by simp [filled, hv]
    · refine fills_field? fun s hs => ?_
      have hfinite := h.endValue s hs
      exact fills_of_find? rfl
        ((Scalar.reads_decoder hfinite).optional (Scalar.toJson_ne_null hfinite))
        fun names => by simp [filled, hs]
    · refine fills_field? fun k hk => ?_
      exact fills_of_find? rfl ((reads_tagged (Connective.ofName?_name k)).optional nofun)
        fun names => by simp [filled, hk]
  · have hall : ["id", "property", "operator", "value", "endValue", "logicalOperator"].Nodup := by
      decide
    refine hall.sublist ?_
    simp only [List.map_append]
    exact (((List.Sublist.refl ["id", "property", "operator"]).append
      (keys_field?_sublist _ _)).append (keys_field?_sublist _ _)).append (keys_field?_sublist _ _)
  · simp [Field.may]
  · intro names hnames
    simp [filled, hnames, mem_keys_field?, ite_isSome]

end Condition

/-! ## Groups -/

namespace Group

theorem toJsonAll_eq (gs : List Group) : toJsonAll gs = gs.map toJson := by
  induction gs with
  | nil => rfl
  | cons g gs ih => rw [toJsonAll, ih, List.map_cons]

/-- The group with the parts of these names, blank besides. -/
def filled (g : Group) (names : List String) : Group where
  id := if "id" ∈ names then g.id else ""
  conditions := if "conditions" ∈ names then g.conditions else []
  subgroups := if "subgroups" ∈ names then g.subgroups else []
  connective := if "logicalOperator" ∈ names then g.connective else .and

theorem height_lt_of_mem_subgroups {g sub : Group} (h : sub ∈ g.subgroups) :
    (Doc.ofJson sub.toJson).height < (Doc.ofJson g.toJson).height := by
  obtain ⟨id, conditions, subgroups, connective⟩ := g
  have hmem : sub ∈ subgroups := h
  have hmember := Doc.height_le_heightItems (List.mem_map_of_mem (f := toJson) hmem)
  simp only [toJson, toJsonAll_eq, Doc.ofJson, Doc.ofFields, Doc.height, Doc.heightFields]
  omega

theorem reads_decoderUpTo {g : Group} (hfinite : ∀ c ∈ g.allConditions, c.IsFinite) {n : Nat}
    (hn : (Doc.ofJson g.toJson).height < n) : (decoderUpTo n).Reads g.toJson g := by
  -- a level is used up at each group, and the height of its form drops there
  induction g using inductionOn generalizing n with
  | mk id conditions subgroups connective ih =>
    rw [allConditions_mk] at hfinite
    cases n with
    | zero => omega
    | succ levels =>
      have hconditions : (listOf Condition.decoder).Reads
          (.list (conditions.map Condition.toJson)) conditions :=
        reads_listOf fun c hc => Condition.reads_decoder (hfinite c (List.mem_append_left _ hc))
      have hsubgroups : (listOf (decoderUpTo levels)).Reads
          (.list (toJsonAll subgroups)) subgroups := by
        rw [toJsonAll_eq]
        refine reads_listOf fun sub hsub => ih sub hsub (fun c hc => ?_) ?_
        · exact hfinite c (List.mem_append_right _ (List.mem_flatMap.mpr ⟨sub, hsub, hc⟩))
        · exact Nat.lt_of_lt_of_le (height_lt_of_mem_subgroups hsub) (Nat.le_of_lt_succ hn)
      rw [decoderUpTo, toJson]
      refine reads_record (filled ⟨id, conditions, subgroups, connective⟩) ?_ ?_ ?_ ?_ rfl
      · simp only [List.forall_mem_cons]
        refine ⟨?_, ?_, ?_, ?_, List.forall_mem_nil _⟩
        · exact fills_of_find? rfl (reads_text id) fun names => by simp [filled]
        · exact fills_of_find? rfl hconditions fun names => by simp [filled]
        · exact fills_of_find? rfl hsubgroups fun names => by simp [filled]
        · exact fills_of_find? rfl (reads_tagged (Connective.ofName?_name connective))
            fun names => by simp [filled]
      · simp
      · simp [Field.may]
      · intro names hnames
        simp [filled, hnames]

theorem reads_decoder {g : Group} (h : ∀ c ∈ g.allConditions, c.IsFinite) :
    decoder.Reads g.toJson g := by
  intro d hd
  exact reads_decoderUpTo h (by rw [hd.height_eq]; omega) d hd

theorem reads_list {gs : List Group} (h : ∀ c ∈ allConditionsOf gs, c.IsFinite) :
    (listOf decoder).Reads (listToJson gs) gs := by
  rw [listToJson, toJsonAll_eq]
  refine reads_listOf fun g hg => reads_decoder fun c hc => h c ?_
  rw [allConditionsOf_eq]
  exact List.mem_flatMap.mpr ⟨g, hg, hc⟩

end Group

end Filter

end ChartFeed
