import ChartFeed.Proofs.Filter.Coding
import ChartFeed.Snapshot.Record

/-!
# Records read back

* `Snapshot.IsStorable` : the numbers of a record have a JSON form.
* `Snapshot.reads_decoder` : what is read off the JSON form of such a record is the record.
* `decode_encode` : the same for records and for filters, and no two of them share a form.
-/

namespace ChartFeed

open Decoder
open ChartFeed.Filter (Group Condition Value)

namespace SnapshotMode

theorem ofName?_name (m : SnapshotMode) : ofName? m.name = some m := by
  cases m
  rfl

end SnapshotMode

namespace Snapshot

/-- The numbers of the record have a JSON form: version and time fit their words of 32 and 64 bits,
those of the filters are finite. -/
structure IsStorable (s : Snapshot) : Prop where
  version : s.schemaVersion < 1 <<< 32
  time : -0x8000000000000000 ≤ s.timestamp ∧ s.timestamp < 0x8000000000000000
  filters : ∀ c ∈ Group.allConditionsOf s.filters, c.IsFinite

/-- The record with the parts of these names, blank besides. -/
def filled (s : Snapshot) (names : List String) : Snapshot where
  schemaVersion := if "schemaVersion" ∈ names then s.schemaVersion else 1
  id := if "id" ∈ names then s.id else ""
  table := if "databaseId" ∈ names then s.table else ""
  credential := if "encryptedToken" ∈ names then s.credential else ""
  x := if "xProperty" ∈ names then s.x else ""
  y := if "yProperty" ∈ names then s.y else ""
  label := if "labelProperty" ∈ names then s.label else none
  chartType := if "chartType" ∈ names then s.chartType else ""
  function := if "aggregateFunction" ∈ names then s.function else ""
  title := if "title" ∈ names then s.title else ""
  mode := if "snapshotMode" ∈ names then s.mode else .dynamic
  isDemo := if "isDemo" ∈ names then s.isDemo else false
  timestamp := if "timestamp" ∈ names then s.timestamp else 0
  createdAt := if "createdAt" ∈ names then s.createdAt else ""
  lastUpdated := if "lastUpdated" ∈ names then s.lastUpdated else none
  filters := if "filters" ∈ names then s.filters else []

theorem reads_decoder {s : Snapshot} (h : s.IsStorable) : decoder.Reads s.toJson s := by
  refine reads_record s.filled ?_ ?_ ?_ ?_ rfl
  · simp only [fieldsBeforeCredential, fieldsAfterCredential, List.forall_mem_append,
      List.forall_mem_cons]
    refine ⟨⟨⟨?version, ?_, ?_, List.forall_mem_nil _⟩, ?_, List.forall_mem_nil _⟩,
      ⟨⟨⟨⟨?_, ?_, List.forall_mem_nil _⟩, ?label⟩, ?_, ?_, ?_, ?mode, ?isDemo, ?timestamp, ?_,
        List.forall_mem_nil _⟩, ?lastUpdated⟩, ?filters, List.forall_mem_nil _⟩
    case version =>
      exact fills_of_find? rfl (reads_natBelow h.version) fun names => by simp [filled]
    case label =>
      refine fills_field? fun label hlabel => ?_
      exact fills_of_find? rfl ((reads_text label).optional nofun)
        fun names => by simp [filled, hlabel]
    case mode =>
      exact fills_of_find? rfl (reads_tagged (SnapshotMode.ofName?_name s.mode))
        fun names => by simp [filled]
    case isDemo => exact fills_of_find? rfl (reads_bool s.isDemo) fun names => by simp [filled]
    case timestamp => exact fills_of_find? rfl (reads_int64 h.time) fun names => by simp [filled]
    case lastUpdated =>
      refine fills_field? fun time htime => ?_
      exact fills_of_find? rfl ((reads_text time).optional nofun)
        fun names => by simp [filled, htime]
    case filters =>
      exact fills_of_find? rfl (Group.reads_list h.filters) fun names => by simp [filled]
    -- the other fields are texts, and always there
    all_goals exact fills_of_find? rfl (reads_text _) fun names => by simp [filled]
  · have hall : ["schemaVersion", "id", "databaseId", "encryptedToken", "xProperty", "yProperty",
        "labelProperty", "chartType", "aggregateFunction", "title", "snapshotMode", "isDemo",
        "timestamp", "createdAt", "lastUpdated", "filters"].Nodup := by decide
    refine hall.sublist ?_
    simp only [fieldsAfterCredential, List.map_append]
    exact (List.Sublist.refl ["schemaVersion", "id", "databaseId", "encryptedToken"]).append
      (((((List.Sublist.refl ["xProperty", "yProperty"]).append (keys_field?_sublist _ _)).append
        (List.Sublist.refl ["chartType", "aggregateFunction", "title", "snapshotMode", "isDemo",
          "timestamp", "createdAt"])).append (keys_field?_sublist _ _)).append
            (List.Sublist.refl ["filters"]))
  · simp [Field.may, Field.need, fieldsBeforeCredential, fieldsAfterCredential]
  · intro names hnames
    simp [filled, hnames, fieldsBeforeCredential, fieldsAfterCredential, mem_keys_field?, ite_isSome]

end Snapshot

/-! ## The whole record -/

/-- **Decoding undoes encoding.** Whatever document writes down the form of a record, its fields in
any order, is read as that record, and no document writes down the forms of two records. The same
holds for filters, which may be nested to any depth. -/
theorem decode_encode :
    (∀ s : Snapshot, s.IsStorable → ∀ d : Doc, d.Writes s.toJson → Snapshot.decoder d = .ok s) ∧
      (∀ s t : Snapshot, s.IsStorable → t.IsStorable → s ≠ t →
        ∀ d : Doc, d.Writes s.toJson → ¬d.Writes t.toJson) ∧
      (∀ gs : List Group, (∀ c ∈ Group.allConditionsOf gs, c.IsFinite) →
        ∀ d : Doc, d.Writes (Group.listToJson gs) → listOf Group.decoder d = .ok gs) ∧
      ∀ gs hs : List Group, (∀ c ∈ Group.allConditionsOf gs, c.IsFinite) →
        (∀ c ∈ Group.allConditionsOf hs, c.IsFinite) → gs ≠ hs →
        ∀ d : Doc, d.Writes (Group.listToJson gs) → ¬d.Writes (Group.listToJson hs) := by
  refine ⟨fun s hs => Snapshot.reads_decoder hs, fun s t hs ht hne d hd hd' => ?_,
    fun gs hgs => Group.reads_list hgs, fun gs hs hgs hhs hne d hd hd' => ?_⟩
  · exact hne ((Snapshot.reads_decoder hs).unique (Snapshot.reads_decoder ht) hd hd')
  · exact hne ((Group.reads_list hgs).unique (Group.reads_list hhs) hd hd')

namespace Snapshot

/-- A filter with values of every kind, nested three levels deep. -/
def mixedGroups (picked : Option Value) : List Group :=
  [⟨"outer",
    [⟨"c1", "Amount", "between", some (.one (.number 1.5)), some (.number 20), none⟩,
      ⟨"c2", "Done", "equals", some (.one (.bool true)), none, some .or⟩, .blank],
    [⟨"inner",
      [⟨"c3", "Stage", "equals", some (.list [.text "Won", .number 3, .bool false]), none, none⟩,
        ⟨"c4", "Stage", "equals", picked, none, none⟩,
        ⟨"c5", "Name", "equals", some (.one (.text "")), none, none⟩],
      [⟨"innermost", [], [], .and⟩], .or⟩], .and⟩]

def mixedRecord (picked : Option Value) : Snapshot where
  schemaVersion := 1
  id := "deals-1"
  table := "deals"
  credential := "aa:bb"
  x := "Stage"
  y := "Amount"
  label := none
  chartType := "bar"
  function := "sum"
  title := ""
  mode := .dynamic
  isDemo := true
  timestamp := 1700000000000
  createdAt := "2023-11-14T22:13:20Z"
  lastUpdated := some "2023-11-15T00:00:00Z"
  filters := mixedGroups picked

theorem isFinite_mixedGroups (picked : Option Value) (h : ∀ v ∈ picked, v.IsFinite) :
    ∀ c ∈ Group.allConditionsOf (mixedGroups picked), c.IsFinite := by
  have hnumbers : (1.5 : Float).isFinite = true ∧ (20 : Float).isFinite = true ∧
      (3 : Float).isFinite = true := by decide
  intro c hc
  simp only [mixedGroups, Group.allConditionsOf, Group.allConditions, List.append_nil,
    List.cons_append, List.nil_append, List.mem_cons, List.not_mem_nil, or_false] at hc
  obtain rfl | rfl | rfl | rfl | rfl | rfl := hc <;>
    constructor <;> simp [Value.IsFinite, Scalar.IsFinite, Condition.blank, hnumbers]
  exact h

theorem isStorable_mixedRecord (picked : Option Value) (h : ∀ v ∈ picked, v.IsFinite) :
    (mixedRecord picked).IsStorable where
  version := by simp [mixedRecord]
  time := by simp [mixedRecord]
  filters := isFinite_mixedGroups picked h

/-- A record is read back, and one with an empty list in it never looks like one without. -/
theorem decode_encode_mixedRecord :
    (mixedRecord (some (.list []))).IsStorable ∧ (mixedRecord none).IsStorable ∧
      decoder (.ofJson (mixedRecord (some (.list []))).toJson) = .ok (mixedRecord (some (.list []))) ∧
      ¬(Doc.ofJson (mixedRecord (some (.list []))).toJson).Writes (mixedRecord none).toJson ∧
      listOf Group.decoder (.ofJson (Group.listToJson (mixedGroups none))) =
        .ok (mixedGroups none) ∧
      ¬(Doc.ofJson (Group.listToJson (mixedGroups (some (.one (.text "")))))).Writes
        (Group.listToJson (mixedGroups none)) := by
  have hlist : (mixedRecord (some (.list []))).IsStorable :=
    isStorable_mixedRecord _ (by simp [Value.IsFinite])
  have hnone : (mixedRecord none).IsStorable := isStorable_mixedRecord _ nofun
  have hne : mixedRecord (some (.list [])) ≠ mixedRecord none := by
    simp [mixedRecord, mixedGroups]
  have hgroups := isFinite_mixedGroups none nofun
  have htext := isFinite_mixedGroups (some (.one (.text "")))
    (by simp [Value.IsFinite, Scalar.IsFinite])
  have hne' : mixedGroups (some (.one (.text ""))) ≠ mixedGroups none := by simp [mixedGroups]
  exact ⟨hlist, hnone, decode_encode.1 _ hlist _ (Doc.writes_ofJson _),
    decode_encode.2.1 _ _ hlist hnone hne _ (Doc.writes_ofJson _),
    decode_encode.2.2.1 _ hgroups _ (Doc.writes_ofJson _),
    decode_encode.2.2.2 _ _ htext hgroups hne' _ (Doc.writes_ofJson _)⟩

end Snapshot

end ChartFeed
