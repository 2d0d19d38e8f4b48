import ChartFeed.Api.Service
import ChartFeed.Proofs.Snapshot.Stages
import ChartFeed.Proofs.Snapshot.WriteOnce

/-!
# Previews send what executions send

A preview compiles the filters of its request, an execution those of a record, which were compacted
when it was saved.

* `Exchange.query?`, `Exchange.columns?` : the query that a page is asked for with, and the columns
  that a table is answered with.
* `Course.queries` : the queries of an execution, told by the columns that it was answered.
* `Service.Previewed`, `Service.exists_previewed` : the exchanges of a preview.
* `compaction_keeps_query` : filters and their compaction compile alike, and a preview sends the
  query that the execution of a record with its filters sends.
-/

namespace ChartFeed

open ChartFeed.Filter (Group Query Warning compile compact report)

variable {σ : Type}

/-! ## Queries and columns -/

namespace Exchange

def query? : Exchange → Option (Option Query)
  | ⟨.page _ _ query _ _, _⟩ => some query
  | _ => none

/-- The columns that a table is answered with. -/
def columns? : Exchange → Option (List Property)
  | ⟨.schema _ _, .ok (schema : Schema)⟩ => some schema.properties
  | _ => none

end Exchange

theorem Exchanged.unique {source : Source σ} {d d' : Dialogue σ} {es es' : List Exchange}
    (h : Exchanged source d es d') (h' : Exchanged source d es' d') : es = es' := by
  induction h generalizing es' with
  | nil d =>
    exact (List.map_eq_nil_iff.mp (List.append_right_eq_self.mp h'.calls.symm)).symm
  | @cons d d' es c rest ih =>
    have hcalls := (Exchanged.cons c rest).calls.symm.trans h'.calls
    rw [List.append_cancel_left_eq] at hcalls
    cases es' with
    | nil => cases hcalls
    | cons e es' =>
      obtain ⟨c', a⟩ := e
      obtain rfl : c = c' := (List.cons.inj hcalls).1
      obtain ⟨hanswer, hrest⟩ := cons_iff.mp h'
      obtain rfl : (source.answer c d.state).1 = a := hanswer
      rw [ih hrest]

/-- The queries of exchanges, one a page. -/
def queriesOf (es : List Exchange) : List (Option Query) := es.filterMap Exchange.query?

/-- The columns that exchanges tell of. -/
def columnsOf (es : List Exchange) : List (List Property) := es.filterMap Exchange.columns?

namespace Session.Sweep

variable {s : Sweep} {limit : Nat} {cursor : Option String} {es : List Exchange}
  {result : Except Stop (List Json)}

theorem query?_of_mem_exchanges {pages : List Page} {e : Exchange}
    (h : e ∈ s.exchanges cursor pages) : e.query? = some s.query := by
  induction pages generalizing cursor with
  | nil => cases h
  | cons page pages ih =>
    rcases List.mem_cons.mp h with rfl | h
    · rfl
    · exact ih h

theorem Ends.query?_eq (h : s.Ends limit cursor es result) {e : Exchange} (he : e ∈ es) :
    e.query? = some s.query := by
  cases h with
  | complete pages hpages hlimit => exact query?_of_mem_exchanges he
  | unfinished pages hpages hlimit => exact query?_of_mem_exchanges he
  | failed pages f hpages hlimit =>
    rcases List.mem_append.mp he with he | he
    · exact query?_of_mem_exchanges he
    · rw [List.mem_singleton.mp he]
      rfl

end Session.Sweep

/-! ## Executions -/

namespace Vault

variable {v : Vault σ Store} {store : Store} {id : String} {r : Snapshot} {es : List Exchange}
  {outcome : Except Stop (Snapshot × List Json)}

/-- A record without filters is asked for without a query, any other with the one that its filters
compile to under the columns answered. -/
theorem Course.queries (h : v.Course store id es outcome) (hfind : store.find? id = some r)
    {query : Option Query} (hquery : query ∈ queriesOf es) :
    (r.filters = [] ∧ query = none) ∨
      ∃ columns ∈ columnsOf es, query = compile r.filters columns := by
  cases h with
  | invalid | newer | missing | closed => cases hquery
  | unknownColumns s token f hs htoken hfilters => cases hquery
  | swept s token sent asked es result hs htoken hqueried hend =>
    obtain rfl : s = r := Option.some.inj (hs.2.1.symm.trans hfind)
    -- the schema is no page, so that the query is that of the collection
    have hsent : query = sent := by
      obtain ⟨e, he, hequery⟩ := List.mem_filterMap.mp hquery
      rcases List.mem_append.mp he with he | he
      · cases hqueried with
        | bare => cases he
        | filtered =>
          rw [List.mem_singleton.mp he] at hequery
          cases hequery
      · rw [hend.query?_eq he] at hequery
        exact (Option.some.inj hequery).symm
    subst hsent
    cases hqueried with
    | bare hfilters => exact .inl ⟨hfilters, rfl⟩
    | filtered hfilters schema =>
      exact .inr ⟨schema.properties, List.mem_cons_self, rfl⟩

end Vault

/-! ## Previews -/

namespace Api.Service

variable {s : Service σ Store} {r : QueryRequest} {d d' : Dialogue σ}

/-- The page that a preview asks for under a query. -/
def pageCall (s : Service σ Store) (r : QueryRequest) (query : Option Query) : Call :=
  .page r.token r.table query (s.pageSize r.pageSize) r.cursor

/-- The exchanges of a preview that is given no columns: if there are filters, the columns are asked
for, and once they are known, one page is. -/
inductive Previewed (s : Service σ Store) (r : QueryRequest) : List Exchange → Prop where
  | bare (h : r.filters = []) (page : Except Failure Page) :
    Previewed s r [⟨s.pageCall r none, page⟩]
  | unknownColumns (h : r.filters ≠ []) (f : Failure) :
    Previewed s r [⟨.schema r.token r.table, .error f⟩]
  | filtered (h : r.filters ≠ []) (schema : Schema) (page : Except Failure Page) :
    Previewed s r [⟨.schema r.token r.table, .ok schema⟩,
      ⟨s.pageCall r (Filter.compile r.filters schema.properties), page⟩]

def columns (s : Service σ Store) (r : QueryRequest) (d : Dialogue σ) : Except Failure Schema :=
  (s.vault.source.answer (.schema r.token r.table) d.state).1

theorem report_of_bare (h : r.filters = []) (d : Dialogue σ) :
    s.report r d = (.ok ⟨none, []⟩, d) := by
  unfold report
  rw [h]
  rfl

theorem report_of_filtered (h : r.filters ≠ []) (hproperties : r.properties = none)
    (d : Dialogue σ) :
    s.report r d =
      ((s.columns r d).mapError .failed |>.map fun schema =>
        Filter.report r.filters schema.properties,
        d.after s.vault.source (.schema r.token r.table)) := by
  have hask : (Session.ask s.vault.source (.schema r.token r.table) : Session σ Schema) d =
      ((s.columns r d).mapError .failed, d.after s.vault.source (.schema r.token r.table)) :=
    Session.ask_eq s.vault.source (.schema r.token r.table) d
  have hfilters : r.filters.isEmpty = false := by
    cases hcase : r.filters with
    | nil => exact absurd hcase h
    | cons g gs => rfl
  unfold report
  rw [hfilters, hproperties]
  simp only [Bool.false_eq_true, if_false]
  rw [bind_apply, hask]
  cases s.columns r d <;> rfl

theorem query_of_report_error {stop : Stop} (h : s.report r d = (.error stop, d')) :
    (s.query r d).2 = d' := by
  unfold query
  rw [bind_apply, h]

theorem query_of_report {compiled : Filter.Report} (h : s.report r d = (.ok compiled, d')) :
    (s.query r d).2 = d'.after s.vault.source (s.pageCall r compiled.query) := by
  have hask := Session.ask_eq s.vault.source (s.pageCall r compiled.query) d'
  unfold query
  rw [bind_apply, h]
  dsimp only
  refine Eq.trans (congrArg Prod.snd (bind_apply (α := Page) _ _ _)) ?_
  rw [show (Session.ask s.vault.source (.page r.token r.table compiled.query
    (s.pageSize r.pageSize) r.cursor) : Session σ Page) d' = _ from hask]
  rcases (s.vault.source.answer (s.pageCall r compiled.query) d'.state).1 with f | page <;> rfl

theorem exists_previewed (s : Service σ Store) (fresh : Fresh) (w : World σ Store)
    (h : r.properties = none) :
    ∃ es, s.Previewed r es ∧
      Exchanged s.vault.source w.dialogue es (s.run fresh (.query r) w).2.dialogue := by
  show ∃ es, s.Previewed r es ∧ Exchanged s.vault.source w.dialogue es (s.query r w.dialogue).2
  by_cases hfilters : r.filters = []
  · rw [query_of_report (report_of_bare hfilters w.dialogue)]
    exact ⟨_, .bare hfilters _, .of_answer rfl⟩
  · have hreport := report_of_filtered (s := s) hfilters h w.dialogue
    cases hcolumns : s.columns r w.dialogue with
    | error f =>
      rw [hcolumns] at hreport
      rw [query_of_report_error hreport]
      exact ⟨_, .unknownColumns hfilters f, .of_answer hcolumns⟩
    | ok schema =>
      rw [hcolumns] at hreport
      rw [query_of_report hreport]
      exact ⟨_, .filtered hfilters schema _, (Exchanged.of_answer hcolumns).append (.of_answer rfl)⟩

end Api.Service

/-! ## The same query -/

/-- A chart with these filters was saved under an id, and the id has not been made up again since. -/
def Vault.HasSaved (v : Vault σ Store) (groups : List Group) (id : String) (w : World σ Store) :
    Prop :=
  ∃ w₀ fresh r receipt w₁ steps, w₀.store.IsBuilt ∧ r.filters.getD [] = groups ∧
    v.save fresh r w₀ = (.ok receipt, w₁) ∧ receipt.id = id ∧
    (∀ step ∈ steps, step.newId? ≠ some id) ∧ w = v.run steps w₁

theorem Vault.HasSaved.find? {v : Vault σ Store} {groups : List Group} {id : String}
    {w : World σ Store} (h : v.HasSaved groups id w) (hshelf : v.shelf = Store.shelf) :
    w.store.IsKeyed ∧ ∃ r, w.store.find? id = some r ∧ r.filters = compact groups := by
  obtain ⟨w₀, fresh, r, receipt, w₁, steps, hbuilt, rfl, hsave, rfl, hnew, rfl⟩ := h
  obtain ⟨hid, hkeyed, stamp, hstands⟩ := holds_of_save hshelf hbuilt.isKeyed hsave hnew
  rw [hid]
  exact ⟨hkeyed, _, hstands, rfl⟩

namespace Api.Service

variable {s : Service σ Store} {preview : QueryRequest} {id : String} {fresh fresh' : Fresh}
  {w w' : World σ Store}

/-- Previewed filters and a record saved with them: under the same columns they have one query. -/
theorem previewed_eq_executed {es es' : List Exchange} {r : Snapshot} {store : Store}
    {outcome : Except Stop (Snapshot × List Json)} (hpreview : s.Previewed preview es)
    (hcourse : s.vault.Course store id es' outcome) (hfind : store.find? id = some r)
    (hfilters : r.filters = compact preview.filters)
    (hfetched : preview.filters ≠ [] → columnsOf es ≠ [])
    (hsame : ∀ columns ∈ columnsOf es, ∀ columns' ∈ columnsOf es', columns' = columns) :
    ∃ query, queriesOf es = [query] ∧ ∀ query' ∈ queriesOf es', query' = query := by
  cases hpreview with
  | unknownColumns h f => exact absurd rfl (hfetched h)
  | bare h page =>
    refine ⟨none, rfl, fun query' hquery' => ?_⟩
    have hempty : r.filters = [] := by rw [hfilters, h]; rfl
    obtain ⟨-, hnone⟩ | ⟨columns, -, hcompile⟩ := hcourse.queries hfind hquery'
    · exact hnone
    · rw [hcompile, hempty]
      rfl
  | filtered h schema page =>
    refine ⟨Filter.compile preview.filters schema.properties, rfl, fun query' hquery' => ?_⟩
    obtain ⟨hempty, hnone⟩ | ⟨columns, hcolumns, hcompile⟩ := hcourse.queries hfind hquery'
    · -- the columns are not asked for, as nothing would be left of the filters
      rw [hnone, Filter.compile_of_compact_eq_nil schema.properties (hfilters.symm.trans hempty)]
    · rw [hcompile, hfilters, hsame schema.properties List.mem_cons_self columns hcolumns,
        Filter.compile_compact]

end Api.Service

/-- **Compaction never changes the query.** Filters and their compaction compile to the same query
and to the same warnings, but for the paths in them; filters of which compaction leaves nothing
compile to none. So a preview of filters whose columns are answered sends the query that every page
of an execution is asked for with, if a chart was saved with these filters and the columns are the
same. -/
theorem compaction_keeps_query (groups : List Group) :
    (∀ properties, compile (compact groups) properties = compile groups properties ∧
      (report (compact groups) properties).warnings.map Warning.pathless =
        (report groups properties).warnings.map Warning.pathless) ∧
    (compact groups = [] → ∀ properties, compile groups properties = none) ∧
    ∀ (σ : Type) (s : Api.Service σ Store) (preview : Api.QueryRequest) (id : String)
      (fresh fresh' : Fresh) (w w' : World σ Store),
      s.vault.shelf = Store.shelf → preview.filters = groups → preview.properties = none →
      s.vault.HasSaved groups id w' →
      ∃ es es',
        Exchanged s.vault.source w.dialogue es (s.run fresh (.query preview) w).2.dialogue ∧
        Exchanged s.vault.source w'.dialogue es' (s.run fresh' (.execute id) w').2.dialogue ∧
        ((groups ≠ [] → columnsOf es ≠ []) →
          (∀ columns ∈ columnsOf es, ∀ columns' ∈ columnsOf es', columns' = columns) →
          ∃ query, queriesOf es = [query] ∧ ∀ query' ∈ queriesOf es', query' = query) := by
  refine ⟨fun properties => ⟨Filter.compile_compact properties groups, ?_⟩,
    fun h properties => Filter.compile_of_compact_eq_nil properties h, ?_⟩
  · rw [Filter.report_warnings, Filter.report_warnings]
    exact Filter.map_pathless_validate_compact properties groups
  · rintro σ s preview id fresh fresh' w w' hshelf rfl hproperties hsaved
    obtain ⟨es, hpreview, hes⟩ := s.exists_previewed fresh w hproperties
    obtain ⟨es', outcome, d', hcourse, hes'⟩ := Vault.exists_course s.vault w' id
    obtain ⟨hkeyed, r, hfind, hfilters⟩ := hsaved.find? hshelf
    refine ⟨es, es', hes, ?_, Api.Service.previewed_eq_executed hpreview hcourse hfind hfilters⟩
    have hexecute : (s.run fresh' (.execute id) w').2 = (s.vault.execute fresh' id w').2 :=
      Vault.snd_map Execution.toJson (s.vault.execute fresh' id) w'
    rw [hexecute, Vault.execute_of_course hshelf hkeyed hcourse hes']
    cases outcome <;> exact hes'

namespace Vault

def dealService : Api.Service Unit Store := ⟨dealVault, none⟩

def dealPreview : Api.QueryRequest := ⟨"secret_other", "deals", dealGroups, none, none, none⟩

/-- The moment after the chart of the deals was saved, and some steps later. -/
def laterWorld : World Unit Store :=
  dealVault.run dealSteps
    ⟨⟨(), []⟩, Store.empty.insert (record dealVault.cipher (momentOf "a") dealRequest)⟩

theorem hasSaved_dealGroups : dealVault.HasSaved dealGroups (newId (momentOf "a")) laterWorld :=
  ⟨newWorld, momentOf "a", dealRequest, _, _, dealSteps, .empty, rfl, save_newWorld, rfl,
    by decide, rfl⟩

theorem columns_dealSource {d d' : Dialogue Unit} {es : List Exchange}
    (h : Exchanged dealSource d es d') :
    ∀ columns ∈ columnsOf es, columns = dealSchema.properties := by
  induction h with
  | nil d => nofun
  | cons c rest ih =>
    cases c with
    | schema token table =>
      intro columns hcolumns
      rcases List.mem_cons.mp hcolumns with rfl | hcolumns
      · rfl
      · exact ih columns hcolumns
    | page | tables => exact ih

theorem compaction_keeps_query_deals :
    compact dealGroups ≠ dealGroups ∧ dealVault.shelf = Store.shelf ∧
      dealPreview.filters = dealGroups ∧ dealPreview.properties = none ∧
      dealVault.HasSaved dealGroups (newId (momentOf "a")) laterWorld ∧
      ∃ es', Exchanged dealSource laterWorld.dialogue es'
          (dealService.run (momentOf "") (.execute (newId (momentOf "a"))) laterWorld).2.dialogue ∧
        ∀ query ∈ queriesOf es', query = compile dealGroups dealSchema.properties := by
  obtain ⟨-, -, hqueries⟩ := compaction_keeps_query dealGroups
  obtain ⟨es, es', hes, hes', hqueries⟩ := hqueries Unit dealService dealPreview
    (newId (momentOf "a")) (momentOf "") (momentOf "") newWorld laterWorld rfl rfl rfl
    hasSaved_dealGroups
  -- the preview asks for the columns and for one page
  obtain rfl : es = [⟨.schema "secret_other" "deals", .ok dealSchema⟩,
      ⟨dealService.pageCall dealPreview (compile dealGroups dealSchema.properties),
        .ok firstDeals⟩] :=
    hes.unique (Exchanged.cons_iff.mpr ⟨rfl, .of_answer rfl⟩)
  have hsame : ∀ columns ∈ columnsOf _, ∀ columns' ∈ columnsOf es', columns' = columns :=
    fun columns hcolumns columns' hcolumns' => by
      rw [columns_dealSource hes columns hcolumns, columns_dealSource hes' columns' hcolumns']
  obtain ⟨query, hsent, hexecuted⟩ := hqueries (fun _ => List.cons_ne_nil _ _) hsame
  obtain rfl : compile dealGroups dealSchema.properties = query := (List.cons.inj hsent).1
  exact ⟨by decide, rfl, rfl, rfl, hasSaved_dealGroups, es', hes', hexecuted⟩

end Vault

end ChartFeed
