import ChartFeed.Proofs.Credential.Aes
import ChartFeed.Proofs.Credential.RoundTrip
import ChartFeed.Proofs.Filter.Compaction
import ChartFeed.Proofs.Snapshot.Run
import ChartFeed.Proofs.Source.Ending

/-!
# A saved chart runs as it was asked for

* `Chart.aggregate_filter_label` : an empty label draws the same chart as none.
* `SaveRequest.drawn` : the chart that a request is for, drawn of rows.
* `Vault.exchanged_of_rows` : what the source is asked for the rows of a record.
* `Vault.execute_saved` : whatever happens between, an execution that succeeds asks for the rows that
  the request was for and draws its chart of them.
-/

namespace ChartFeed

open ChartFeed.Filter (Group Query compile)
open ChartFeed.Filter.Group (allConditionsOf)

/-! ## Charts -/

namespace Chart

theorem Axes.labelOf_filter (a : Axes) (row : Json) :
    { a with label := a.label.filter (!·.isEmpty) }.labelOf row = a.labelOf row := by
  obtain ⟨x, y, label, f⟩ := a
  cases label with
  | none => rfl
  | some field =>
    unfold labelOf
    by_cases h : field.isEmpty = true
    · simp [Option.filter, h, key]
    · simp [Option.filter, h]

theorem Buckets.addRow_filter_label (a : Axes) (row : Json) (bs : Buckets) :
    bs.addRow { a with label := a.label.filter (!·.isEmpty) } row = bs.addRow a row := by
  unfold addRow slot
  rw [Axes.labelOf_filter]
  rfl

theorem aggregate_filter_label (a : Axes) (rows : List Json) :
    aggregate { a with label := a.label.filter (!·.isEmpty) } rows = aggregate a rows := by
  unfold aggregate
  simp only [Buckets.addRow_filter_label]
  rfl

end Chart

/-- The chart that a request is for, saved at a moment and drawn of rows. -/
def SaveRequest.drawn (r : SaveRequest) (fresh : Fresh) (rows : List Json) : Execution where
  id := Vault.newId fresh
  points := Chart.aggregate ⟨r.x, r.y, r.label, .parse r.function⟩ rows
  chartType := r.chartType
  function := r.function
  title := r.title
  isDemo := r.isDemo.getD false
  timestamp := fresh.now
  createdAt := Instant.stamp fresh.now
  rows

namespace Vault

variable {σ : Type}

theorem decrypt_record {secret : String} {cipher : Credential.Cipher}
    (hcipher : cipher = .ofSecret secret) (fresh : Fresh) (r : SaveRequest) :
    Credential.Cipher.decrypt cipher (record cipher fresh r).credential = .ok r.token := by
  subst hcipher
  exact Credential.Cipher.decrypt_encrypt (Credential.Cipher.isInverse_ofSecret secret) _ _

theorem drawn_record (cipher : Credential.Cipher) (fresh : Fresh) (r : SaveRequest)
    (stamp : Option String) (rows : List Json) :
    { record cipher fresh r with lastUpdated := stamp }.drawn rows = r.drawn fresh rows := by
  have hpoints := Chart.aggregate_filter_label ⟨r.x, r.y, r.label, .parse r.function⟩ rows
  unfold Snapshot.drawn SaveRequest.drawn
  rw [← hpoints]
  rfl

/-! ## What a record asks for -/

section Rows

variable {v : Vault σ Store} {s : Snapshot} {token : String} {d d' : Dialogue σ}

theorem exchanged_of_query {query : Option Query} (h : v.query s token d = (.ok query, d')) :
    (s.filters = [] ∧ query = none ∧ d' = d) ∨
      (s.filters ≠ [] ∧ ∃ schema : Schema, query = compile s.filters schema.properties ∧
        Exchanged v.source d [⟨.schema token s.table, .ok schema⟩] d') := by
  unfold Vault.query at h
  cases hfilters : s.filters with
  | nil =>
    rw [hfilters] at h
    cases h
    exact .inl ⟨rfl, rfl, rfl⟩
  | cons g gs =>
    rw [hfilters] at h
    obtain ⟨schema, d₁, hask, h⟩ := bind_eq_ok.mp h
    cases h
    exact .inr ⟨List.cons_ne_nil g gs, schema, rfl, Session.exchanged_of_ask hask⟩

theorem exchanged_of_rows {rows : List Json} (h : v.rows s token d = (.ok rows, d')) :
    ∃ query asked pages,
      (s.filters = [] ∧ query = none ∧ asked = [] ∨
        s.filters ≠ [] ∧ ∃ schema : Schema, query = compile s.filters schema.properties ∧
          asked = [⟨.schema token s.table, .ok schema⟩]) ∧
      Page.IsComplete pages ∧
      Exchanged v.source d
        (asked ++ Session.Sweep.exchanges ⟨token, s.table, query, v.pageSize⟩ none pages) d' ∧
      rows = pages.flatMap Page.rows := by
  obtain ⟨query, d₁, hquery, hcollect⟩ := bind_eq_ok.mp h
  obtain ⟨pages, hcomplete, hpages, hrows⟩ := Session.exchanged_of_collect hcollect
  obtain ⟨hfilters, hnone, rfl⟩ | ⟨hfilters, schema, hcompile, hschema⟩ := exchanged_of_query hquery
  · exact ⟨query, [], pages, .inl ⟨hfilters, hnone, rfl⟩, hcomplete, hpages, hrows⟩
  · exact ⟨query, _, pages, .inr ⟨hfilters, schema, hcompile, rfl⟩, hcomplete,
      hschema.append hpages, hrows⟩

end Rows

/-! ## Executions of saved charts -/

/-- **A saved chart runs as it was asked for.** Between saving a request and an execution that
succeeds, any steps may run that do not make up the same id. The execution asks for the columns of
the request's table exactly when the request has conditions, and then for one complete list of pages
under the query that the request's own filters compile to; its answer is the chart of the request,
drawn of the rows of these pages. -/
theorem execute_saved {secret : String} {v : Vault σ Store} {w w₁ w₂ : World σ Store}
    {fresh fresh' : Fresh} {r : SaveRequest} {receipt : Receipt} {steps : List Step} {e : Execution}
    (hcipher : v.cipher = .ofSecret secret) (hshelf : v.shelf = Store.shelf)
    (hbuilt : w.store.IsBuilt) (hsave : v.save fresh r w = (.ok receipt, w₁))
    (hnew : ∀ step ∈ steps, step.newId? ≠ some receipt.id)
    (hexecute : v.execute fresh' receipt.id (v.run steps w₁) = (.ok e, w₂)) :
    ∃ query asked pages,
      (allConditionsOf (r.filters.getD []) = [] ∧ query = none ∧ asked = [] ∨
        allConditionsOf (r.filters.getD []) ≠ [] ∧ ∃ schema : Schema,
          query = compile (r.filters.getD []) schema.properties ∧
          asked = [⟨.schema r.token r.table, .ok schema⟩]) ∧
      Page.IsComplete pages ∧
      Exchanged v.source (v.run steps w₁).dialogue
        (asked ++ Session.Sweep.exchanges ⟨r.token, r.table, query, v.pageSize⟩ none pages)
        w₂.dialogue ∧
      e = r.drawn fresh (pages.flatMap Page.rows) := by
  obtain ⟨hid, hstill, stamp, hstands⟩ := holds_of_save hshelf hbuilt.isKeyed hsave hnew
  rw [hid] at hexecute
  obtain ⟨stop, d, hfailed⟩ | ⟨s, token, rows, d, hfetch, hdecrypt, hrows, hdone⟩ :=
    execute_cases hshelf hstill fresh' (newId fresh)
  · rw [hfailed] at hexecute
    cases hexecute
  rw [hdone] at hexecute
  cases hexecute
  -- the record that is executed is the one that was saved, but for its stamp
  have hs : some s = some { record v.cipher fresh r with lastUpdated := stamp } := by
    rw [← hstands]
    exact (Store.fetch_eq_ok hfetch).2.symm
  cases hs
  rw [decrypt_record hcipher] at hdecrypt
  cases hdecrypt
  obtain ⟨query, asked, pages, hquery, hcomplete, hpages, rfl⟩ := exchanged_of_rows hrows
  refine ⟨query, asked, pages, ?_, hcomplete, hpages, drawn_record _ fresh r stamp _⟩
  obtain ⟨hfilters, hnone, hasked⟩ | ⟨hfilters, schema, hcompile, hasked⟩ := hquery
  · exact .inl ⟨Filter.compact_eq_nil.mp hfilters, hnone, hasked⟩
  · refine .inr ⟨fun h => hfilters (Filter.compact_eq_nil.mpr h), schema, ?_, hasked⟩
    rw [hcompile]
    exact Filter.compile_compact schema.properties (r.filters.getD [])

/-- A table of deals, served in two pages. -/
def dealSource : Source Unit where
  answer
    | .page _ _ _ _ none, s => (.ok ⟨[.object [("id", .text "a")]], true, some "second"⟩, s)
    | .page _ _ _ _ (some _), s => (.ok ⟨[.object [("id", .text "b")]], false, none⟩, s)
    | .schema .., s => (.ok ⟨"deals", "Deals", [⟨"Stage", .status, none, none⟩]⟩, s)
    | .tables _, s => (.ok [], s)

def dealVault : Vault Unit Store := ⟨.ofSecret "key", Store.shelf, dealSource, 100, 10⟩

/-- The deals that are won; the empty group does not count. -/
def dealGroups : List Group :=
  [⟨"g", [.make "c" "Stage" .equals (some (.one (.text "Won")))], [.make "empty" .or], .and⟩]

def dealRequest : SaveRequest where
  table := "deals"
  token := "ntn_token"
  x := "Stage"
  y := "Amount"
  label := some ""
  chartType := "bar"
  function := "avg"
  title := "Deals"
  isDemo := none
  filters := some dealGroups

/-- A moment at which an id with an ending is made up. -/
def momentOf (ending : String) : Fresh := ⟨0, ending, Vector.replicate 16 0, ""⟩

theorem isId_newId_momentOf : isId (newId (momentOf "a")) = true := by decide

/-- Showing the saved chart, drawing one that is not there and saving another one. -/
def dealSteps : List Step :=
  [.config (newId (momentOf "a")), .execute (momentOf "") "missing",
    .save (momentOf "b") dealRequest]

theorem rows_dealVault (s : Snapshot) (token : String) (d : Dialogue Unit) :
    ∃ rows d', dealVault.rows s token d = (.ok rows, d') := by
  have hquery : ∃ query d₁, dealVault.query s token d = (.ok query, d₁) := by
    unfold Vault.query
    cases s.filters <;> exact ⟨_, _, rfl⟩
  obtain ⟨query, d₁, hquery⟩ := hquery
  have hcollect : ∃ rows d', Session.collect dealSource ⟨token, s.table, query, 100⟩ 10 d₁ =
      (.ok rows, d') := ⟨_, _, rfl⟩
  obtain ⟨rows, d', hcollect⟩ := hcollect
  exact ⟨rows, d', bind_eq_ok.mpr ⟨query, d₁, hquery, hcollect⟩⟩

theorem execute_dealVault {w : World Unit Store} (hkeyed : w.store.IsKeyed)
    (hholds : w.store.Holds (record dealVault.cipher (momentOf "a") dealRequest)) :
    ∃ e w', dealVault.execute (momentOf "") (newId (momentOf "a")) w = (.ok e, w') := by
  obtain ⟨stamp, hstands⟩ := hholds
  have hfetch := Store.fetch_of_find? isId_newId_momentOf hstands (Nat.le_refl 1)
  have hdecrypt := decrypt_record (show dealVault.cipher = .ofSecret "key" from rfl)
    (momentOf "a") dealRequest
  obtain ⟨rows, d, hrows⟩ := rows_dealVault
    { record dealVault.cipher (momentOf "a") dealRequest with lastUpdated := stamp }
    dealRequest.token w.dialogue
  exact ⟨_, _, execute_of_stages rfl hkeyed hfetch hdecrypt hrows⟩

theorem execute_saved_deals :
    ∃ w₁ e w₂,
      dealVault.save (momentOf "a") dealRequest ⟨⟨(), []⟩, .empty⟩ =
        (.ok ⟨newId (momentOf "a"), 0, .dynamic⟩, w₁) ∧
      (∀ step ∈ dealSteps, step.newId? ≠ some (newId (momentOf "a"))) ∧
      dealVault.execute (momentOf "") (newId (momentOf "a")) (dealVault.run dealSteps w₁) =
        (.ok e, w₂) ∧
      ∃ (schema : Schema) (pages : List Page), Page.IsComplete pages ∧
        Exchanged dealSource (dealVault.run dealSteps w₁).dialogue
          (⟨.schema "ntn_token" "deals", .ok schema⟩ :: Session.Sweep.exchanges
            ⟨"ntn_token", "deals", compile dealGroups schema.properties, 100⟩ none pages)
          w₂.dialogue ∧
        e = dealRequest.drawn (momentOf "a") (pages.flatMap Page.rows) := by
  have hsave : dealVault.save (momentOf "a") dealRequest ⟨⟨(), []⟩, .empty⟩ =
      (.ok ⟨newId (momentOf "a"), 0, .dynamic⟩,
        ⟨⟨(), []⟩, Store.empty.insert (record dealVault.cipher (momentOf "a") dealRequest)⟩) := by
    rw [save_eq rfl, show checkRequest dealRequest = .ok () from rfl,
      checkId_eq_ok.mpr isId_newId_momentOf]
    rfl
  have hnew : ∀ step ∈ dealSteps, step.newId? ≠ some (newId (momentOf "a")) := by decide
  have hheld := holds_of_save rfl Store.isKeyed_empty hsave hnew
  obtain ⟨e, w₂, hexecute⟩ := execute_dealVault hheld.2.1 hheld.2.2
  have hcipher : dealVault.cipher = .ofSecret "key" := rfl
  obtain ⟨query, asked, pages, hquery, hcomplete, hpages, he⟩ :=
    execute_saved hcipher rfl .empty hsave hnew hexecute
  obtain ⟨hbare, -⟩ | ⟨-, schema, rfl, rfl⟩ := hquery
  · exact absurd hbare (by decide)
  · exact ⟨_, e, w₂, hsave, hnew, hexecute, schema, pages, hcomplete, hpages, he⟩

end Vault

end ChartFeed
