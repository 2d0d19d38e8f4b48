import ChartFeed.Proofs.Source.Ending

/-!
# Collections follow the cursors

A collection asks for its first page without a cursor and for every later one at the cursor of the
page before it, as long as the page at hand announces a further one and names it.

* `Source.RunsOut` : a source that serves no more than so many pages; `Source.scripted` is one.
* `Sweep.Ends.of_le` : a collection that ends under a limit ends alike under a greater one.
* `Session.collect_follows_cursors` : what is asked for, when it goes on, and what comes of it.
-/

namespace ChartFeed

open Session (Sweep)

variable {σ : Type} {source : Source σ} {d d' : Dialogue σ}

/-! ## Sources that run out -/

namespace Source

/-- From a state on, a source serves no more than so many pages; whatever is asked for then, it
fails. -/
def RunsOut (source : Source σ) : Nat → σ → Prop
  | 0, state => ∀ (s : Sweep) cursor (page : Page), (source.answer (s.call cursor) state).1 ≠ .ok page
  | n + 1, state => ∀ (s : Sweep) cursor (page : Page),
      (source.answer (s.call cursor) state).1 = .ok page →
        source.RunsOut n (source.answer (s.call cursor) state).2

/-- A script of pages and failures, played in order whatever is asked for; past its end, every
request fails. -/
def scripted (past : Failure) : Source (List (Except Failure Page)) where
  answer
    | .page .., [] => (.error past, [])
    | .page .., reply :: script => (reply, script)
    | .schema .., script => (.error past, script)
    | .tables _, script => (.error past, script)

theorem runsOut_scripted (past : Failure) (script : List (Except Failure Page)) :
    (scripted past).RunsOut script.length script := by
  induction script with
  | nil =>
    intro s cursor page h
    cases h
  | cons reply script ih =>
    intro s cursor page _
    exact ih

theorem RunsOut.length_le {n : Nat} {s : Sweep} {cursor : Option String} {pages : List Page}
    (hout : source.RunsOut n d.state) (h : Exchanged source d (s.exchanges cursor pages) d') :
    pages.length ≤ n := by
  induction pages generalizing n cursor d with
  | nil => exact Nat.zero_le n
  | cons page pages ih =>
    obtain ⟨hserved, hrest⟩ := Exchanged.cons_iff.mp h
    cases n with
    | zero => exact absurd hserved (hout s cursor page)
    | succ n => exact Nat.succ_le_succ (ih (hout s cursor page hserved) hrest)

end Source

namespace Session

variable {s : Sweep} {limit : Nat} {cursor : Option String} {es : List Exchange}
  {result : Except Stop (List Json)}

@[simp] theorem Sweep.length_exchanges (s : Sweep) (cursor : Option String) (pages : List Page) :
    (s.exchanges cursor pages).length = pages.length := by
  induction pages generalizing cursor with
  | nil => rfl
  | cons page pages ih => simp [Sweep.exchanges, ih]

/-! ## Limits -/

theorem Sweep.Ends.of_le {more : Nat} (h : s.Ends limit cursor es result)
    (hresult : result ≠ .error .unfinished) (hle : limit ≤ more) : s.Ends more cursor es result := by
  cases h with
  | complete pages hpages hlimit => exact .complete pages hpages (by omega)
  | failed pages f hpages hlimit => exact .failed pages f hpages (by omega)
  | unfinished pages hpages hlimit => exact absurd rfl hresult

theorem collect_of_le {more : Nat} (hresult : (collect source s limit d).1 ≠ .error .unfinished)
    (hle : limit ≤ more) : collect source s more d = collect source s limit d := by
  obtain ⟨es, hend, hes⟩ := collect_eq_iff.mp (Eq.refl (collect source s limit d))
  exact collect_eq_iff.mpr ⟨es, hend.of_le hresult hle, hes⟩

/-! ## Each way to end -/

theorem collect_eq_ok_iff {rows : List Json} :
    collect source s limit d = (.ok rows, d') ↔
      ∃ pages, Page.IsComplete pages ∧ pages.length ≤ limit ∧
        Exchanged source d (s.exchanges none pages) d' ∧ rows = pages.flatMap Page.rows := by
  rw [collect_eq_iff]
  constructor
  · rintro ⟨es, hend, hes⟩
    cases hend with
    | complete pages hpages hlimit => exact ⟨pages, hpages, hlimit, hes, rfl⟩
  · rintro ⟨pages, hpages, hlimit, hes, rfl⟩
    exact ⟨_, .complete pages hpages hlimit, hes⟩

theorem collect_eq_failed_iff {f : Failure} :
    collect source s limit d = (.error (.failed f), d') ↔
      ∃ pages, Page.AreOpen pages ∧ pages.length < limit ∧
        Exchanged source d
          (s.exchanges none pages ++ [⟨s.call (Page.cursorAfter none pages), .error f⟩]) d' := by
  rw [collect_eq_iff]
  constructor
  · rintro ⟨es, hend, hes⟩
    cases hend with
    | failed pages f hpages hlimit => exact ⟨pages, hpages, hlimit, hes⟩
  · rintro ⟨pages, hpages, hlimit, hes⟩
    exact ⟨_, .failed pages f hpages hlimit, hes⟩

theorem collect_eq_unfinished_iff :
    collect source s limit d = (.error .unfinished, d') ↔
      ∃ pages, Page.AreOpen pages ∧ pages.length = limit ∧
        Exchanged source d (s.exchanges none pages) d' := by
  rw [collect_eq_iff]
  constructor
  · rintro ⟨es, hend, hes⟩
    cases hend with
    | unfinished pages hpages hlimit => exact ⟨pages, hpages, hlimit, hes⟩
  · rintro ⟨pages, hpages, hlimit, hes⟩
    exact ⟨_, .unfinished pages hpages hlimit, hes⟩

theorem length_calls_of_ends (hend : s.Ends limit cursor es result) (h : Exchanged source d es d') :
    d'.calls.length ≤ d.calls.length + limit := by
  have hcalls : d'.calls.length = d.calls.length + es.length := by simp [h.calls]
  cases hend with
  | complete pages hpages hlimit =>
    simp at hcalls
    omega
  | failed pages f hpages hlimit =>
    simp at hcalls
    omega
  | unfinished pages hpages hlimit =>
    simp at hcalls
    omega

/-- **A collection follows the cursors.** It comes to rows exactly when it is served a complete list
of pages, and these are the rows of the pages in order. It comes to a failure exactly when some pages
that each name a next one are served and the call for the page after them fails, which is the last
call. As long as all pages so far name a next one it goes on; once it has ended, no greater limit
changes anything. Where no more than `n` pages are served, it ends after at most `n + 1` calls. -/
theorem collect_follows_cursors (source : Source σ) (s : Sweep) (d : Dialogue σ) :
    (∀ limit rows d', collect source s limit d = (.ok rows, d') ↔
      ∃ pages, Page.IsComplete pages ∧ pages.length ≤ limit ∧
        Exchanged source d (s.exchanges none pages) d' ∧ rows = pages.flatMap Page.rows) ∧
    (∀ limit f d', collect source s limit d = (.error (.failed f), d') ↔
      ∃ pages, Page.AreOpen pages ∧ pages.length < limit ∧
        Exchanged source d
          (s.exchanges none pages ++ [⟨s.call (Page.cursorAfter none pages), .error f⟩]) d' ∧
        d'.calls.length = d.calls.length + pages.length + 1) ∧
    (∀ limit d', collect source s limit d = (.error .unfinished, d') ↔
      ∃ pages, Page.AreOpen pages ∧ pages.length = limit ∧
        Exchanged source d (s.exchanges none pages) d') ∧
    (∀ limit more, limit ≤ more → (collect source s limit d).1 ≠ .error .unfinished →
      collect source s more d = collect source s limit d) ∧
    ∀ n limit, source.RunsOut n d.state → n < limit →
      (collect source s limit d).1 ≠ .error .unfinished ∧
        (collect source s limit d).2.calls.length ≤ d.calls.length + n + 1 := by
  refine ⟨fun limit rows d' => collect_eq_ok_iff, ?_, fun limit d' => collect_eq_unfinished_iff,
    fun limit more hle hresult => collect_of_le hresult hle, ?_⟩
  · intro limit f d'
    rw [collect_eq_failed_iff]
    constructor
    · rintro ⟨pages, hopen, hlimit, hes⟩
      refine ⟨pages, hopen, hlimit, hes, ?_⟩
      simp [hes.calls]
      omega
    · rintro ⟨pages, hopen, hlimit, hes, -⟩
      exact ⟨pages, hopen, hlimit, hes⟩
  · intro n limit hout hlt
    -- under the limit `n + 1` it ends, and with it under any greater one
    have hends : (collect source s (n + 1) d).1 ≠ .error .unfinished := by
      intro h
      obtain ⟨pages, -, hlength, hes⟩ := collect_eq_unfinished_iff.mp (Prod.ext h rfl)
      have := hout.length_le hes
      omega
    have hsame := collect_of_le hends (Nat.succ_le_of_lt hlt)
    obtain ⟨es, hend, hes⟩ := collect_eq_iff.mp (Eq.refl (collect source s (n + 1) d))
    have hcalls := length_calls_of_ends hend hes
    rw [hsame]
    exact ⟨hends, hcalls⟩

/-- Two pages that each name a next one; the second name leads past the end. -/
def endlessDeals : List (Except Failure Page) :=
  [.ok ⟨[.object [("id", .text "a")]], true, some "second"⟩,
    .ok ⟨[.object [("id", .text "b")]], true, some "third"⟩]

theorem collect_follows_cursors_endlessDeals :
    let source := Source.scripted (.remote 400 "script exhausted")
    let collected := collect source ⟨"ntn_token", "deals", none, 100⟩ 5 ⟨endlessDeals, []⟩
    source.RunsOut 2 endlessDeals ∧ 2 < 5 ∧
      collected.1 ≠ .error .unfinished ∧ collected.2.calls.length ≤ 3 := by
  have hout := Source.runsOut_scripted (.remote 400 "script exhausted") endlessDeals
  have hfollows := collect_follows_cursors (Source.scripted (.remote 400 "script exhausted"))
    ⟨"ntn_token", "deals", none, 100⟩ ⟨endlessDeals, []⟩
  exact ⟨hout, by decide, hfollows.2.2.2.2 2 5 hout (by decide)⟩

end Session

end ChartFeed
