import ChartFeed.Proofs.Source.Sweep

/-!
# How collections end

* `Exchanged.cons_iff` : the first exchange taken off.
* `Page.cursorAfter` : the cursor at which the page after some pages is asked for.
* `Sweep.Ends` : the exchanges of a collection with what comes of it, in the three ways there are.
* `Session.exchanged_of_collect` : a collection that succeeds asks for a complete list of pages.
* `Session.collect_eq_iff` : a collection comes to what its exchanges end in.
-/

namespace ChartFeed

variable {σ : Type} {source : Source σ} {d d' : Dialogue σ}

/-! ## Exchanges taken apart -/

namespace Exchanged

variable {e : Exchange} {es : List Exchange}

theorem nil_iff : Exchanged source d [] d' ↔ d' = d := by
  constructor
  · intro h
    cases h
    rfl
  · rintro rfl
    exact .nil d'

theorem cons_iff :
    Exchanged source d (e :: es) d' ↔
      (source.answer e.call d.state).1 = e.answer ∧
        Exchanged source (d.after source e.call) es d' := by
  constructor
  · generalize hes : e :: es = all
    intro h
    cases h with
    | nil => cases hes
    | cons c rest =>
      cases hes
      exact ⟨rfl, rest⟩
  · obtain ⟨c, a⟩ := e
    rintro ⟨hanswer, h⟩
    obtain rfl : (source.answer c d.state).1 = a := hanswer
    exact .cons c h

theorem of_answer {c : Call} {a : Except Failure c.Answer}
    (h : (source.answer c d.state).1 = a) : Exchanged source d [⟨c, a⟩] (d.after source c) :=
  cons_iff.mpr ⟨h, .nil _⟩

end Exchanged

/-! ## Pages -/

namespace Page

/-- Every page announces the next one and names it. -/
def AreOpen (pages : List Page) : Prop := ∀ page ∈ pages, page.next?.isSome

/-- The cursor at which the page after some pages is asked for, the first of them being asked for at
a cursor. -/
def cursorAfter : Option String → List Page → Option String
  | cursor, [] => cursor
  | _, page :: pages => cursorAfter page.next? pages

theorem areOpen_cons {page : Page} {pages : List Page} :
    AreOpen (page :: pages) ↔ page.next?.isSome ∧ AreOpen pages := List.forall_mem_cons

theorem not_isComplete_nil : ¬ IsComplete [] := by
  rintro ⟨before, last, h, -⟩
  simp at h

theorem isComplete_cons_iff {page : Page} {pages : List Page} :
    IsComplete (page :: pages) ↔
      page.next? = none ∧ pages = [] ∨ page.next?.isSome ∧ IsComplete pages := by
  constructor
  · rintro ⟨before, last, h, hbefore, hlast⟩
    cases before with
    | nil =>
      cases h
      exact .inl ⟨hlast, rfl⟩
    | cons first before =>
      cases h
      obtain ⟨hfirst, hbefore⟩ := List.forall_mem_cons.mp hbefore
      exact .inr ⟨hfirst, before, last, rfl, hbefore, hlast⟩
  · rintro (⟨h, rfl⟩ | ⟨h, hpages⟩)
    · exact isComplete_singleton h
    · exact isComplete_cons h hpages

end Page

namespace Session

variable {s : Sweep} {limit : Nat} {cursor : Option String} {es : List Exchange}
  {result : Except Stop (List Json)}

/-- The exchanges of a collection of no more pages than a limit, from a cursor on, with what comes of
it. -/
inductive Sweep.Ends (s : Sweep) (limit : Nat) (cursor : Option String) :
    List Exchange → Except Stop (List Json) → Prop where
  /-- All pages are served, up to the one that announces no further one. -/
  | complete (pages : List Page) (hpages : Page.IsComplete pages) (hlimit : pages.length ≤ limit) :
    Ends s limit cursor (s.exchanges cursor pages) (.ok (pages.flatMap Page.rows))
  /-- Some pages are served, and the next one fails. -/
  | failed (pages : List Page) (f : Failure) (hpages : Page.AreOpen pages)
      (hlimit : pages.length < limit) :
    Ends s limit cursor
      (s.exchanges cursor pages ++ [⟨s.call (Page.cursorAfter cursor pages), .error f⟩])
      (.error (.failed f))
  /-- As many pages are served as the limit allows, and a further one is announced. -/
  | unfinished (pages : List Page) (hpages : Page.AreOpen pages) (hlimit : pages.length = limit) :
    Ends s limit cursor (s.exchanges cursor pages) (.error .unfinished)

/-! ## One page -/

/-- What the page at a cursor is answered with. -/
def Sweep.served (s : Sweep) (source : Source σ) (cursor : Option String) (d : Dialogue σ) :
    Except Failure Page :=
  (source.answer (s.call cursor) d.state).1

theorem collectFrom_succ (source : Source σ) (s : Sweep) (limit : Nat) (cursor : Option String)
    (d : Dialogue σ) :
    collectFrom source s (limit + 1) cursor d =
      match s.served source cursor d with
      | .error f => (.error (.failed f), d.after source (s.call cursor))
      | .ok page =>
        match page.next? with
        | none => (.ok page.rows, d.after source (s.call cursor))
        | some next =>
          let (rest, d') := collectFrom source s limit (some next) (d.after source (s.call cursor))
          (rest.map (page.rows ++ ·), d') := by
  have hask : (ask source (s.call cursor) : Session σ Page) d =
      ((s.served source cursor d).mapError .failed, d.after source (s.call cursor)) :=
    ask_eq source (s.call cursor) d
  rw [collectFrom]
  refine (bind_apply (α := Page) (ask source (s.call cursor)) _ d).trans ?_
  rw [hask]
  cases s.served source cursor d with
  | error f => rfl
  | ok page =>
    dsimp only [Except.mapError]
    cases page.next? with
    | none => rfl
    | some next =>
      dsimp only
      rw [bind_apply]
      rcases collectFrom source s limit (some next) (d.after source (s.call cursor)) with
        ⟨_ | rows, d'⟩ <;> rfl

theorem collectFrom_of_next {page : Page} {next : String} (hnext : page.next? = some next)
    (hserved : s.served source cursor d = .ok page)
    (hrest : collectFrom source s limit (some next) (d.after source (s.call cursor)) = (result, d')) :
    collectFrom source s (limit + 1) cursor d = (result.map (page.rows ++ ·), d') := by
  rw [collectFrom_succ, hserved]
  dsimp only
  rw [hnext]
  dsimp only
  rw [hrest]

theorem Sweep.Ends.cons {page : Page} {next : String} (hnext : page.next? = some next)
    (h : s.Ends limit (some next) es result) :
    s.Ends (limit + 1) cursor (⟨s.call cursor, .ok page⟩ :: es) (result.map (page.rows ++ ·)) := by
  have hopen : page.next?.isSome := by rw [hnext]; rfl
  have hexchanges : ∀ pages, s.exchanges cursor (page :: pages) =
      ⟨s.call cursor, .ok page⟩ :: s.exchanges (some next) pages := by
    intro pages
    rw [exchanges, hnext]
  cases h with
  | complete pages hpages hlimit =>
    have hend : s.Ends (limit + 1) cursor _ _ :=
      .complete (page :: pages) (Page.isComplete_cons hopen hpages) (Nat.succ_le_succ hlimit)
    rwa [hexchanges] at hend
  | failed pages f hpages hlimit =>
    have hend : s.Ends (limit + 1) cursor _ _ :=
      .failed (page :: pages) f (Page.areOpen_cons.mpr ⟨hopen, hpages⟩) (Nat.succ_lt_succ hlimit)
    rwa [hexchanges, Page.cursorAfter, hnext] at hend
  | unfinished pages hpages hlimit =>
    have hend : s.Ends (limit + 1) cursor _ _ :=
      .unfinished (page :: pages) (Page.areOpen_cons.mpr ⟨hopen, hpages⟩) (congrArg Nat.succ hlimit)
    rwa [hexchanges] at hend

/-! ## All pages -/

theorem ends_of_collectFrom (h : collectFrom source s limit cursor d = (result, d')) :
    ∃ es, s.Ends limit cursor es result ∧ Exchanged source d es d' := by
  induction limit generalizing d cursor result with
  | zero =>
    cases h
    exact ⟨[], .unfinished [] (List.forall_mem_nil _) rfl, .nil _⟩
  | succ limit ih =>
    rw [collectFrom_succ] at h
    cases hserved : s.served source cursor d with
    | error f =>
      rw [hserved] at h
      cases h
      exact ⟨_, .failed [] f (List.forall_mem_nil _) (Nat.succ_pos limit),
        .of_answer hserved⟩
    | ok page =>
      rw [hserved] at h
      dsimp only at h
      cases hnext : page.next? with
      | none =>
        rw [hnext] at h
        cases h
        refine ⟨_, ?_, .of_answer hserved⟩
        have hend : s.Ends (limit + 1) cursor _ _ :=
          .complete [page] (Page.isComplete_singleton hnext) (Nat.succ_le_succ (Nat.zero_le limit))
        rwa [Sweep.exchanges, Sweep.exchanges, List.flatMap_singleton] at hend
      | some next =>
        rw [hnext] at h
        dsimp only at h
        rcases hrest : collectFrom source s limit (some next) (d.after source (s.call cursor)) with
          ⟨rest, d₁⟩
        rw [hrest] at h
        cases h
        obtain ⟨es, hend, hes⟩ := ih hrest
        exact ⟨_, hend.cons hnext, (Exchanged.of_answer hserved).append hes⟩

/-- **A collection that succeeds asks for a complete list of pages**, the first one without a cursor,
and answers their rows in order. -/
theorem exchanged_of_collect {rows : List Json} (h : collect source s limit d = (.ok rows, d')) :
    ∃ pages, Page.IsComplete pages ∧ Exchanged source d (s.exchanges none pages) d' ∧
      rows = pages.flatMap Page.rows := by
  obtain ⟨es, hend, hes⟩ := ends_of_collectFrom h
  cases hend with
  | complete pages hpages hlimit => exact ⟨pages, hpages, hes, rfl⟩

theorem collectFrom_of_ends (hend : s.Ends limit cursor es result)
    (h : Exchanged source d es d') : collectFrom source s limit cursor d = (result, d') := by
  cases hend with
  | complete pages hpages hlimit =>
    induction pages generalizing limit cursor d with
    | nil => exact absurd hpages Page.not_isComplete_nil
    | cons page pages ih =>
      obtain ⟨limit, rfl⟩ := Nat.exists_eq_add_one_of_ne_zero (Nat.ne_zero_of_lt hlimit)
      obtain ⟨hserved, h⟩ := Exchanged.cons_iff.mp h
      obtain ⟨hnext, rfl⟩ | ⟨hopen, hpages⟩ := Page.isComplete_cons_iff.mp hpages
      · obtain rfl := Exchanged.nil_iff.mp h
        rw [collectFrom_succ, show s.served source cursor d = .ok page from hserved]
        dsimp only
        rw [hnext]
        simp
      · obtain ⟨next, hnext⟩ := Option.isSome_iff_exists.mp hopen
        rw [hnext] at h
        rw [collectFrom_of_next hnext hserved (ih hpages (Nat.le_of_succ_le_succ hlimit) h)]
        rfl
  | failed pages f hpages hlimit =>
    induction pages generalizing limit cursor d with
    | nil =>
      obtain ⟨limit, rfl⟩ := Nat.exists_eq_add_one_of_ne_zero (Nat.ne_zero_of_lt hlimit)
      obtain ⟨hserved, h⟩ := Exchanged.cons_iff.mp h
      obtain rfl := Exchanged.nil_iff.mp h
      rw [collectFrom_succ, show s.served source cursor d = .error f from hserved]
      rfl
    | cons page pages ih =>
      obtain ⟨limit, rfl⟩ := Nat.exists_eq_add_one_of_ne_zero (Nat.ne_zero_of_lt hlimit)
      obtain ⟨hserved, h⟩ := Exchanged.cons_iff.mp h
      obtain ⟨hopen, hpages⟩ := Page.areOpen_cons.mp hpages
      obtain ⟨next, hnext⟩ := Option.isSome_iff_exists.mp hopen
      rw [Page.cursorAfter, hnext] at h
      rw [collectFrom_of_next hnext hserved (ih hpages (Nat.lt_of_succ_lt_succ hlimit) h)]
      rfl
  | unfinished pages hpages hlimit =>
    induction pages generalizing limit cursor d with
    | nil =>
      cases hlimit
      obtain rfl := Exchanged.nil_iff.mp h
      rfl
    | cons page pages ih =>
      cases hlimit
      obtain ⟨hserved, h⟩ := Exchanged.cons_iff.mp h
      obtain ⟨hopen, hpages⟩ := Page.areOpen_cons.mp hpages
      obtain ⟨next, hnext⟩ := Option.isSome_iff_exists.mp hopen
      rw [hnext] at h
      rw [List.length_cons, collectFrom_of_next hnext hserved (ih hpages rfl h)]
      rfl

/-- **A collection comes to what its exchanges end in**, one way or the other. -/
theorem collect_eq_iff :
    collect source s limit d = (result, d') ↔
      ∃ es, s.Ends limit none es result ∧ Exchanged source d es d' := by
  constructor
  · exact ends_of_collectFrom
  · rintro ⟨es, hend, h⟩
    exact collectFrom_of_ends hend h

end Session

end ChartFeed
