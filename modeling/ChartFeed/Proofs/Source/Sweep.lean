import ChartFeed.Source.Session

/-!
# What a session asks and is answered

* `bind_eq_ok` : a computation in two steps succeeds exactly when both do, one after the other.
* `Exchange`, `Exchanged` : a call with its answer, and dialogues that go on by exchanges.
* `Page.IsComplete` : pages each of which announces the next one, up to the last.
* `Sweep.exchanges` : the exchanges of a collection that is served pages.
-/

namespace ChartFeed

/-! ## Steps one after the other -/

section Steps

variable {ε S α β : Type} {x : ExceptT ε (StateM S) α} {f : α → ExceptT ε (StateM S) β} {s s' : S}

theorem bind_apply (x : ExceptT ε (StateM S) α) (f : α → ExceptT ε (StateM S) β) (s : S) :
    (x >>= f) s = match x s with
      | (.ok a, s) => f a s
      | (.error e, s) => (.error e, s) := by
  show (match x s with
    | (a, s) => ExceptT.bindCont f a s : Except ε β × S) = _
  rcases x s with ⟨_ | a, s⟩ <;> rfl

theorem bind_eq_ok {b : β} :
    (x >>= f) s = (.ok b, s') ↔ ∃ a s₁, x s = (.ok a, s₁) ∧ f a s₁ = (.ok b, s') := by
  rw [bind_apply]
  rcases x s with ⟨e | a, s₁⟩
  · constructor
    · intro h
      cases h
    · rintro ⟨_, _, h, -⟩
      cases h
  · constructor
    · intro h
      exact ⟨a, s₁, rfl, h⟩
    · rintro ⟨_, _, h, hf⟩
      cases h
      exact hf

end Steps

/-! ## Exchanges -/

/-- A call with what it was answered. -/
structure Exchange where
  call : Call
  answer : Except Failure call.Answer

variable {σ : Type} (source : Source σ)

def Dialogue.after (c : Call) (d : Dialogue σ) : Dialogue σ :=
  ⟨(source.answer c d.state).2, d.calls ++ [c]⟩

/-- A dialogue goes on by exchanges: every call is answered out of the state that the call before it
left, and is recorded. -/
inductive Exchanged : Dialogue σ → List Exchange → Dialogue σ → Prop where
  | nil (d : Dialogue σ) : Exchanged d [] d
  | cons {d d' : Dialogue σ} {es : List Exchange} (c : Call)
      (rest : Exchanged (d.after source c) es d') :
      Exchanged d (⟨c, (source.answer c d.state).1⟩ :: es) d'

namespace Exchanged

variable {source} {d d' d'' : Dialogue σ} {es es' : List Exchange}

theorem calls (h : Exchanged source d es d') : d'.calls = d.calls ++ es.map Exchange.call := by
  induction h with
  | nil d => rw [List.map_nil, List.append_nil]
  | cons c rest ih => rw [ih, Dialogue.after, List.append_assoc, List.map_cons, List.singleton_append]

theorem append (h : Exchanged source d es d') (h' : Exchanged source d' es' d'') :
    Exchanged source d (es ++ es') d'' := by
  induction h with
  | nil d => exact h'
  | cons c rest ih => exact .cons c (ih h')

end Exchanged

namespace Session

theorem ask_eq (c : Call) (d : Dialogue σ) :
    ask source c d = ((source.answer c d.state).1.mapError .failed, d.after source c) := by
  unfold ask Dialogue.after
  dsimp only
  rcases (source.answer c d.state).1 with f | a <;> rfl

variable {source} {d d' : Dialogue σ}

theorem exchanged_of_ask {c : Call} {a : c.Answer} (h : ask source c d = (.ok a, d')) :
    Exchanged source d [⟨c, .ok a⟩] d' := by
  have step : Exchanged source d [⟨c, (source.answer c d.state).1⟩] (d.after source c) :=
    .cons c (.nil _)
  rw [ask_eq] at h
  cases hanswer : (source.answer c d.state).1 with
  | error f =>
    rw [hanswer] at h
    cases h
  | ok b =>
    rw [hanswer] at h step
    cases h
    exact step

end Session

/-! ## Pages -/

/-- Every page announces the next one and names it, but the last, which does not. -/
def Page.IsComplete (pages : List Page) : Prop :=
  ∃ before last, pages = before ++ [last] ∧ (∀ page ∈ before, page.next?.isSome) ∧ last.next? = none

namespace Page

theorem isComplete_singleton {page : Page} (h : page.next? = none) : IsComplete [page] := by
  refine ⟨[], page, rfl, ?_, h⟩
  intro page hpage
  cases hpage

theorem isComplete_cons {page : Page} {pages : List Page} (h : page.next?.isSome)
    (hpages : IsComplete pages) : IsComplete (page :: pages) := by
  obtain ⟨before, last, rfl, hbefore, hlast⟩ := hpages
  refine ⟨page :: before, last, rfl, ?_, hlast⟩
  intro p hp
  rcases List.mem_cons.mp hp with rfl | hp
  · exact h
  · exact hbefore p hp

end Page

namespace Session

/-- The exchanges of a collection that is served pages: the first one is asked for at a cursor, and
every other one at the cursor of the page before it. -/
def Sweep.exchanges (s : Sweep) : Option String → List Page → List Exchange
  | _, [] => []
  | cursor, page :: pages => ⟨s.call cursor, .ok page⟩ :: s.exchanges page.next? pages

end Session

end ChartFeed
