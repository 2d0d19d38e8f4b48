import ChartFeed.Proofs.Source.Ending

/-!
# Tokens in talks with a source

* `Call.blind`, `Exchange.blind` : a call and an exchange as one who cannot see tokens sees them.
* `Source.AnswersAlike` : two states of a source from which calls are answered alike as long as they
  differ in tokens only.
* `Source.IgnoresTokens` : the answers of a source do not depend on tokens.
* `Dialogue.Alike` : two dialogues that look the same so far and are answered alike from now on.
* `Session.alike_collect` : collections that differ in their tokens have one result.
-/

namespace ChartFeed

variable {σ : Type}

/-! ## Calls without tokens -/

/-- A call as it is seen without its token. -/
def Call.blind : Call → Call
  | .page _ table query size cursor => .page "" table query size cursor
  | .schema _ table => .schema "" table
  | .tables _ => .tables ""

/-- A call with its answer, without its token. -/
def Exchange.blind : Exchange → Exchange
  | ⟨.page _ table query size cursor, answer⟩ => ⟨.page "" table query size cursor, answer⟩
  | ⟨.schema _ table, answer⟩ => ⟨.schema "" table, answer⟩
  | ⟨.tables _, answer⟩ => ⟨.tables "", answer⟩

theorem Exchange.answer_eq {c : Call} {a b : Except Failure c.Answer}
    (h : (⟨c, a⟩ : Exchange) = ⟨c, b⟩) : a = b := eq_of_heq (Exchange.mk.inj h).2

namespace Source

/-- The exchanges of calls with a source, from a state on. -/
def exchanges (source : Source σ) : σ → List Call → List Exchange
  | _, [] => []
  | s, c :: cs => ⟨c, (source.answer c s).1⟩ :: source.exchanges (source.answer c s).2 cs

/-- However a source is called from two states, it answers the same as long as the calls differ in
tokens only. -/
def AnswersAlike (source : Source σ) (s s' : σ) : Prop :=
  ∀ cs cs' : List Call, cs.map Call.blind = cs'.map Call.blind →
    (source.exchanges s cs).map Exchange.blind = (source.exchanges s' cs').map Exchange.blind

/-- The answers of a source, from a state on, do not depend on the tokens of the calls. -/
def IgnoresTokens (source : Source σ) (start : σ) : Prop := source.AnswersAlike start start

variable {source : Source σ} {s s' : σ} {c c' : Call}

theorem AnswersAlike.answer (h : source.AnswersAlike s s') (hc : c.blind = c'.blind) :
    Exchange.blind ⟨c, (source.answer c s).1⟩ = Exchange.blind ⟨c', (source.answer c' s').1⟩ := by
  have hone := h [c] [c'] (by rw [List.map_singleton, List.map_singleton, hc])
  exact (List.cons.inj hone).1

theorem AnswersAlike.next (h : source.AnswersAlike s s') (hc : c.blind = c'.blind) :
    source.AnswersAlike (source.answer c s).2 (source.answer c' s').2 := by
  intro cs cs' hcs
  have hall := h (c :: cs) (c' :: cs') (by rw [List.map_cons, List.map_cons, hc, hcs])
  exact (List.cons.inj hall).2

end Source

/-! ## Dialogues -/

/-- Two dialogues look the same without tokens, and go on alike. -/
structure Dialogue.Alike (source : Source σ) (d d' : Dialogue σ) : Prop where
  calls : d.calls.map Call.blind = d'.calls.map Call.blind
  answers : source.AnswersAlike d.state d'.state

theorem Dialogue.Alike.after {source : Source σ} {d d' : Dialogue σ} {c c' : Call}
    (h : Alike source d d') (hc : c.blind = c'.blind) :
    Alike source (d.after source c) (d'.after source c') := by
  refine ⟨?_, h.answers.next hc⟩
  rw [Dialogue.after, Dialogue.after, List.map_append, List.map_append, h.calls,
    List.map_singleton, List.map_singleton, hc]

namespace Session

variable {source : Source σ} {d d' : Dialogue σ}

theorem columns_alike (hd : d.Alike source d') (token token' table : String) :
    ((source.answer (.schema token table) d.state).1 : Except Failure Schema) =
      (source.answer (.schema token' table) d'.state).1 :=
  have hanswer : Exchange.blind ⟨.schema token table, _⟩ = Exchange.blind ⟨.schema token' table, _⟩ :=
    hd.answers.answer rfl
  Exchange.answer_eq (c := .schema "" table) hanswer

/-- What is collected, but for the token that it is collected with. -/
def Sweep.blind (s : Sweep) : Sweep := { s with token := "" }

variable {s s' : Sweep}

theorem Sweep.blind_call (h : s.blind = s'.blind) (cursor : Option String) :
    (s.call cursor).blind = (s'.call cursor).blind := by
  obtain ⟨token, table, query, size⟩ := s
  obtain ⟨token', table', query', size'⟩ := s'
  cases h
  rfl

theorem Sweep.served_alike (h : s.blind = s'.blind) (hd : d.Alike source d')
    (cursor : Option String) : s.served source cursor d = s'.served source cursor d' := by
  have hanswer := hd.answers.answer (Sweep.blind_call h cursor)
  obtain ⟨token, table, query, size⟩ := s
  obtain ⟨token', table', query', size'⟩ := s'
  cases h
  exact Exchange.answer_eq (c := .page "" table query size cursor) hanswer

theorem alike_collectFrom (h : s.blind = s'.blind) (hd : d.Alike source d') (limit : Nat)
    (cursor : Option String) :
    (collectFrom source s limit cursor d).1 = (collectFrom source s' limit cursor d').1 ∧
      (collectFrom source s limit cursor d).2.Alike source
        (collectFrom source s' limit cursor d').2 := by
  induction limit generalizing cursor d d' with
  | zero => exact ⟨rfl, hd⟩
  | succ limit ih =>
    have hnext := hd.after (Sweep.blind_call h cursor)
    rw [collectFrom_succ, collectFrom_succ, Sweep.served_alike h hd]
    cases s'.served source cursor d' with
    | error f => exact ⟨rfl, hnext⟩
    | ok page =>
      dsimp only
      cases page.next? with
      | none => exact ⟨rfl, hnext⟩
      | some next =>
        obtain ⟨hrows, hdialogue⟩ := ih hnext (some next)
        exact ⟨congrArg (Except.map (page.rows ++ ·)) hrows, hdialogue⟩

/-- **Collections that differ in their tokens have one result**, and leave dialogues that go on
alike. -/
theorem alike_collect (h : s.blind = s'.blind) (hd : d.Alike source d') (limit : Nat) :
    (collect source s limit d).1 = (collect source s' limit d').1 ∧
      (collect source s limit d).2.Alike source (collect source s' limit d').2 :=
  alike_collectFrom h hd limit none

end Session

end ChartFeed
