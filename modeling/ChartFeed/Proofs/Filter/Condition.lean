import ChartFeed.Filter.Compile

/-!
# Accepted conditions

Everything that the proofs know about `Condition.compile`.

* `Condition.compile_of_parse?`, `Condition.compileAllowed_between` : what comes of a condition with
  a name and an operator, and of a range.
* `Condition.Shape` : the shapes that the query of an accepted condition has.
* `Condition.Accepted`, `Condition.accepted_of_compile` : what has been checked of a condition when
  it has a query, and the shape of the query.
-/

namespace ChartFeed.Filter

namespace Condition

theorem compile_of_parse? {properties : List Property} {c : Condition} {o : Operator}
    (hnamed : Text.trim c.property ≠ "") (ho : Operator.parse? c.operator = some o) :
    c.compile properties =
      if (resolve properties (Text.trim c.property)).family.allows o then
        c.compileAllowed (Text.trim c.property) (resolve properties (Text.trim c.property)) o
      else .error (.operatorNotAllowed o (resolve properties (Text.trim c.property)).family) := by
  have hraw : Text.trim c.operator ≠ "" := by
    intro hempty
    rw [Operator.parse?, hempty, show Operator.ofName? "" = none by decide] at ho
    cases ho
  rw [Operator.parse?] at ho
  simp [compile, hnamed, hraw, ho]

theorem compileAllowed_between (c : Condition) (property : String) (r : Resolved) :
    c.compileAllowed property r .between =
      match c.bounds with
      | .error reason => .error reason
      | .ok (start, stop) =>
        if isInverted start stop then .error .invertedDateRange
        else .ok (.all [leafWith property r.key .onOrAfter start,
          leafWith property r.key .onOrBefore stop]) := by
  unfold compileAllowed
  simp only [Operator.isFlag, Operator.isRelative, Bool.false_eq_true, if_false, if_true]
  cases c.bounds with
  | error reason => rfl
  | ok bounds =>
    obtain ⟨start, stop⟩ := bounds
    cases h : isInverted start stop <;> simp [h, bind, Except.bind] <;> rfl

/-- The shapes that the query of an accepted condition has, given the name and the resolution of its
property and its operator. -/
inductive Shape (c : Condition) (property : String) (r : Resolved) (o : Operator) : Query → Prop
  | flag (ho : o.isFlag = true) : Shape c property r o (.leaf ⟨property, r.key, o, .flag⟩)
  | span (ho : o.isRelative = true) : Shape c property r o (.leaf ⟨property, r.key, o, .span⟩)
  | range {start stop : Scalar} (ho : o = .between) (hvalue : c.value = some (.one start))
      (hend : c.endValue = some stop) :
      Shape c property r o (.all [leafWith property r.key .onOrAfter start,
        leafWith property r.key .onOrBefore stop])
  | plain {v : Scalar} (ho : o.takesValue = true) (hrange : o ≠ .between)
      (hvalue : c.value = some (.one v) ∨
        c.value = some (.list [v]) ∧ spread? r.family o = none) :
      Shape c property r o (leafWith property r.key o v)
  | spread {vs : List Scalar} {each : Operator} {k : Connective} {q : Query}
      (hvalue : c.value = some (.list vs)) (hspread : spread? r.family o = some (each, k))
      (hjoin : Query.join k (vs.map (leafWith property r.key each)) = some q) :
      Shape c property r o q

/-- What has been checked of a condition with a query. -/
structure Accepted (properties : List Property) (c : Condition) (o : Operator) (q : Query) :
    Prop where
  operator : Operator.ofName? (Text.trim c.operator) = some o
  named : Text.trim c.property ≠ ""
  allowed : (resolve properties (Text.trim c.property)).family.allows o = true
  shape : c.Shape (Text.trim c.property) (resolve properties (Text.trim c.property)) o q

theorem bounds_eq_ok {c : Condition} {start stop : Scalar} (h : c.bounds = .ok (start, stop)) :
    c.value = some (.one start) ∧ c.endValue = some stop := by
  unfold bounds at h
  split at h
  · rename_i a b hvalue hend
    split at h
    · cases h
    · cases h
      exact ⟨hvalue, hend⟩
  · cases h

theorem shape_of_compileList {c : Condition} {property : String} {r : Resolved} {o : Operator}
    {vs : List Scalar} {q : Query} (ho : o.takesValue = true) (hrange : o ≠ .between)
    (hvalue : c.value = some (.list vs)) (h : compileList property r o vs = .ok q) :
    c.Shape property r o q := by
  cases hspread : spread? r.family o with
  | none =>
    rcases vs with _ | ⟨v, _ | ⟨w, vs⟩⟩
    · cases h
    · rw [compileList, hspread] at h
      cases h
      exact .plain ho hrange (Or.inr ⟨hvalue, hspread⟩)
    · simp only [compileList, hspread] at h
      cases h
  | some s =>
    obtain ⟨each, k⟩ := s
    rcases vs with _ | ⟨v, _ | ⟨w, vs⟩⟩
    · cases h
    · rw [compileList, hspread] at h
      cases h
      exact .spread hvalue hspread rfl
    · simp only [compileList, hspread] at h
      cases h
      exact .spread hvalue hspread rfl

theorem shape_of_compileAllowed {c : Condition} {property : String} {r : Resolved} {o : Operator}
    {q : Query} (h : c.compileAllowed property r o = .ok q) : c.Shape property r o q := by
  unfold compileAllowed at h
  by_cases hflag : o.isFlag = true
  · rw [if_pos hflag] at h
    cases h
    exact .flag hflag
  rw [if_neg hflag] at h
  by_cases hspan : o.isRelative = true
  · rw [if_pos hspan] at h
    cases h
    exact .span hspan
  rw [if_neg hspan] at h
  by_cases hrange : o = .between
  · rw [if_pos hrange] at h
    cases hb : c.bounds with
    | error e =>
      rw [hb] at h
      cases h
    | ok bounds =>
      obtain ⟨start, stop⟩ := bounds
      obtain ⟨hvalue, hend⟩ := bounds_eq_ok hb
      rw [hb] at h
      by_cases hinv : isInverted start stop = true
      · simp [hinv, bind, Except.bind, throw, throwThe, MonadExceptOf.throw] at h
      · simp only [hinv, bind, Except.bind, pure, Except.pure] at h
        cases h
        exact .range hrange hvalue hend
  rw [if_neg hrange] at h
  have ho : o.takesValue = true := by simp [Operator.takesValue, hflag, hspan]
  split at h
  · cases h
  · rename_i v hvalue
    cases h
    exact .plain ho hrange (Or.inl hvalue)
  · rename_i vs hvalue
    exact shape_of_compileList ho hrange hvalue h

/-- **What an accepted condition looks like**, and the query it is given. -/
theorem accepted_of_compile {properties : List Property} {c : Condition} {q : Query}
    (h : c.compile properties = .ok q) : ∃ o, c.Accepted properties o q := by
  unfold compile at h
  dsimp only at h
  split at h
  · cases h
  rename_i hnamed
  split at h
  · cases h
  split at h
  · cases h
  rename_i o ho
  split at h
  · rename_i hallowed
    refine ⟨o, ho, fun hempty => hnamed ?_, hallowed, shape_of_compileAllowed h⟩
    rw [hempty]
    rfl
  · cases h

end Condition

end ChartFeed.Filter
