import ChartFeed.Filter.Group

/-!
# Edits of a filter tree

Every edit takes a list of groups and answers a new one. It addresses the first group of an id in
the order of the text: a group comes before those below it, and those before its next sibling.

* `update` : the addressed group is replaced by its edited version.
* `addCondition`, `removeCondition`, `updateCondition`, `addSubgroup`, `setConnective` : edits of
  it.
* `removeGroup` : the addressed group is cut out with all below it.
* `compact` : every group without a condition at or below it is dropped.
-/

namespace ChartFeed.Filter

/-- Why an edit is refused. -/
inductive EditError where
  | groupNotFound (id : String)
  | conditionNotFound (id : String)
  deriving DecidableEq, Repr

namespace EditError

def message : EditError → String
  | .groupNotFound id => "filter group '" ++ id ++ "' not found"
  | .conditionNotFound id => "condition '" ++ id ++ "' not found"

end EditError

/-- An edit of one group. -/
abbrev GroupEdit := Group → Except EditError Group

/-! ## The addressed group -/

mutual

/-- The group with the first group of the id in it edited; none if there is no such group. -/
def Group.updateFirst? (id : String) (edit : GroupEdit) :
    Group → Option (Except EditError Group)
  | ⟨gid, conditions, subgroups, connective⟩ =>
    if gid = id then some (edit ⟨gid, conditions, subgroups, connective⟩)
    else
      (updateFirstIn? id edit subgroups).map fun edited =>
        edited.map fun subgroups => ⟨gid, conditions, subgroups, connective⟩
termination_by structural g => g

/-- The groups with the first group of the id in them edited; none if there is no such group. -/
def updateFirstIn? (id : String) (edit : GroupEdit) :
    List Group → Option (Except EditError (List Group))
  | [] => none
  | g :: gs =>
    match g.updateFirst? id edit with
    | some edited => some (edited.map (· :: gs))
    | none => (updateFirstIn? id edit gs).map fun edited => edited.map (g :: ·)
termination_by structural gs => gs

end

def update (groups : List Group) (id : String) (edit : GroupEdit) :
    Except EditError (List Group) :=
  (updateFirstIn? id edit groups).getD (.error (.groupNotFound id))

def addCondition (groups : List Group) (id : String) (c : Condition) :
    Except EditError (List Group) :=
  update groups id fun g => .ok (g.addCondition c)

/-- Removes the conditions of an id from the addressed group, of which there has to be one. -/
def removeCondition (groups : List Group) (id conditionId : String) :
    Except EditError (List Group) :=
  update groups id fun g =>
    let kept := g.conditions.filter (·.id != conditionId)
    if kept.length = g.conditions.length then .error (.conditionNotFound conditionId)
    else .ok { g with conditions := kept }

/-- The conditions with the first of an id edited; none if there is no such condition. -/
def updateFirstCondition? (id : String) (edit : Condition → Condition) :
    List Condition → Option (List Condition)
  | [] => none
  | c :: cs =>
    if c.id = id then some (edit c :: cs) else (c :: ·) <$> updateFirstCondition? id edit cs

def updateCondition (groups : List Group) (id conditionId : String)
    (edit : Condition → Condition) : Except EditError (List Group) :=
  update groups id fun g =>
    match updateFirstCondition? conditionId edit g.conditions with
    | some conditions => .ok { g with conditions }
    | none => .error (.conditionNotFound conditionId)

def addSubgroup (groups : List Group) (id : String) (sub : Group) :
    Except EditError (List Group) :=
  update groups id fun g => .ok (g.addSubgroup sub)

def setConnective (groups : List Group) (id : String) (connective : Connective) :
    Except EditError (List Group) :=
  update groups id fun g => .ok { g with connective }

/-! ## Whole groups -/

mutual

/-- What is left of a group when the first group of the id below it is cut out; none if there is no
such group. -/
def Group.cutBelow? (id : String) : Group → Option Group
  | ⟨gid, conditions, subgroups, connective⟩ =>
    (cutFirst? id subgroups).map fun subgroups => ⟨gid, conditions, subgroups, connective⟩
termination_by structural g => g

/-- The groups without the first group of the id in them; none if there is no such group. -/
def cutFirst? (id : String) : List Group → Option (List Group)
  | [] => none
  | g :: gs =>
    if g.id = id then some gs
    else
      match g.cutBelow? id with
      | some g => some (g :: gs)
      | none => (g :: ·) <$> cutFirst? id gs
termination_by structural gs => gs

end

def removeGroup (groups : List Group) (id : String) : Except EditError (List Group) :=
  match cutFirst? id groups with
  | some groups => .ok groups
  | none => .error (.groupNotFound id)

mutual

/-- The group without the empty groups below it. -/
def Group.compacted : Group → Group
  | ⟨id, conditions, subgroups, connective⟩ => ⟨id, conditions, compact subgroups, connective⟩
termination_by structural g => g

/-- The groups without the empty ones at any depth. -/
def compact : List Group → List Group
  | [] => []
  | g :: gs => if g.isEmpty then compact gs else g.compacted :: compact gs
termination_by structural gs => gs

end

end ChartFeed.Filter
