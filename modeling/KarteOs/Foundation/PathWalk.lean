import Mathlib.Data.List.Induction

/-! # Walks along named edges

A graph whose edges carry names is a partial function from a node and a name to
a node. A path is a list of names. Replacing one edge between leaves changes
where a path leads exactly if that edge is the last one the path takes.
-/

namespace PathWalk

universe uNode uName

variable {Node : Type uNode} {Name : Type uName} (edge : Node → Name → Option Node)

/-- The node a path leads to, if every edge on the way exists. -/
def walk (start : Node) (path : List Name) : Option Node :=
  path.foldlM edge start

/-- The edge a path takes last: the node it leaves and the name. -/
def lastEdge (start : Node) (path : List Name) : Option (Node × Name) :=
  path.getLast?.bind fun name => (walk edge start path.dropLast).map (·, name)

/-- No edge leaves the node. -/
def Leaf (node : Node) : Prop :=
  ∀ name, edge node name = none

/-- One edge leads elsewhere, or nowhere. -/
def redirect [DecidableEq Node] [DecidableEq Name]
    (origin : Node) (name : Name) (target : Option Node) : Node → Name → Option Node :=
  Function.update edge origin (Function.update (edge origin) name target)

variable {edge : Node → Name → Option Node} {start : Node}

@[simp] lemma walk_nil : walk edge start [] = some start := rfl

@[simp] lemma walk_cons (name : Name) (path : List Name) :
    walk edge start (name :: path) = (edge start name).bind fun next => walk edge next path := rfl

@[simp] lemma lastEdge_nil : lastEdge edge start [] = none := rfl

@[simp] lemma lastEdge_concat (path : List Name) (name : Name) :
    lastEdge edge start (path ++ [name]) = (walk edge start path).map (·, name) := by
  simp [lastEdge]

lemma Leaf.walk_concat {node : Node} (hleaf : Leaf edge node) (path : List Name)
    (name : Name) : walk edge node (path ++ [name]) = none := by
  cases path with
  | nil => simp [hleaf name]
  | cons head path => simp [hleaf head]

variable [DecidableEq Node] [DecidableEq Name] {origin : Node} {key : Name} {target : Option Node}

@[simp] lemma redirect_self : redirect edge origin key target origin key = target := by
  simp [redirect]

lemma redirect_of_ne {node : Node} {name : Name} (hne : ¬(node = origin ∧ name = key)) :
    redirect edge origin key target node name = edge node name := by
  unfold redirect
  by_cases hnode : node = origin
  · subst hnode
    have hname : name ≠ key := fun h => hne ⟨rfl, h⟩
    simp [hname]
  · simp [hnode]

variable (hold : ∀ node, edge origin key = some node → Leaf edge node)
include hold

variable (hnew : ∀ node, target = some node → Leaf (redirect edge origin key target) node)
include hnew

variable (path : List Name)

/-- The last step of a path sees the replaced edge; a path that takes the edge
earlier is stuck at a leaf before and after. -/
lemma walk_redirect_concat (name : Name) :
    walk (redirect edge origin key target) start (path ++ [name]) =
      if walk edge start path = some origin ∧ name = key then target
      else walk edge start (path ++ [name]) := by
  induction path generalizing start with
  | nil =>
    by_cases hhit : start = origin ∧ name = key
    · obtain ⟨rfl, rfl⟩ := hhit
      simp
    · simp [redirect_of_ne hhit, hhit]
  | cons head path ih =>
    by_cases hhit : start = origin ∧ head = key
    · obtain ⟨rfl, rfl⟩ := hhit
      have hafter : walk (redirect edge start head target) start (head :: path ++ [name]) =
          none := by
        cases htarget : target with
        | none => simp
        | some node =>
          subst htarget
          simp [(hnew node rfl).walk_concat]
      rw [hafter]
      cases hedge : edge start head with
      | none => simp [hedge]
      | some node =>
        have hleaf := hold node hedge
        -- the old target has no edges, so it is not the origin
        have hstuck : walk edge node path ≠ some start := by
          intro hwalk
          cases path with
          | nil =>
            rw [walk_nil] at hwalk
            cases hwalk
            rw [hleaf head] at hedge
            cases hedge
          | cons next path => simp [hleaf next] at hwalk
        simp [hedge, hstuck, hleaf.walk_concat]
    · rw [List.cons_append, walk_cons, redirect_of_ne hhit, walk_cons, walk_cons]
      cases edge start head with
      | none => simp
      | some node => exact ih

lemma walk_redirect : walk (redirect edge origin key target) start path =
    if lastEdge edge start path = some (origin, key) then target else walk edge start path := by
  induction path using List.reverseRecOn with
  | nil => simp
  | append_singleton path name _ =>
    rw [walk_redirect_concat hold hnew, lastEdge_concat]
    simp [Option.map_eq_some_iff]

end PathWalk
