import ApiContract.Spec.Basic

/-!
# The graph of models

Models are nodes, and a model has an edge to every model that its schema refers to. A model is
recursive if it reaches itself. The declaration order puts whatever a model refers to in front of
it; models that reach each other stand together, in document order.

## The order

The order is that of a depth-first visit which takes the models in document order and the targets of
a model in decreasing order of their names: a group of models that reach each other is emitted when
the last of them is finished. Such groups are the strongly connected components of the graph, and a
component comes after those that it has edges to.

The visit is bounded by the number of nodes, which suffices because a node is entered once.
Components are found by reachability, node by node, and not in one pass over the graph; the graph of
a contract is small, and the definition is then what the notion says. `Proofs.ModelGraph.Components`
gives the graph in its other form, by a list of components in reverse topological order of which the
cyclic ones are recursive.
-/

namespace ApiContract

namespace Visit

/-- How far a depth-first visit has come: the nodes entered, and those finished, last one first. -/
structure State where
  entered : List String := []
  finished : List String := []

/-- Visits a node and what is below it, unless it was entered before. The number bounds the depth;
the number of nodes suffices. -/
def node (targets : String → List String) : Nat → State → String → State
  | 0, state, _ => state
  | depth + 1, state, name =>
    if state.entered.contains name then state
    else
      let inside := (targets name).foldl (node targets depth)
        { state with entered := name :: state.entered }
      { inside with finished := name :: inside.finished }

/-- Visits several nodes in turn and lists the nodes in the order in which they were finished. -/
def postorder (targets : String → List String) (depth : Nat) (names : List String) : List String :=
  (names.foldl (node targets depth) {}).finished.reverse

end Visit

/-- Which models are recursive, and the order in which models are declared. -/
structure ModelGraph where
  recursive : NameSet
  order : List String

namespace ModelGraph

/-- The models that a model refers to, in decreasing order. -/
def targets (models : List Model) (name : String) : List String :=
  -- Of several models with one name the last one counts.
  match models.reverse.find? fun m ↦ m.name == name with
  | none => []
  | some model =>
    (model.schema.referencedNames.toList.filter fun target ↦
      models.any fun m ↦ m.name == target).reverse

/-- The models reached from a model by one edge or more. -/
def reached (models : List Model) (name : String) : List String :=
  Visit.postorder (targets models) (models.length + 1) (targets models name)

/-- Whether two models are the same or reach each other. -/
def together (reach : List (String × List String)) (a b : String) : Bool :=
  a == b || (((reach.lookup a).getD []).contains b && ((reach.lookup b).getD []).contains a)

/-- Groups of nodes in the order in which their last member is finished, given the nodes in the
order in which they were finished. -/
def groups (names : List String) (same : String → String → Bool) : List String → List String
  | [] => []
  | name :: later =>
    -- The group waits for its member that is finished last.
    if later.any (same name) then groups names same later
    else names.filter (same name) ++ groups names same later

/-- The graph of a list of models with distinct names. -/
def ofModels (models : List Model) : ModelGraph :=
  let names := models.map Model.name
  let reach := names.map fun name ↦ (name, reached models name)
  { recursive :=
      NameSet.ofList (names.filter fun name ↦ ((reach.lookup name).getD []).contains name)
    order := groups names (together reach)
      (Visit.postorder (targets models) (models.length + 1) names) }

/-- Whether a model reaches itself. -/
def isRecursive (graph : ModelGraph) (name : String) : Bool := graph.recursive.contains name

end ModelGraph

end ApiContract
