import ApiContract.ModelGraph
import Mathlib.Data.List.Nodup
import Mathlib.Logic.Relation

/-!
# What a depth-first visit finishes

`Visit.postorder` lists the nodes of a depth-first visit in the order in which they are finished,
from some starting points in turn.

## Main results

* `mem_postorder_iff`: the nodes are exactly those that the starting points lead to.
* `nodup_postorder`: each is listed once.
* `settled_reverse_postorder`: the order is `Settled`, that is, when a node is finished, whatever
  the finished nodes point to is finished too or leads back to that node.
* `mem_of_settled_of_last`: the last node of a group of nodes that lead to each other closes it; all
  that the group leads to has been finished by then.

## Proof

All rest on one statement about a single visit (`node_spec`), proved by induction on the depth bound
with an inner induction along the targets (`foldl_spec`). What carries it is that a visit leaves the
*open* nodes, those entered and not finished, exactly as they were (`Extends`), and that every open
node leads to the one that is visited. Entering a node, visiting its targets and finishing it are
looked at one by one: when a node is finished, what was entered meanwhile is finished, and what was
open before leads to it, so that the order stays settled (`Sound.finish`).

## The depth bound

The visit is a recursion on a bound, and the bound never bites: it exceeds the number of nodes that
are not entered yet (`fresh`), and every visit that goes deeper enters one of them. The nodes are
given as a list that is closed under the targets, and may be in any order.
-/

namespace ApiContract.Visit

/-- One node points to another. -/
def Edge (targets : String → List String) (a b : String) : Prop := b ∈ targets a

/-- A node leads to another along any number of edges. -/
abbrev Reaches (targets : String → List String) : String → String → Prop :=
  Relation.ReflTransGen (Edge targets)

/-- Of a list with the node finished last in front: at every node, the targets of the nodes finished
so far are finished or lead back to it. -/
def Settled (targets : String → List String) : List String → Prop
  | [] => True
  | x :: before =>
    (∀ z ∈ x :: before, ∀ y ∈ targets z, y ∈ x :: before ∨ Reaches targets y x) ∧
      Settled targets before

/-- What holds whenever a visit begins or ends. -/
structure Sound (targets : String → List String) (s : State) : Prop where
  nodup : s.finished.Nodup
  finished_subset : s.finished ⊆ s.entered
  /-- The targets of a finished node have been entered. -/
  closed : ∀ x ∈ s.finished, targets x ⊆ s.entered
  settled : Settled targets s.finished

/-- What a visit does to the state: both records grow, and the open nodes stay the same. -/
structure Extends (s t : State) : Prop where
  entered_subset : s.entered ⊆ t.entered
  finished_subset : s.finished ⊆ t.finished
  /-- What was entered meanwhile is finished. -/
  finished_of_new : ∀ x ∈ t.entered, x ∉ s.entered → x ∈ t.finished
  /-- What was open is open still. -/
  open_of_open : ∀ x ∈ s.entered, x ∉ s.finished → x ∉ t.finished

theorem Extends.refl (s : State) : Extends s s :=
  ⟨List.Subset.refl _, List.Subset.refl _, fun _ hx hnew ↦ absurd hx hnew, fun _ _ h ↦ h⟩

/-- A state may be extended twice. -/
theorem Extends.trans {s t u : State} (hst : Extends s t) (htu : Extends t u) : Extends s u where
  entered_subset := List.Subset.trans hst.entered_subset htu.entered_subset
  finished_subset := List.Subset.trans hst.finished_subset htu.finished_subset
  finished_of_new x hx hnew := by
    by_cases ht : x ∈ t.entered
    · exact htu.finished_subset (hst.finished_of_new x ht hnew)
    · exact htu.finished_of_new x hx ht
  open_of_open x hx hopen :=
    htu.open_of_open x (hst.entered_subset hx) (hst.open_of_open x hx hopen)

/-! ### The depth bound -/

/-- How many nodes of a list have not been entered. -/
def fresh (nodes : List String) (s : State) : Nat :=
  (nodes.filter fun x ↦ !s.entered.contains x).length

/-- Where more nodes have been entered, fewer are left. -/
theorem fresh_le_of_subset {nodes : List String} {s t : State} (h : s.entered ⊆ t.entered) :
    fresh nodes t ≤ fresh nodes s := by
  refine (List.monotone_filter_right nodes fun x hx ↦ ?_).length_le
  simp only [Bool.not_eq_true', List.contains_eq_mem, decide_eq_false_iff_not] at hx ⊢
  exact fun hmem ↦ hx (h hmem)

/-- Entering a node leaves fewer to be entered. -/
theorem fresh_enter_lt {nodes : List String} {s : State} {name : String} (hmem : name ∈ nodes)
    (hnew : name ∉ s.entered) :
    fresh nodes { s with entered := name :: s.entered } < fresh nodes s := by
  have hle : fresh nodes { s with entered := name :: s.entered } ≤
      ((nodes.filter fun x ↦ !s.entered.contains x).filter fun x ↦ decide (x ≠ name)).length := by
    rw [fresh, List.filter_filter]
    refine (List.monotone_filter_right nodes fun x hx ↦ ?_).length_le
    simp only [Bool.not_eq_true', List.contains_eq_mem, List.mem_cons, decide_eq_false_iff_not,
      not_or, Bool.and_eq_true, decide_eq_true_eq] at hx ⊢
    exact hx
  have hfresh : name ∈ nodes.filter fun x ↦ !s.entered.contains x :=
    List.mem_filter.2 ⟨hmem, by simpa using hnew⟩
  exact Nat.lt_of_le_of_lt hle (List.length_filter_lt_length_iff_exists.2 ⟨name, hfresh, by simp⟩)

/-! ### One visit -/

variable {targets : String → List String} {nodes : List String}

/-- What the visit of a node does, given that every open node leads to it. -/
structure Visited (targets : String → List String) (s t : State) (name : String) : Prop where
  sound : Sound targets t
  extends_ : Extends s t
  entered : name ∈ t.entered
  reached : ∀ x ∈ t.entered, x ∈ s.entered ∨ Reaches targets name x

/-- Visiting several nodes in turn, given what visiting one of them does. -/
theorem foldl_spec {visit : State → String → State} {names : List String} {bound : Nat}
    (hvisit : ∀ s, ∀ name ∈ names, fresh nodes s < bound → Sound targets s →
      (∀ z ∈ s.entered, z ∉ s.finished → Reaches targets z name) →
      Visited targets s (visit s name) name) :
    ∀ s, fresh nodes s < bound → Sound targets s →
      (∀ name ∈ names, ∀ z ∈ s.entered, z ∉ s.finished → Reaches targets z name) →
      Sound targets (names.foldl visit s) ∧ Extends s (names.foldl visit s) ∧
        names ⊆ (names.foldl visit s).entered ∧
        ∀ x ∈ (names.foldl visit s).entered,
          x ∈ s.entered ∨ ∃ name ∈ names, Reaches targets name x := by
  induction names with
  | nil =>
    intro s _ hs _
    exact ⟨hs, Extends.refl s, List.nil_subset _, fun x hx ↦ Or.inl hx⟩
  | cons name rest ih =>
    intro s hbound hs hopen
    have hfirst := hvisit s name List.mem_cons_self hbound hs (hopen name List.mem_cons_self)
    have hbound' : fresh nodes (visit s name) < bound :=
      Nat.lt_of_le_of_lt (fresh_le_of_subset hfirst.extends_.entered_subset) hbound
    -- What a visit enters it also finishes, so the open nodes are those from before it.
    have hopen' : ∀ other ∈ rest, ∀ z ∈ (visit s name).entered, z ∉ (visit s name).finished →
        Reaches targets z other := by
      intro other hother z hz hzopen
      have hzs : z ∈ s.entered := by
        by_contra hnew
        exact hzopen (hfirst.extends_.finished_of_new z hz hnew)
      exact hopen other (List.mem_cons_of_mem _ hother) z hzs fun hfin ↦
        hzopen (hfirst.extends_.finished_subset hfin)
    obtain ⟨hsound, hext, hentered, hreached⟩ :=
      ih (fun t other hother ↦ hvisit t other (List.mem_cons_of_mem _ hother))
        (visit s name) hbound' hfirst.sound hopen'
    rw [List.foldl_cons]
    refine ⟨hsound, hfirst.extends_.trans hext, ?_, fun x hx ↦ ?_⟩
    · exact List.cons_subset.2 ⟨hext.entered_subset hfirst.entered, hentered⟩
    · rcases hreached x hx with hx | ⟨other, hother, hpath⟩
      · rcases hfirst.reached x hx with hx | hpath
        · exact Or.inl hx
        · exact Or.inr ⟨name, List.mem_cons_self, hpath⟩
      · exact Or.inr ⟨other, List.mem_cons_of_mem _ hother, hpath⟩

/-- A node that has just been entered is open, and the visit of its targets may begin. -/
theorem Sound.enter {s : State} (hs : Sound targets s) (name : String) :
    Sound targets { s with entered := name :: s.entered } where
  nodup := hs.nodup
  finished_subset := fun _ hx ↦ List.mem_cons_of_mem _ (hs.finished_subset hx)
  closed := fun x hx _ hy ↦ List.mem_cons_of_mem _ (hs.closed x hx hy)
  settled := hs.settled

section Finishing

variable {s inside : State} {name : String}

/-- To enter a node, visit its targets and finish it extends the state in front of all that. -/
theorem Extends.finish (hnew : name ∉ s.entered)
    (hext : Extends { s with entered := name :: s.entered } inside) :
    Extends s { inside with finished := name :: inside.finished } where
  entered_subset _ hx := hext.entered_subset (List.mem_cons_of_mem _ hx)
  finished_subset _ hx := List.mem_cons_of_mem _ (hext.finished_subset hx)
  finished_of_new x hx hxs := by
    by_cases hxn : x = name
    · exact hxn ▸ List.mem_cons_self
    · exact List.mem_cons_of_mem _ (hext.finished_of_new x hx (by simp [hxn, hxs]))
  open_of_open x hx hxopen hfin := by
    rcases List.mem_cons.1 hfin with rfl | hfin
    · exact hnew hx
    · exact hext.open_of_open x (List.mem_cons_of_mem _ hx) hxopen hfin

/-- Behind the targets of a node, what has been entered is finished, or it was open before the node
and so leads to it. -/
theorem Extends.finished_or_reaches
    (hext : Extends { s with entered := name :: s.entered } inside)
    (hopen : ∀ z ∈ s.entered, z ∉ s.finished → Reaches targets z name) :
    ∀ y ∈ inside.entered, y ∈ name :: inside.finished ∨ Reaches targets y name := by
  intro y hy
  by_cases hys : y ∈ name :: s.entered
  · rcases List.mem_cons.1 hys with rfl | hys
    · exact Or.inl List.mem_cons_self
    · by_cases hfin : y ∈ s.finished
      · exact Or.inl (List.mem_cons_of_mem _ (hext.finished_subset hfin))
      · exact Or.inr (hopen y hys hfin)
  · exact Or.inl (List.mem_cons_of_mem _ (hext.finished_of_new y hy hys))

/-- Finishing an open node after its targets: the step that makes the order settled. -/
theorem Sound.finish (hinside : Sound targets inside) (hentered : name ∈ inside.entered)
    (hunfinished : name ∉ inside.finished) (htargets : targets name ⊆ inside.entered)
    (hback : ∀ y ∈ inside.entered, y ∈ name :: inside.finished ∨ Reaches targets y name) :
    Sound targets { inside with finished := name :: inside.finished } := by
  have hclosed : ∀ x ∈ name :: inside.finished, targets x ⊆ inside.entered := by
    intro x hx
    rcases List.mem_cons.1 hx with rfl | hx
    · exact htargets
    · exact hinside.closed x hx
  exact {
    nodup := List.nodup_cons.2 ⟨hunfinished, hinside.nodup⟩
    finished_subset := List.cons_subset.2 ⟨hentered, hinside.finished_subset⟩
    closed := hclosed
    settled := ⟨fun z hz y hy ↦ hback y (hclosed z hz hy), hinside.settled⟩ }

/-- What the visit of a new node does, given what that of its targets does. -/
theorem Visited.finish (hnew : name ∉ s.entered) (hs : Sound targets s)
    (hinside : Sound targets inside)
    (hext : Extends { s with entered := name :: s.entered } inside)
    (htargets : targets name ⊆ inside.entered)
    (hopen : ∀ z ∈ s.entered, z ∉ s.finished → Reaches targets z name)
    (hreached : ∀ x ∈ inside.entered, x ∈ name :: s.entered ∨
      ∃ other ∈ targets name, Reaches targets other x) :
    Visited targets s { inside with finished := name :: inside.finished } name := by
  have hentered : name ∈ inside.entered := hext.entered_subset List.mem_cons_self
  have hunfinished : name ∉ inside.finished :=
    hext.open_of_open name List.mem_cons_self fun hfin ↦ hnew (hs.finished_subset hfin)
  refine ⟨hinside.finish hentered hunfinished htargets (hext.finished_or_reaches hopen),
    hext.finish hnew, hentered, fun x hx ↦ ?_⟩
  rcases hreached x hx with hx | ⟨other, hother, hpath⟩
  · rcases List.mem_cons.1 hx with rfl | hx
    · exact Or.inr .refl
    · exact Or.inl hx
  · exact Or.inr (hpath.head hother)

end Finishing

/-- **What the visit of a node does**, whenever the depth bound exceeds the number of nodes that are
not entered yet. -/
theorem node_spec (hnodes : ∀ x ∈ nodes, targets x ⊆ nodes) :
    ∀ (depth : Nat) (s : State), ∀ name ∈ nodes, fresh nodes s < depth → Sound targets s →
      (∀ z ∈ s.entered, z ∉ s.finished → Reaches targets z name) →
      Visited targets s (node targets depth s name) name := by
  intro depth
  induction depth with
  | zero => intro s name _ hbound; exact absurd hbound (Nat.not_lt_zero _)
  | succ depth ih =>
    intro s name hname hbound hs hopen
    by_cases hmem : name ∈ s.entered
    · have hstay : node targets (depth + 1) s name = s := by
        simp [node, hmem]
      rw [hstay]
      exact ⟨hs, Extends.refl s, hmem, fun x hx ↦ Or.inl hx⟩
    · set entering : State := { s with entered := name :: s.entered } with hentering
      have hstep : node targets (depth + 1) s name =
          { (targets name).foldl (node targets depth) entering with
            finished :=
              name :: ((targets name).foldl (node targets depth) entering).finished } := by
        simp [node, hmem, hentering]
      have hbound' : fresh nodes entering < depth := by
        have hlt : fresh nodes entering < fresh nodes s := fresh_enter_lt hname hmem
        omega
      -- what is open now is `name` or was open before: either way it leads to every target
      have hopen' : ∀ other ∈ targets name, ∀ z ∈ entering.entered, z ∉ entering.finished →
          Reaches targets z other := by
        intro other hother z hz hzopen
        rcases List.mem_cons.1 hz with rfl | hz
        · exact .single hother
        · exact (hopen z hz hzopen).tail hother
      obtain ⟨hsound, hext, htargets, hreached⟩ :=
        foldl_spec (fun t other hother ↦ ih t other (hnodes name hname hother))
          entering hbound' (hs.enter name) hopen'
      rw [hstep]
      exact Visited.finish hmem hs hsound hext htargets hopen hreached

/-! ### The order in which nodes are finished -/

theorem fresh_empty_lt : fresh nodes {} < nodes.length + 1 :=
  Nat.lt_succ_of_le (List.length_filter_le _ _)

/-- The state at the end of a visit of several nodes. Nothing is open, so what a finished node
points to is finished. -/
theorem foldl_node_spec (hnodes : ∀ x ∈ nodes, targets x ⊆ nodes) {names : List String}
    (hnames : names ⊆ nodes) :
    let final := names.foldl (node targets (nodes.length + 1)) {}
    Sound targets final ∧ names ⊆ final.finished ∧
      (∀ x ∈ final.finished, targets x ⊆ final.finished) ∧
      ∀ x ∈ final.finished, ∃ name ∈ names, Reaches targets name x := by
  intro final
  have hempty : Sound targets {} :=
    ⟨List.nodup_nil, List.nil_subset _, fun _ h ↦ absurd h List.not_mem_nil, trivial⟩
  obtain ⟨hsound, hext, hentered, hreached⟩ :=
    foldl_spec
      (fun s name hname ↦ node_spec hnodes (nodes.length + 1) s name (hnames hname))
      {} fresh_empty_lt hempty fun _ _ z hz ↦ absurd hz List.not_mem_nil
  have hfinished : final.entered ⊆ final.finished := fun x hx ↦
    hext.finished_of_new x hx List.not_mem_nil
  refine ⟨hsound, List.Subset.trans hentered hfinished,
    fun x hx ↦ List.Subset.trans (hsound.closed x hx) hfinished, fun x hx ↦ ?_⟩
  exact (hreached x (hsound.finished_subset hx)).resolve_left List.not_mem_nil

/-- **A visit finishes no node twice.** -/
theorem nodup_postorder (hnodes : ∀ x ∈ nodes, targets x ⊆ nodes) {names : List String}
    (hnames : names ⊆ nodes) : (postorder targets (nodes.length + 1) names).Nodup :=
  List.nodup_reverse.2 (foldl_node_spec hnodes hnames).1.nodup

/-- Read from the last node to the first, the order is settled. -/
theorem settled_reverse_postorder (hnodes : ∀ x ∈ nodes, targets x ⊆ nodes) {names : List String}
    (hnames : names ⊆ nodes) :
    Settled targets (postorder targets (nodes.length + 1) names).reverse := by
  rw [postorder, List.reverse_reverse]
  exact (foldl_node_spec hnodes hnames).1.settled

/-- **A visit finishes exactly the nodes that its starting points lead to.** -/
theorem mem_postorder_iff (hnodes : ∀ x ∈ nodes, targets x ⊆ nodes) {names : List String}
    (hnames : names ⊆ nodes) {x : String} :
    x ∈ postorder targets (nodes.length + 1) names ↔ ∃ name ∈ names, Reaches targets name x := by
  obtain ⟨-, hstart, hclosed, hreached⟩ := foldl_node_spec hnodes hnames
  rw [postorder, List.mem_reverse]
  refine ⟨hreached x, ?_⟩
  rintro ⟨name, hname, hpath⟩
  induction hpath with
  | refl => exact hstart hname
  | tail _ hedge ih => exact hclosed _ ih hedge

/-- **The last node of a group closes it.** If every node that leads to `x` and back comes no later
than `x`, then so does everything that `x` leads to. -/
theorem mem_of_settled_of_last {x : String} {before : List String}
    (h : Settled targets (x :: before))
    (hlast : ∀ y, Reaches targets x y → Reaches targets y x → y ∈ x :: before) :
    ∀ y, Reaches targets x y → y ∈ x :: before := by
  intro y hpath
  induction hpath with
  | refl => exact List.mem_cons_self
  | @tail w y hinit hedge ih =>
    rcases h.1 w ih y hedge with hmem | hback
    · exact hmem
    · exact hlast y (hinit.tail hedge) hback

/-- The part that was finished first is settled by itself. -/
theorem Settled.of_append {front back : List String} (h : Settled targets (front ++ back)) :
    Settled targets back := by
  induction front with
  | nil => exact h
  | cons x front ih => exact ih h.2

end ApiContract.Visit
