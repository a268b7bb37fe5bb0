import FeatureToggles.Proofs.Levels
import FeatureToggles.Proofs.Names
import Mathlib.Data.List.Perm.Basic

/-!
# Walks through an expression

Both walks take nodes off an agenda until it is empty, and put the parts of a node on the agenda in its place.
The agenda may become longer by this, but fewer nodes are left on it, so a walk ends after as many turns as
the expression has nodes, and has then taken every node off once. The names are found from left to right; the
levels are looked at from right to left, which makes no difference to the deepest of them.
-/

namespace FeatureToggles

/-! ### Walks with an agenda -/

/-- A walk: what it puts on the agenda in place of an entry that it has taken off, the part to be taken off
next first, and how it notes the entry. -/
structure Walk (α σ : Type) where
  parts : α → List α
  note : σ → α → σ

namespace Walk

variable {α σ : Type} {walk : Walk α σ}

/-- `walk.Runs agenda state visited result`: with the given agenda and state, the walk takes off the entries
`visited`, one in each turn, until nothing is left on the agenda, and its state is `result` then. -/
inductive Runs (walk : Walk α σ) : List α → σ → List α → σ → Prop
  | done {state : σ} : Runs walk [] state [] state
  | turn {entry : α} {agenda visited : List α} {state result : σ}
    (hrest : Runs walk (walk.parts entry ++ agenda) (walk.note state entry) visited result) :
    Runs walk (entry :: agenda) state (entry :: visited) result

/-- If `order` lists an entry before the lists of its parts, the walk takes off the lists of all entries on
its agenda and ends. -/
theorem runs_flatMap {order : α → List α}
    (horder : ∀ entry, order entry = entry :: (walk.parts entry).flatMap order) (agenda : List α)
    (state : σ) :
    walk.Runs agenda state (agenda.flatMap order) ((agenda.flatMap order).foldl walk.note state) := by
  -- each turn takes one entry off these lists, however many it puts on the agenda
  generalize hleft : (agenda.flatMap order).length = left
  induction left generalizing agenda state with
  | zero =>
    cases agenda with
    | nil => exact .done
    | cons entry agenda =>
      rw [List.flatMap_cons, horder] at hleft
      cases hleft
  | succ left ih =>
    cases agenda with
    | nil => cases hleft
    | cons entry agenda =>
      have hturn : (entry :: agenda).flatMap order
          = entry :: (walk.parts entry ++ agenda).flatMap order := by
        rw [List.flatMap_cons, horder, List.cons_append, List.flatMap_append]
      rw [hturn, List.length_cons] at hleft
      rw [hturn, List.foldl_cons]
      apply Runs.turn
      apply ih
      omega

end Walk

namespace Expr

/-! ### The nodes of an expression -/

/-- The node at the end of a path from the root. -/
def nodeAt? : Expr → List PathStep → Option Expr
  | e, [] => some e
  | binary _ left _, .left :: path => left.nodeAt? path
  | binary _ _ right, .right :: path => right.nodeAt? path
  | unary _ operand, .operand :: path => operand.nodeAt? path
  | _, _ :: _ => none

/-- The nodes, each with all that stands below it: a node before its parts, and the left part before the right
one. -/
def nodes : Expr → List Expr
  | literal value => [literal value]
  | ident name => [ident name]
  | binary op left right => binary op left right :: (left.nodes ++ right.nodes)
  | unary op operand => unary op operand :: operand.nodes

theorem map_some_nodes (e : Expr) : e.nodes.map some = e.preorder.map e.nodeAt? := by
  induction e with
  | literal value => rfl
  | ident name => rfl
  | binary op left right ihl ihr =>
    rw [nodes, preorder, List.map_cons, List.map_append, ihl, ihr, List.map_cons, List.map_append,
      List.map_map, List.map_map]
    rfl
  | unary op operand ih =>
    rw [nodes, preorder, List.map_cons, ih, List.map_cons, List.map_map]
    rfl

/-- The paths to all nodes are those that end at a node. -/
theorem mem_preorder_iff {e : Expr} {path : List PathStep} :
    path ∈ e.preorder ↔ (e.nodeAt? path).isSome = true := by
  induction e generalizing path with
  | literal value => cases path <;> simp [preorder, nodeAt?]
  | ident name => cases path <;> simp [preorder, nodeAt?]
  | binary op left right ihl ihr =>
    cases path with
    | nil => simp [preorder, nodeAt?]
    | cons step path => cases step <;> simp [preorder, nodeAt?, ihl, ihr]
  | unary op operand ih =>
    cases path with
    | nil => simp [preorder, nodeAt?]
    | cons step path => cases step <;> simp [preorder, nodeAt?, ih]

/-- No path leads to two nodes. -/
theorem nodup_preorder (e : Expr) : e.preorder.Nodup := by
  have hstep (step : PathStep) : Function.Injective (step :: ·) := fun _ _ h => (List.cons.inj h).2
  induction e with
  | literal value => exact List.nodup_singleton _
  | ident name => exact List.nodup_singleton _
  | binary op left right ihl ihr =>
    rw [preorder, List.nodup_cons, List.nodup_append]
    refine ⟨by simp, ihl.map (hstep _), ihr.map (hstep _), ?_⟩
    intro before hbefore after hafter
    obtain ⟨p, -, rfl⟩ := List.mem_map.1 hbefore
    obtain ⟨q, -, rfl⟩ := List.mem_map.1 hafter
    simp
  | unary op operand ih =>
    rw [preorder, List.nodup_cons]
    exact ⟨by simp, ih.map (hstep _)⟩

theorem length_preorder (e : Expr) : e.preorder.length = e.size := by
  induction e with
  | literal value => rfl
  | ident name => rfl
  | binary op left right ihl ihr => simp [preorder, size, ihl, ihr]
  | unary op operand ih => simp [preorder, size, ih]

theorem ident_mem_nodes_iff {e : Expr} {name : Text} : ident name ∈ e.nodes ↔ name ∈ e.occurrences := by
  induction e with
  | literal value => simp [nodes, occurrences]
  | ident other => simp [nodes, occurrences]
  | binary op left right ihl ihr => simp [nodes, occurrences, ihl, ihr]
  | unary op operand ih => simp [nodes, occurrences, ih]

/-! ### The two walks -/

/-- The parts of a node, from left to right. -/
def parts : Expr → List Expr
  | literal _ => []
  | ident _ => []
  | binary _ left right => [left, right]
  | unary _ operand => [operand]

/-- The walk that finds the names. -/
def namesWalk : Walk Expr (List Text) where
  parts := parts
  note names e :=
    match e with
    | ident name => if name ∈ names then names else names ++ [name]
    | _ => names

/-- The walk that finds the deepest level. Its entries hold the level of their node. -/
def levelsWalk : Walk (Expr × ℕ) ℕ where
  parts entry := entry.1.parts.reverse.map (·, entry.2 + 1)
  note deepest entry := max deepest entry.2

theorem collectNames_of_runs {agenda visited : List Expr} {names result : List Text}
    (h : namesWalk.Runs agenda names visited result) : collectNames agenda names = result := by
  induction h with
  | done => rw [collectNames]
  | @turn e agenda visited names result hrest ih =>
    rw [← ih]
    cases e <;> rw [collectNames] <;> rfl

theorem deepest_of_runs {agenda visited : List (Expr × ℕ)} {seen result : ℕ}
    (h : levelsWalk.Runs agenda seen visited result) : deepest agenda seen = result := by
  induction h with
  | done => rw [deepest]
  | @turn entry agenda visited seen result hrest ih =>
    rw [← ih]
    obtain ⟨e, level⟩ := entry
    cases e <;> rw [deepest] <;> rfl

/-- The nodes of an expression with their levels, a node before its parts, and the right part before the left
one. The root stands on the given level. -/
def levels (level : ℕ) : Expr → List (Expr × ℕ)
  | literal value => [(literal value, level)]
  | ident name => [(ident name, level)]
  | binary op left right =>
    (binary op left right, level) :: (right.levels (level + 1) ++ left.levels (level + 1))
  | unary op operand => (unary op operand, level) :: operand.levels (level + 1)

/-- The nodes with their levels are those at the end of all paths; a path has as many steps as there are levels
above its end. -/
theorem levels_perm (level : ℕ) (e : Expr) :
    ((e.levels level).map fun entry => (some entry.1, entry.2)).Perm
      (e.preorder.map fun path => (e.nodeAt? path, level + path.length)) := by
  have hbelow (level : ℕ) (part : Expr) :
      part.preorder.map (fun path => (part.nodeAt? path, level + 1 + path.length))
        = part.preorder.map fun path => (part.nodeAt? path, level + (path.length + 1)) := by
    apply List.map_congr_left
    intro path _
    rw [Nat.add_right_comm, Nat.add_assoc]
  induction e generalizing level with
  | literal value => exact .refl _
  | ident name => exact .refl _
  | binary op left right ihl ihr =>
    have hleft := (ihl (level + 1)).trans (.of_eq (hbelow level left))
    have hright := (ihr (level + 1)).trans (.of_eq (hbelow level right))
    rw [levels, preorder, List.map_cons, List.map_append, List.map_cons, List.map_append, List.map_map,
      List.map_map]
    apply List.Perm.cons
    exact List.perm_append_comm.trans (hleft.append hright)
  | unary op operand ih =>
    have hoperand := (ih (level + 1)).trans (.of_eq (hbelow level operand))
    rw [levels, preorder, List.map_cons, List.map_cons, List.map_map]
    exact .cons _ hoperand

theorem namesWalk_runs (e : Expr) : namesWalk.Runs [e] [] e.nodes e.names := by
  have horder : ∀ e : Expr, e.nodes = e :: (namesWalk.parts e).flatMap nodes := by
    intro e
    cases e <;> simp [nodes, namesWalk, parts]
  have hruns := Walk.runs_flatMap horder [e] []
  rw [List.flatMap_singleton] at hruns
  rw [names, collectNames_of_runs hruns]
  exact hruns

theorem levelsWalk_runs (e : Expr) : levelsWalk.Runs [(e, 1)] 0 (e.levels 1) e.depth := by
  have horder : ∀ entry : Expr × ℕ,
      entry.1.levels entry.2 = entry :: (levelsWalk.parts entry).flatMap fun part => part.1.levels part.2 := by
    intro entry
    obtain ⟨e, level⟩ := entry
    cases e <;> simp [levels, levelsWalk, parts]
  have hruns := Walk.runs_flatMap horder [(e, 1)] 0
  rw [List.flatMap_singleton] at hruns
  rw [depth, deepest_of_runs hruns]
  exact hruns

/-- **Walks.** The names are those at the leaves from left to right, each where it first occurs, and there are
no others; the depth is the height of the tree. Both walks end, after one turn for each node: the names are
looked for at the ends of all paths in their order, and the levels in some order. -/
theorem walks_visit_once (e : Expr) :
    e.names = e.occurrences.eraseDups ∧ e.names.Nodup ∧
    (∀ name, name ∈ e.names ↔ ∃ path, e.nodeAt? path = some (ident name)) ∧
    e.depth = e.height ∧
    e.preorder.Nodup ∧ e.preorder.length = e.size ∧
    (∀ path, path ∈ e.preorder ↔ ∃ node, e.nodeAt? path = some node) ∧
    (∃ visited, namesWalk.Runs [e] [] visited e.names ∧
      visited.map some = e.preorder.map e.nodeAt?) ∧
    ∃ visited, levelsWalk.Runs [(e, 1)] 0 visited e.depth ∧
      (visited.map fun entry => (some entry.1, entry.2)).Perm
        (e.preorder.map fun path => (e.nodeAt? path, 1 + path.length)) := by
  have hpaths : ∀ path, path ∈ e.preorder ↔ ∃ node, e.nodeAt? path = some node := by
    intro path
    rw [mem_preorder_iff, Option.isSome_iff_exists]
  have hnames : ∀ name, name ∈ e.names ↔ ∃ path, e.nodeAt? path = some (ident name) := by
    intro name
    rw [mem_names_iff, ← ident_mem_nodes_iff, ← List.mem_map_of_injective fun _ _ => Option.some.inj,
      map_some_nodes, List.mem_map]
    constructor
    · intro h
      obtain ⟨path, -, hpath⟩ := h
      exact ⟨path, hpath⟩
    · intro h
      obtain ⟨path, hpath⟩ := h
      exact ⟨path, (hpaths path).2 ⟨_, hpath⟩, hpath⟩
  refine ⟨names_eq_eraseDups e, ?_, hnames, depth_eq_height e, nodup_preorder e, length_preorder e, hpaths,
    ⟨_, namesWalk_runs e, map_some_nodes e⟩, ⟨_, levelsWalk_runs e, levels_perm 1 e⟩⟩
  rw [names_eq_eraseDups]
  exact nodup_eraseDups _

end Expr

end FeatureToggles
