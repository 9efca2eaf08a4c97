-- SUMMARY: The flat tree of a block holds the skeleton of the block, with every node in it just once.
import Mathlib.Logic.ExistsUnique
import Slate.Proofs.Paths.Recursion

/-!
# The skeleton of a block

`Block.skeleton` is what is left of a block when everything but its returns, blocks, `if`
chains and loops is dropped. `Reads` reads a skeleton off a list of nodes, from a position
through the kind and the children of the node there. Laying out a block adds just the nodes
of its skeleton: the positions that are handed on, together with the children of the nodes
added, are the new positions, each of them once. At the end the root alone is handed on, so
every other node is the child of one.
-/

namespace Slate

/-! ## Skeletons -/

/-- A tree of control flow. -/
inductive Skeleton where
  | ret
  | block (inner : List Skeleton)
  | ifChain (branches : List Skeleton) (otherwise : Option Skeleton)
  | loop (body : Skeleton)

namespace Skeleton

/-- The kind of node that stands for a skeleton. -/
def kind : Skeleton → Paths.Kind
  | ret => .ret
  | block _ => .block
  | ifChain _ otherwise => .ifChain otherwise.isSome
  | loop _ => .loop

/-- The skeletons right inside of one. An `if` has one for each branch and one for its
`else`, a loop has one, and a return has none. -/
def parts : Skeleton → List Skeleton
  | ret => []
  | block inner => inner
  | ifChain branches otherwise => branches ++ otherwise.toList
  | loop body => [body]

mutual

/-- The number of nodes of a skeleton. -/
def size : Skeleton → Nat
  | ret => 1
  | block inner => sizes inner + 1
  | ifChain branches none => sizes branches + 1
  | ifChain branches (some otherwise) => sizes branches + otherwise.size + 1
  | loop body => body.size + 1

/-- The number of nodes of several skeletons. -/
def sizes : List Skeleton → Nat
  | [] => 0
  | s :: ss => s.size + sizes ss

end

theorem sizes_append (ss ts : List Skeleton) : sizes (ss ++ ts) = sizes ss + sizes ts := by
  induction ss with
  | nil => rw [List.nil_append, sizes, Nat.zero_add]
  | cons s ss ih => rw [List.cons_append, sizes, sizes, ih, Nat.add_assoc]

theorem size_eq (s : Skeleton) : s.size = sizes s.parts + 1 := by
  cases s with
  | ret => rfl
  | block inner => rfl
  | ifChain branches otherwise =>
    cases otherwise with
    | none => rw [size, parts, Option.toList_none, List.append_nil]
    | some otherwise => rw [size, parts, Option.toList_some, sizes_append]; rfl
  | loop body => rfl

/-- A skeleton is made up of its kind and its parts. -/
theorem eq_of_parts {s s' : Skeleton} (hkind : s.kind = s'.kind) (hparts : s.parts = s'.parts) :
    s = s' := by
  cases s <;> cases s' <;> simp only [kind, reduceCtorEq] at hkind
  case ret.ret => rfl
  case block.block inner inner' => exact congrArg block hparts
  case loop.loop body body' => exact congrArg loop (List.head_eq_of_cons_eq hparts)
  case ifChain.ifChain branches otherwise branches' otherwise' =>
    -- both have an `else` or none has, so the branches end at the same place
    cases otherwise <;> cases otherwise' <;> simp only [Paths.Kind.ifChain.injEq] at hkind
    case none.none => simpa [parts] using hparts
    case some.some otherwise otherwise' => simpa [parts, List.append_singleton_inj] using hparts
    all_goals cases hkind

end Skeleton

mutual

/-- What is kept of a statement, if it steers control. A function inside a block does not. -/
def Stmt.skeleton? : Stmt → Option Skeleton
  | .ret .. => some .ret
  | .block body => some body.skeleton
  | .ifChain branches none _ => some (.ifChain (branchSkeletons branches) none)
  | .ifChain branches (some otherwise) _ =>
    some (.ifChain (branchSkeletons branches) (some otherwise.skeleton))
  | .whileLoop _ body _ => some (.loop body.skeleton)
  | _ => none

/-- What is kept of a block. -/
def Block.skeleton : Block → Skeleton
  | .mk statements _ => .block (statementSkeletons statements)

def statementSkeletons : List Stmt → List Skeleton
  | [] => []
  | s :: ss => s.skeleton?.toList ++ statementSkeletons ss

def branchSkeletons : List Branch → List Skeleton
  | [] => []
  | .mk _ body _ :: branches => body.skeleton :: branchSkeletons branches

end

namespace Paths

/-! ## Reading nodes -/

mutual

/-- At a position a skeleton can be read: its kind is that of the node, and its parts can be
read at the children, one part at each, in their order. -/
inductive Reads (nodes : List Node) : Nat → Skeleton → Prop where
  | node {i : Nat} {children : List Nat} {s : Skeleton} :
      nodes[i]? = some ⟨s.kind, children⟩ → ReadsAll nodes children s.parts → Reads nodes i s

inductive ReadsAll (nodes : List Node) : List Nat → List Skeleton → Prop where
  | nil : ReadsAll nodes [] []
  | cons {i : Nat} {positions : List Nat} {s : Skeleton} {ss : List Skeleton} :
      Reads nodes i s → ReadsAll nodes positions ss → ReadsAll nodes (i :: positions) (s :: ss)

end

mutual

/-- There is only one way to read. -/
theorem Reads.unique {nodes : List Node} {i : Nat} {s s' : Skeleton} :
    Reads nodes i s → Reads nodes i s' → s = s'
  | .node hget hparts, .node hget' hparts' => by
    obtain ⟨hkind, rfl⟩ := Node.mk.inj (Option.some.inj (hget.symm.trans hget'))
    exact Skeleton.eq_of_parts hkind (hparts.unique hparts')

theorem ReadsAll.unique {nodes : List Node} {positions : List Nat} {ss ss' : List Skeleton} :
    ReadsAll nodes positions ss → ReadsAll nodes positions ss' → ss = ss'
  | .nil, .nil => rfl
  | .cons h hrest, .cons h' hrest' => congr (congrArg List.cons (h.unique h')) (hrest.unique hrest')

end

mutual

/-- Nodes behind the others change nothing in what can be read already. -/
theorem Reads.append {nodes : List Node} {i : Nat} {s : Skeleton} (more : List Node) :
    Reads nodes i s → Reads (nodes ++ more) i s
  | .node hget hparts => by
    refine .node ?_ (hparts.append more)
    rw [List.getElem?_append_left (List.getElem?_eq_some_iff.1 hget).1, hget]

theorem ReadsAll.append {nodes : List Node} {positions : List Nat} {ss : List Skeleton}
    (more : List Node) : ReadsAll nodes positions ss → ReadsAll (nodes ++ more) positions ss
  | .nil => .nil
  | .cons h hrest => .cons (h.append more) (hrest.append more)

end

theorem ReadsAll.length_eq {nodes : List Node} {positions : List Nat} {ss : List Skeleton} :
    ReadsAll nodes positions ss → positions.length = ss.length
  | .nil => rfl
  | .cons _ hrest => congrArg Nat.succ hrest.length_eq

theorem ReadsAll.concat {nodes : List Node} {positions positions' : List Nat}
    {ss ss' : List Skeleton} :
    ReadsAll nodes positions ss → ReadsAll nodes positions' ss' →
      ReadsAll nodes (positions ++ positions') (ss ++ ss')
  | .nil, h' => h'
  | .cons h hrest, h' => .cons h (hrest.concat h')

/-! ## Laying out skeletons -/

/-- Nodes for skeletons are put behind a layout. The skeletons can be read at their positions,
and a skeleton can be read at every new node. The positions together with the children of the
new nodes are the new positions, each of them once. -/
structure Lays (l l' : Layout) (positions : List Nat) (ss : List Skeleton) : Prop where
  reads : ReadsAll l' positions ss
  grows : ∃ added, l' = l ++ added ∧ added.length = Skeleton.sizes ss ∧
    (positions ++ added.flatMap Node.children).Perm (List.range' l.length added.length)
  readable : ∀ i, l.length ≤ i → i < l'.length → ∃ s, Reads l' i s

namespace Lays

variable {l l' l'' : Layout} {positions positions' children : List Nat} {s : Skeleton}
  {ss ss' : List Skeleton}

theorem nothing (l : Layout) : Lays l l [] [] where
  reads := .nil
  grows := ⟨[], (List.append_nil l).symm, rfl, .nil⟩
  readable := fun _ hle hlt => absurd hlt (Nat.not_lt.2 hle)

theorem append (h : Lays l l' positions ss) (h' : Lays l' l'' positions' ss') :
    Lays l l'' (positions ++ positions') (ss ++ ss') := by
  obtain ⟨added, rfl, hsize, hperm⟩ := h.grows
  obtain ⟨more, rfl, hsize', hperm'⟩ := h'.grows
  refine { reads := (h.reads.append more).concat h'.reads, grows := ?_, readable := ?_ }
  · refine ⟨added ++ more, List.append_assoc .., ?_, ?_⟩
    · rw [List.length_append, hsize, hsize', Skeleton.sizes_append]
    · rw [List.flatMap_append, List.length_append, ← List.range'_append_1]
      rw [List.length_append] at hperm'
      rw [List.append_assoc]
      refine ((List.perm_append_comm_assoc ..).append_left positions).trans ?_
      rw [← List.append_assoc]
      exact hperm.append hperm'
  · intro i hle hlt
    rcases Nat.lt_or_ge i (l ++ added).length with hi | hi
    · obtain ⟨s, hs⟩ := h.readable i hle hi
      exact ⟨s, hs.append more⟩
    · exact h'.readable i hi hlt

/-- A node is put behind those of the parts, which it takes as its children. -/
theorem push (h : Lays l l' children s.parts) :
    Lays l (l'.push s.kind children).2 [(l'.push s.kind children).1] [s] := by
  obtain ⟨added, rfl, hsize, hperm⟩ := h.grows
  have hreads : Reads ((l ++ added).push s.kind children).2 (l ++ added).length s :=
    .node (List.getElem?_concat_length ..) (h.reads.append _)
  refine { reads := .cons hreads .nil, grows := ?_, readable := ?_ }
  · refine ⟨added ++ [⟨s.kind, children⟩], by simp [Layout.push], ?_, ?_⟩
    · rw [List.length_append, hsize, Skeleton.sizes, Skeleton.size_eq]
      rfl
    · rw [List.length_append, List.length_singleton, List.range'_1_concat, List.flatMap_append,
        List.flatMap_singleton]
      refine List.perm_append_comm.trans (.append ?_ ?_)
      · exact List.perm_append_comm.trans hperm
      · simp [Layout.push]
  · intro i hle hlt
    rcases Nat.lt_or_ge i (l ++ added).length with hi | hi
    · obtain ⟨s', hs'⟩ := h.readable i hle hi
      exact ⟨s', hs'.append _⟩
    · have hlast : i = (l ++ added).length := by
        simp only [Layout.push, List.length_append, List.length_singleton] at hlt hi ⊢
        omega
      exact ⟨s, hlast ▸ hreads⟩

end Lays

mutual

theorem addBlock_lays (l : Layout) : (body : Block) →
    Lays l (addBlock l body).2 [(addBlock l body).1] [body.skeleton]
  | .mk statements _ => (addStatements_lays l statements).push (s := .block _)

theorem addStatements_lays (l : Layout) : (statements : List Stmt) →
    Lays l (addStatements l statements).2 (addStatements l statements).1
      (statementSkeletons statements)
  | [] => .nothing l
  | stmt :: statements =>
    (addStatement_lays l stmt).append (addStatements_lays (addStatement l stmt).2 statements)

theorem addStatement_lays (l : Layout) : (stmt : Stmt) →
    Lays l (addStatement l stmt).2 (addStatement l stmt).1.toList stmt.skeleton?.toList
  | .ret .. => (Lays.nothing l).push (s := .ret)
  | .block body => addBlock_lays l body
  | .ifChain branches none _ => by
    have hbranches := addBranches_lays l branches
    rw [← List.append_nil (branchSkeletons branches)] at hbranches
    exact hbranches.push (s := .ifChain _ none)
  | .ifChain branches (some otherwise) _ =>
    ((addBranches_lays l branches).append
      (addBlock_lays (addBranches l branches).2 otherwise)).push (s := .ifChain _ (some _))
  | .whileLoop _ body _ => (addBlock_lays l body).push (s := .loop _)
  | .needs .. | .declare .. | .define .. | .assign .. | .function .. | .breakLoop _
  | .continueLoop _ | .expression .. | .error .. => .nothing l

theorem addBranches_lays (l : Layout) : (branches : List Branch) →
    Lays l (addBranches l branches).2 (addBranches l branches).1 (branchSkeletons branches)
  | [] => .nothing l
  | .mk _ body _ :: branches =>
    (addBlock_lays l body).append (addBranches_lays (addBlock l body).2 branches)

end

/-! ## Parents -/

/-- What is listed once as a child is the child of one node only. -/
theorem existsUnique_parent {nodes : List Node} {i : Nat}
    (h : (nodes.flatMap Node.children).count i = 1) :
    ∃! parent : Nat, ∃ node, nodes[parent]? = some node ∧ i ∈ node.children := by
  induction nodes with
  | nil => simp at h
  | cons first rest ih =>
    rw [List.flatMap_cons, List.count_append] at h
    by_cases hfirst : i ∈ first.children
    · -- the others do not list it any more
      have hrest : (rest.flatMap Node.children).count i = 0 := by
        have := List.count_pos_iff.2 hfirst
        omega
      refine ⟨0, ⟨first, rfl, hfirst⟩, ?_⟩
      rintro (_ | parent) ⟨node, hnode, hmem⟩
      · rfl
      · rw [List.count_eq_zero, List.mem_flatMap] at hrest
        exact absurd ⟨node, List.mem_of_getElem? hnode, hmem⟩ hrest
    · rw [List.count_eq_zero.2 hfirst, Nat.zero_add] at h
      obtain ⟨parent, hparent, hunique⟩ := ih h
      refine ⟨parent + 1, hparent, ?_⟩
      rintro (_ | other) ⟨node, hnode, hmem⟩
      · cases hnode
        exact absurd hmem hfirst
      · exact congrArg Nat.succ (hunique other ⟨node, hnode, hmem⟩)

end Paths

/-! ## The flat tree of a block -/

open Paths (Node Reads)

/-- The flat tree of a block is its skeleton. All children of a node come before it, and it has
one for each part of a skeleton that can be read there. The root comes last. The children of
all nodes together are the positions before the root, each of them once, so that every
node but the root is the child of exactly one. What can be read at the root is the skeleton
of the block and nothing else, and there are as many nodes as that skeleton has. -/
theorem Block.reads_skeleton (body : Block) :
    let p := Paths.ofBlock body
    (∀ i (node : Node), p.nodes[i]? = some node →
      (∀ child ∈ node.children, child < i) ∧
      ∃ s, Reads p.nodes i s ∧ s.kind = node.kind ∧ node.children.length = s.parts.length) ∧
    p.root + 1 = p.nodes.length ∧
    (p.nodes.flatMap Node.children).Perm (List.range p.root) ∧
    (∀ i, i < p.root →
      ∃! parent : Nat, ∃ node : Node, p.nodes[parent]? = some node ∧ i ∈ node.children) ∧
    (∀ s, Reads p.nodes p.root s ↔ s = body.skeleton) ∧
    p.nodes.length = body.skeleton.size := by
  intro p
  have hlays : Paths.Lays [] p.nodes [p.root] [body.skeleton] := Paths.addBlock_lays [] body
  have hroot : p.root + 1 = p.nodes.length := by
    obtain ⟨statements, span⟩ := body
    simp [p, Paths.ofBlock, Paths.addBlock, Paths.Layout.push]
  obtain ⟨added, hadded, hsize, hperm⟩ := hlays.grows
  rw [List.nil_append] at hadded
  rw [← hadded, ← hroot, List.length_nil, ← List.range_eq_range', List.range_succ] at hperm
  have hperm : (p.nodes.flatMap Node.children).Perm (List.range p.root) :=
    (hperm.trans List.perm_append_comm).cons_inv
  have hread : Reads p.nodes p.root body.skeleton := by
    cases hlays.reads with
    | cons h _ => exact h
  refine ⟨?_, hroot, hperm, ?_, ?_, ?_⟩
  · intro i node hnode
    obtain ⟨-, -, -, -, hbefore⟩ := body.laid.mirrors.node hnode
    obtain ⟨s, hs⟩ := hlays.readable i (Nat.zero_le i) (List.getElem?_eq_some_iff.1 hnode).1
    refine ⟨hbefore, s, hs, ?_⟩
    cases hs with
    | node hget hparts =>
      cases hget.symm.trans hnode
      exact ⟨rfl, hparts.length_eq⟩
  · intro i hi
    apply Paths.existsUnique_parent
    rw [hperm.count_eq]
    rw [List.nodup_range.count, if_pos (List.mem_range.2 hi)]
  · exact fun s => ⟨fun hs => hs.unique hread, fun hs => hs ▸ hread⟩
  · rw [hadded, hsize, Skeleton.sizes, Skeleton.sizes, Nat.add_zero]

end Slate
