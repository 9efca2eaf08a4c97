-- SUMMARY: Whether every path through a block ends in a return, decided on a flat tree of its control flow.
import Slate.Syntax

/-!
# Paths of control

Of a block only the statements that steer control are kept: returns, nested
blocks, `if` chains and loops. They make up a tree, laid out in a list with every
node behind its children, so that one pass from the front settles for each node
whether all paths through it return. A loop is taken to run its body, and an `if`
without `else` never counts.
-/

namespace Slate.Paths

/-! ## The tree -/

/-- The kinds of nodes. -/
inductive Kind where
  | block
  | ifChain (hasElse : Bool)
  | loop
  | ret
deriving DecidableEq, Repr

/-- A node: its kind and the positions of its children. -/
structure Node where
  kind : Kind
  children : List Nat
deriving DecidableEq, Repr

/-- The nodes laid out so far. -/
abbrev Layout := List Node

/-- Lays out a node behind the others, and yields its position. -/
def Layout.push (l : Layout) (kind : Kind) (children : List Nat) : Nat × Layout :=
  (l.length, l ++ [⟨kind, children⟩])

mutual

/-- Lays out a block behind its children. -/
def addBlock (l : Layout) : Block → Nat × Layout
  | .mk statements _ =>
    let (children, l) := addStatements l statements
    l.push .block children

/-- Lays out those of the statements that steer control, in their order. -/
def addStatements (l : Layout) : List Stmt → List Nat × Layout
  | [] => ([], l)
  | s :: ss =>
    let (node, l) := addStatement l s
    let (nodes, l) := addStatements l ss
    (node.toList ++ nodes, l)

/-- Lays out a statement if it steers control. A function inside a block does not. -/
def addStatement (l : Layout) : Stmt → Option Nat × Layout
  | .ret .. =>
    let (node, l) := l.push .ret []
    (some node, l)
  | .block body =>
    let (node, l) := addBlock l body
    (some node, l)
  | .ifChain branches none _ =>
    let (children, l) := addBranches l branches
    let (node, l) := l.push (.ifChain false) children
    (some node, l)
  | .ifChain branches (some otherwise) _ =>
    let (children, l) := addBranches l branches
    let (last, l) := addBlock l otherwise
    let (node, l) := l.push (.ifChain true) (children ++ [last])
    (some node, l)
  | .whileLoop _ body _ =>
    let (child, l) := addBlock l body
    let (node, l) := l.push .loop [child]
    (some node, l)
  | _ => (none, l)

/-- Lays out the blocks of the branches of an `if` chain. -/
def addBranches (l : Layout) : List Branch → List Nat × Layout
  | [] => ([], l)
  | .mk _ body _ :: rest =>
    let (node, l) := addBlock l body
    let (nodes, l) := addBranches l rest
    (node :: nodes, l)

end

/-! ## Verdicts -/

/-- Whether the node at a position is an `if` without `else`. -/
def isOpenIf (nodes : List Node) (i : Nat) : Bool :=
  nodes[i]?.map Node.kind == some (.ifChain false)

/-- Whether all paths through a node return, given the verdicts of the nodes
before it. -/
def verdict (nodes : List Node) (settled : List Bool) (node : Node) : Bool :=
  let returns (i : Nat) : Bool := settled[i]?.getD false
  match node.kind with
  | .ret => true
  | .ifChain hasElse => hasElse && node.children.all returns
  | .block | .loop =>
    match node.children with
    | [] => false
    | [only] => returns only
    | children => (children.filter fun i => !isOpenIf nodes i).any returns

/-- The verdicts of all nodes, in their order. -/
def settle (nodes : List Node) : List Bool :=
  nodes.foldl (fun settled node => settled ++ [verdict nodes settled node]) []

end Paths

/-- The control flow of a block: the nodes, their verdicts, and the position of
the node for the block itself. -/
structure Paths where
  nodes : List Paths.Node
  verdicts : List Bool
  root : Nat
deriving Repr

namespace Paths

/-- The control flow of a block. -/
def ofBlock (body : Block) : Paths :=
  let (root, nodes) := addBlock [] body
  { nodes, verdicts := settle nodes, root }

/-- Whether all paths through a node return. -/
def returns (p : Paths) (i : Nat) : Bool := p.verdicts[i]?.getD false

/-- The control flow as a nested tree, with the verdict of each node. -/
inductive Tree where
  | node (kind : Kind) (returns : Bool) (children : List Tree)
deriving Repr

/-- The tree below a position. Children stand before their parent. -/
def treeAt (p : Paths) (i : Nat) : Tree :=
  match p.nodes[i]? with
  | none => .node .block false []
  | some node =>
    let below := node.children.filter (· < i)
    .node node.kind (p.returns i) (below.attach.map fun ⟨j, _⟩ => p.treeAt j)
termination_by i
decreasing_by simp_all [below]

/-- The whole tree. -/
def tree (p : Paths) : Tree := p.treeAt p.root

end Paths

/-- Whether every path through a block ends in a return. -/
def Block.returnsOnAllPaths (body : Block) : Bool :=
  let p := Paths.ofBlock body
  p.returns p.root

end Slate
