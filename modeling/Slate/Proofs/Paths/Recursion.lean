-- SUMMARY: The verdict read off the flat tree of a block is the one that plain recursion over its statements finds.
import Slate.Paths

/-!
# Verdicts by recursion

Whether a statement returns on all paths can be asked of the statement itself:
`Stmt.alwaysReturns` answers by recursion on its structure, without a tree. The nodes of
the flat tree stand for the statements that steer control, one for each and each behind
those inside of it, so the pass over them finds the same answer for every node. Its
special cases for few children and for an `if` without `else` never matter, because such
an `if` is settled as not returning before anyone asks for it.
-/

namespace Slate

/-! ## Recursion over statements -/

mutual

/-- Whether all paths through a statement return: an `if` needs an `else`, a loop is
taken to run its body, and a function only defines one. -/
def Stmt.alwaysReturns : Stmt → Bool
  | .ret .. => true
  | .block body => body.alwaysReturns
  | .ifChain branches (some otherwise) _ =>
    allBranchesReturn branches && otherwise.alwaysReturns
  | .whileLoop _ body _ => body.alwaysReturns
  | _ => false

/-- A block returns if one of its statements does. -/
def Block.alwaysReturns : Block → Bool
  | .mk statements _ => someReturns statements

def someReturns : List Stmt → Bool
  | [] => false
  | s :: ss => s.alwaysReturns || someReturns ss

def allBranchesReturn : List Branch → Bool
  | [] => true
  | .mk _ body _ :: branches => body.alwaysReturns && allBranchesReturn branches

end

namespace Paths

/-! ## Verdicts without special cases -/

/-- Whether all paths through a node return, by its kind alone. -/
def plainVerdict (settled : List Bool) (node : Node) : Bool :=
  let returns (i : Nat) : Bool := settled[i]?.getD false
  match node.kind with
  | .ret => true
  | .ifChain hasElse => hasElse && node.children.all returns
  | .block | .loop => node.children.any returns

/-- The verdicts of all nodes, by their kinds alone. -/
def plainSettle (nodes : List Node) : List Bool :=
  nodes.foldl (fun settled node => settled ++ [plainVerdict settled node]) []

/-- An `if` without `else` can be left out of those asked, if none is settled as
returning. -/
theorem any_filter_isOpenIf {nodes : List Node} {settled : List Bool}
    (hopen : ∀ i, isOpenIf nodes i = true → settled[i]?.getD false = false) (children : List Nat) :
    (children.filter fun i => !isOpenIf nodes i).any (fun i => settled[i]?.getD false) =
      children.any fun i => settled[i]?.getD false := by
  induction children with
  | nil => rfl
  | cons i children ih =>
    rw [List.any_cons, ← ih]
    by_cases hi : isOpenIf nodes i = true
    · rw [List.filter_cons_of_neg (by simp [hi]), hopen i hi, Bool.false_or]
    · rw [List.filter_cons_of_pos (by simpa using hi), List.any_cons]

theorem verdict_eq_plainVerdict {nodes : List Node} {settled : List Bool}
    (hopen : ∀ i, isOpenIf nodes i = true → settled[i]?.getD false = false) (node : Node) :
    verdict nodes settled node = plainVerdict settled node := by
  obtain ⟨kind, children⟩ := node
  cases kind with
  | ret | ifChain => rfl
  | block | loop =>
    simp only [verdict, plainVerdict]
    match children with
    | [] => rfl
    | [only] => simp
    | first :: second :: more => exact any_filter_isOpenIf hopen _

/-- The pass over the nodes, once those in front are settled: an open `if` among them
is settled as not returning. -/
theorem foldl_verdict {nodes : List Node} (front : List Node) {back : List Node}
    (hnodes : nodes = front ++ back) :
    ∀ {settled : List Bool}, settled.length = front.length →
      (∀ i, isOpenIf nodes i = true → settled[i]?.getD false = false) →
      back.foldl (fun settled node => settled ++ [verdict nodes settled node]) settled =
        back.foldl (fun settled node => settled ++ [plainVerdict settled node]) settled := by
  induction back generalizing front with
  | nil => intros; rfl
  | cons node back ih =>
    intro settled hlength hopen
    rw [List.foldl_cons, List.foldl_cons, verdict_eq_plainVerdict hopen]
    apply ih (front ++ [node]) (by simpa using hnodes)
    · simp [hlength]
    · -- the node settled now is the only new one that could be an open `if`
      intro i hi
      rcases Nat.lt_trichotomy i settled.length with hlt | rfl | hgt
      · rw [List.getElem?_append_left hlt]
        exact hopen i hi
      · have hkind : node.kind = .ifChain false := by
          simpa [isOpenIf, hnodes, hlength] using hi
        simp [plainVerdict, hkind]
      · rw [List.getElem?_eq_none (by simp; omega)]
        rfl

theorem settle_eq_plainSettle (nodes : List Node) : settle nodes = plainSettle nodes :=
  foldl_verdict [] rfl rfl (fun _ _ => rfl)

end Paths

/-! ## Statements that have nodes -/

/-- The kind of node that a statement gets, if it steers control. -/
def Stmt.kind? : Stmt → Option Paths.Kind
  | .ret .. => some .ret
  | .block _ => some .block
  | .ifChain _ otherwise _ => some (.ifChain otherwise.isSome)
  | .whileLoop .. => some .loop
  | _ => none

/-- The statements right inside of one, as far as they have nodes. The bodies of branches and
loops are taken as block statements. -/
def Stmt.inner : Stmt → List Stmt
  | .block body => body.statements.filter (·.kind?.isSome)
  | .ifChain branches otherwise _ =>
    branches.map (fun branch => .block branch.body) ++ (otherwise.map .block).toList
  | .whileLoop _ body _ => [.block body]
  | _ => []

mutual

/-- A statement and those inside of it, as far as they have nodes, in the order of the
nodes: what is inside of a statement comes before it. -/
def Stmt.mirrored : Stmt → List Stmt
  | .ret value span => [.ret value span]
  | .block body => body.mirrored
  | .ifChain branches none span => branchesMirrored branches ++ [.ifChain branches none span]
  | .ifChain branches (some otherwise) span =>
    branchesMirrored branches ++ otherwise.mirrored ++ [.ifChain branches (some otherwise) span]
  | .whileLoop test body span => body.mirrored ++ [.whileLoop test body span]
  | _ => []

/-- A block, as a statement, behind the statements inside of it. -/
def Block.mirrored : Block → List Stmt
  | .mk statements span => allMirrored statements ++ [.block (.mk statements span)]

def allMirrored : List Stmt → List Stmt
  | [] => []
  | s :: ss => s.mirrored ++ allMirrored ss

def branchesMirrored : List Branch → List Stmt
  | [] => []
  | .mk _ body _ :: branches => body.mirrored ++ branchesMirrored branches

end

/-- A statement without a node does not return. -/
theorem Stmt.alwaysReturns_of_kind?_eq_none (stmt : Stmt) (h : stmt.kind? = none) :
    stmt.alwaysReturns = false := by
  cases stmt <;> first | rfl | cases h

theorem someReturns_eq (statements : List Stmt) :
    someReturns statements = (statements.filter (·.kind?.isSome)).any Stmt.alwaysReturns := by
  induction statements with
  | nil => rfl
  | cons stmt statements ih =>
    rw [someReturns, ih, List.filter_cons]
    cases hkind : stmt.kind? with
    | none => simp [stmt.alwaysReturns_of_kind?_eq_none hkind]
    | some kind => simp

theorem allBranchesReturn_eq (branches : List Branch) :
    allBranchesReturn branches = branches.all (·.body.alwaysReturns) := by
  induction branches with
  | nil => rfl
  | cons branch branches ih =>
    obtain ⟨test, body, span⟩ := branch
    rw [allBranchesReturn, ih]
    rfl

namespace Paths

/-! ## Positions of statements -/

/-- At the positions in a list of statements stand the targets. -/
def Points (stmts : List Stmt) (positions : List Nat) (targets : List Stmt) : Prop :=
  positions.map (stmts[·]?) = targets.map some

namespace Points

variable {stmts targets targets' : List Stmt} {positions positions' : List Nat}

theorem lt_length (h : Points stmts positions targets) : ∀ i ∈ positions, i < stmts.length := by
  intro i hi
  have hmem : stmts[i]? ∈ targets.map some := h ▸ List.mem_map_of_mem hi
  obtain ⟨stmt, -, hstmt⟩ := List.mem_map.1 hmem
  exact (List.getElem?_eq_some_iff.1 hstmt.symm).1

/-- Statements behind the others do not move these. -/
theorem append_right (h : Points stmts positions targets) (more : List Stmt) :
    Points (stmts ++ more) positions targets := by
  rw [Points, ← h]
  exact List.map_congr_left fun i hi => List.getElem?_append_left (h.lt_length i hi)

theorem append (h : Points stmts positions targets) (h' : Points stmts positions' targets') :
    Points stmts (positions ++ positions') (targets ++ targets') := by
  rw [Points, List.map_append, List.map_append, h, h']

/-- What a list says of the statements, it says of the targets at their positions. -/
theorem map_getD (h : Points stmts positions targets) (f : Stmt → Bool) :
    positions.map (fun i => (stmts.map f)[i]?.getD false) = targets.map f := by
  have hmap := congrArg (List.map fun stmt? => (stmt?.map f).getD false) h
  simpa [Function.comp_def] using hmap

end Points

/-! ## Layouts of statements -/

/-- Nodes for statements, one for each: a node has the kind of its statement, and its
children, all before it, are the nodes of the statements right inside. -/
inductive Mirrors : Layout → List Stmt → Prop where
  | nil : Mirrors [] []
  | push {l : Layout} {stmts : List Stmt} {stmt : Stmt} {kind : Kind} {children : List Nat} :
      Mirrors l stmts → stmt.kind? = some kind → Points stmts children stmt.inner →
      Mirrors (l ++ [⟨kind, children⟩]) (stmts ++ [stmt])

theorem Mirrors.length_eq {l : Layout} {stmts : List Stmt} (h : Mirrors l stmts) :
    l.length = stmts.length := by
  induction h with
  | nil => rfl
  | push _ _ _ ih => simp [ih]

/-- Nodes for statements, with the positions of some of them. -/
structure Laid (l : Layout) (stmts : List Stmt) (positions : List Nat) (targets : List Stmt) :
    Prop where
  mirrors : Mirrors l stmts
  points : Points stmts positions targets

namespace Laid

variable {l l' : Layout} {stmts more targets targets' : List Stmt} {positions positions' : List Nat}

theorem nothing (h : Mirrors l stmts) : Laid l (stmts ++ []) [] [] where
  mirrors := by rwa [List.append_nil]
  points := rfl

theorem push {stmt : Stmt} {kind : Kind} {children : List Nat}
    (h : Laid l stmts children stmt.inner) (hkind : stmt.kind? = some kind) :
    Laid (l.push kind children).2 (stmts ++ [stmt]) [(l.push kind children).1] [stmt] where
  mirrors := h.mirrors.push hkind h.points
  points := by simp [Points, Layout.push, h.mirrors.length_eq]

theorem append (h : Laid l stmts positions targets)
    (h' : Laid l' (stmts ++ more) positions' targets') :
    Laid l' (stmts ++ more) (positions ++ positions') (targets ++ targets') where
  mirrors := h'.mirrors
  points := (h.points.append_right more).append h'.points

end Laid

/-! ## Laying out -/

mutual

theorem addBlock_laid {l : Layout} {stmts : List Stmt} (h : Mirrors l stmts) : (body : Block) →
    Laid (addBlock l body).2 (stmts ++ body.mirrored) [(addBlock l body).1] [.block body]
  | .mk statements span => by
    rw [Block.mirrored, ← List.append_assoc]
    exact (addStatements_laid h statements).push rfl

theorem addStatements_laid {l : Layout} {stmts : List Stmt} (h : Mirrors l stmts) :
    (statements : List Stmt) →
      Laid (addStatements l statements).2 (stmts ++ allMirrored statements)
        (addStatements l statements).1 (statements.filter (·.kind?.isSome))
  | [] => .nothing h
  | stmt :: statements => by
    have hfirst := addStatement_laid h stmt
    have hrest := addStatements_laid hfirst.mirrors statements
    rw [allMirrored, ← List.append_assoc, ← List.singleton_append, List.filter_append]
    exact hfirst.append hrest

theorem addStatement_laid {l : Layout} {stmts : List Stmt} (h : Mirrors l stmts) :
    (stmt : Stmt) →
      Laid (addStatement l stmt).2 (stmts ++ stmt.mirrored) (addStatement l stmt).1.toList
        ([stmt].filter (·.kind?.isSome))
  | .ret value span => .push ⟨h, rfl⟩ rfl
  | .block body => addBlock_laid h body
  | .ifChain branches none span => by
    rw [Stmt.mirrored, ← List.append_assoc]
    have hbranches := addBranches_laid h branches
    rw [← List.append_nil (branches.map _)] at hbranches
    exact hbranches.push rfl
  | .ifChain branches (some otherwise) span => by
    have hbranches := addBranches_laid h branches
    have hotherwise := addBlock_laid hbranches.mirrors otherwise
    rw [Stmt.mirrored, ← List.append_assoc, ← List.append_assoc]
    exact (hbranches.append hotherwise).push rfl
  | .whileLoop test body span => by
    rw [Stmt.mirrored, ← List.append_assoc]
    exact (addBlock_laid h body).push rfl
  | .needs .. | .declare .. | .define .. | .assign .. | .function .. | .breakLoop _
  | .continueLoop _ | .expression .. | .error .. => .nothing h

theorem addBranches_laid {l : Layout} {stmts : List Stmt} (h : Mirrors l stmts) :
    (branches : List Branch) →
      Laid (addBranches l branches).2 (stmts ++ branchesMirrored branches)
        (addBranches l branches).1 (branches.map fun branch => .block branch.body)
  | [] => .nothing h
  | .mk _ body _ :: branches => by
    have hfirst := addBlock_laid h body
    have hrest := addBranches_laid hfirst.mirrors branches
    rw [branchesMirrored, ← List.append_assoc]
    exact hfirst.append hrest

end

/-! ## Verdicts of a layout -/

theorem plainVerdict_any {settled : List Bool} {kind : Kind} (hkind : kind = .block ∨ kind = .loop)
    (children : List Nat) :
    plainVerdict settled ⟨kind, children⟩ =
      (children.map fun i => settled[i]?.getD false).any id := by
  rcases hkind with rfl | rfl <;> simp only [plainVerdict, List.any_map] <;> rfl

theorem plainVerdict_all {settled : List Bool} (hasElse : Bool) (children : List Nat) :
    plainVerdict settled ⟨.ifChain hasElse, children⟩ =
      (hasElse && (children.map fun i => settled[i]?.getD false).all id) := by
  simp only [plainVerdict, List.all_map]
  rfl

theorem plainSettle_push (l : Layout) (node : Node) :
    plainSettle (l ++ [node]) = plainSettle l ++ [plainVerdict (plainSettle l) node] := by
  simp [plainSettle, List.foldl_append]

/-- If the nodes before it have the verdicts of their statements, so has this one. -/
theorem plainVerdict_eq_alwaysReturns {stmts : List Stmt} {stmt : Stmt} {kind : Kind}
    {children : List Nat} (hkind : stmt.kind? = some kind)
    (hpoints : Points stmts children stmt.inner) :
    plainVerdict (stmts.map Stmt.alwaysReturns) ⟨kind, children⟩ = stmt.alwaysReturns := by
  have hreturns := hpoints.map_getD Stmt.alwaysReturns
  cases stmt <;> cases hkind
  case ret => rfl
  case block body =>
    obtain ⟨statements, span⟩ := body
    rw [plainVerdict_any (.inl rfl), hreturns, List.any_map]
    exact (someReturns_eq statements).symm
  case ifChain branches otherwise span =>
    rw [plainVerdict_all, hreturns, List.all_map]
    cases otherwise with
    | none => rfl
    | some otherwise =>
      simp [Stmt.inner, Stmt.alwaysReturns, allBranchesReturn_eq, List.all_map, Function.comp_def]
  case whileLoop test body span =>
    rw [plainVerdict_any (.inr rfl), hreturns]
    simp [Stmt.inner, Stmt.alwaysReturns]

/-- The pass settles every node as recursion settles its statement. -/
theorem Mirrors.plainSettle_eq {l : Layout} {stmts : List Stmt} (h : Mirrors l stmts) :
    plainSettle l = stmts.map Stmt.alwaysReturns := by
  induction h with
  | nil => rfl
  | push _ hkind hpoints ih =>
    rw [plainSettle_push, ih, plainVerdict_eq_alwaysReturns hkind hpoints, List.map_append]
    rfl

/-- What the pass goes by when it comes to a node. -/
theorem Mirrors.node {l : Layout} {stmts : List Stmt} (h : Mirrors l stmts) :
    ∀ {i : Nat} {node : Node}, l[i]? = some node →
      ∃ stmt, stmts[i]? = some stmt ∧ stmt.kind? = some node.kind ∧
        Points stmts node.children stmt.inner ∧ ∀ child ∈ node.children, child < i := by
  induction h with
  | nil => simp
  | @push l stmts stmt kind children hmirrors hkind hpoints ih =>
    intro i node hnode
    by_cases hi : i < l.length
    · rw [List.getElem?_append_left hi] at hnode
      obtain ⟨stmt', hstmt, hkind', hpoints', hbefore⟩ := ih hnode
      exact ⟨stmt', by rw [List.getElem?_append_left (hmirrors.length_eq ▸ hi), hstmt], hkind',
        hpoints'.append_right _, hbefore⟩
    · have hi' : i = l.length := by
        have := (List.getElem?_eq_some_iff.1 hnode).1
        simp only [List.length_append, List.length_singleton] at this
        omega
      subst hi'
      rw [List.getElem?_concat_length] at hnode
      cases hnode
      refine ⟨stmt, by rw [hmirrors.length_eq, List.getElem?_concat_length], hkind,
        hpoints.append_right _, ?_⟩
      rw [hmirrors.length_eq]
      exact hpoints.lt_length

end Paths

/-! ## The flat tree of a block -/

theorem Block.laid (body : Block) :
    Paths.Laid (Paths.ofBlock body).nodes body.mirrored [(Paths.ofBlock body).root]
      [.block body] :=
  Paths.addBlock_laid .nil body

/-- The verdicts are those that recursion finds for the statements that have nodes. -/
theorem Block.verdicts_eq (body : Block) :
    (Paths.ofBlock body).verdicts = body.mirrored.map Stmt.alwaysReturns := by
  rw [← body.laid.mirrors.plainSettle_eq]
  exact Paths.settle_eq_plainSettle _

/-- The pass over the flat tree of a block finds what recursion over the block finds. -/
theorem Block.returnsOnAllPaths_eq (body : Block) :
    body.returnsOnAllPaths = body.alwaysReturns := by
  have hroot : body.mirrored[(Paths.ofBlock body).root]? = some (.block body) :=
    List.head_eq_of_cons_eq body.laid.points
  rw [Block.returnsOnAllPaths, Paths.returns, body.verdicts_eq, List.getElem?_map, hroot]
  rfl

/-- Every node of the flat tree stands for a statement of the block: it is of the
statement's kind, and its children, which are all before it, stand for the statements right
inside. Its verdict is the one that recursion finds for that statement, and the pass that
settles them in their order would find the same without its cases for few children and for
an `if` without `else`. -/
theorem verdicts_by_recursion (body : Block) :
    let p := Paths.ofBlock body
    p.nodes.length = body.mirrored.length ∧ body.mirrored[p.root]? = some (.block body) ∧
    (∀ i node, p.nodes[i]? = some node →
      ∃ stmt, body.mirrored[i]? = some stmt ∧ stmt.kind? = some node.kind ∧
        Paths.Points body.mirrored node.children stmt.inner ∧
        (∀ child ∈ node.children, child < i) ∧ p.returns i = stmt.alwaysReturns) ∧
    p.verdicts = Paths.plainSettle p.nodes := by
  intro p
  refine ⟨body.laid.mirrors.length_eq, List.head_eq_of_cons_eq body.laid.points, ?_,
    Paths.settle_eq_plainSettle _⟩
  intro i node hnode
  obtain ⟨stmt, hstmt, hkind, hpoints, hbefore⟩ := body.laid.mirrors.node hnode
  refine ⟨stmt, hstmt, hkind, hpoints, hbefore, ?_⟩
  rw [Paths.returns, body.verdicts_eq, List.getElem?_map, hstmt]
  rfl

end Slate
