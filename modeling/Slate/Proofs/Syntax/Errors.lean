-- SUMMARY: The error nodes of a program and its blocks, at any depth and in the order of the tree.
import Slate.Syntax

/-!
# Error nodes and blocks of a program

A statement that could not be read stays in the tree, in the statements of the program or
of a block at any depth. The error nodes of a program are all of these together, in the
order in which they stand, and so are its blocks: the bodies of functions, branches and
loops no less than the blocks that are statements. A block stands before those inside it.
-/

namespace Slate

/-- What an error node says: the token where reading stopped, why it did, and where. -/
structure ErrorNode where
  text : String
  reason : String
  span : Span
deriving DecidableEq, Repr

/-! ## Error nodes -/

mutual

/-- The error nodes of a statement. -/
def Stmt.errors : Stmt → List ErrorNode
  | .error text reason span => [⟨text, reason, span⟩]
  | .function _ _ _ body _ | .whileLoop _ body _ | .block body => body.errors
  | .ifChain branches none _ => branchErrors branches
  | .ifChain branches (some body) _ => branchErrors branches ++ body.errors
  | _ => []

/-- The error nodes of a block. -/
def Block.errors : Block → List ErrorNode
  | .mk statements _ => statementErrors statements

/-- The error nodes of statements. -/
def statementErrors : List Stmt → List ErrorNode
  | [] => []
  | s :: ss => s.errors ++ statementErrors ss

/-- The error nodes of the branches of an `if` chain. -/
def branchErrors : List Branch → List ErrorNode
  | [] => []
  | .mk _ body _ :: branches => body.errors ++ branchErrors branches

end

/-- The error nodes of a program. -/
def Program.errors (p : Program) : List ErrorNode := statementErrors p.statements

/-! ## Blocks -/

mutual

/-- The blocks of a statement. -/
def Stmt.blocks : Stmt → List Block
  | .function _ _ _ body _ | .whileLoop _ body _ | .block body => body.blocks
  | .ifChain branches none _ => branchBlocks branches
  | .ifChain branches (some body) _ => branchBlocks branches ++ body.blocks
  | _ => []

/-- A block and those inside it. -/
def Block.blocks : Block → List Block
  | .mk statements span => .mk statements span :: statementBlocks statements

/-- The blocks of statements. -/
def statementBlocks : List Stmt → List Block
  | [] => []
  | s :: ss => s.blocks ++ statementBlocks ss

/-- The blocks of the branches of an `if` chain. -/
def branchBlocks : List Branch → List Block
  | [] => []
  | .mk _ body _ :: branches => body.blocks ++ branchBlocks branches

end

/-- The blocks of a program. -/
def Program.blocks (p : Program) : List Block := statementBlocks p.statements

/-! ## Lists of statements -/

/-- The lists of statements of a program: its own, and one for each block. -/
def Program.lists (p : Program) : List (List Stmt) :=
  p.statements :: p.blocks.map Block.statements

/-- A statement as an error node, if it is one itself. -/
def Stmt.errorNode? : Stmt → Option ErrorNode
  | .error text reason span => some ⟨text, reason, span⟩
  | _ => none

/-- The error nodes among statements are some of those in them. -/
theorem filterMap_errorNode_sublist (list : List Stmt) :
    (list.filterMap Stmt.errorNode?).Sublist (statementErrors list) := by
  induction list with
  | nil => exact .slnil
  | cons first others ih =>
    cases first with
    | error text reason span => exact ih.cons_cons _
    | _ => exact ih.trans (List.sublist_append_right _ _)

mutual

theorem Stmt.errors_sublist : ∀ (stmt : Stmt), ∀ b ∈ stmt.blocks, b.errors.Sublist stmt.errors
  | .function _ _ _ body _, b, hb | .whileLoop _ body _, b, hb | .block body, b, hb =>
    body.errors_sublist b hb
  | .ifChain branches none _, b, hb => branchErrors_sublist branches b hb
  | .ifChain branches (some body) _, b, hb => by
    rcases List.mem_append.1 hb with hb | hb
    · exact (branchErrors_sublist branches b hb).trans (List.sublist_append_left _ _)
    · exact (body.errors_sublist b hb).trans (List.sublist_append_right _ _)
  | .needs .., _, hb | .declare .., _, hb | .define .., _, hb | .assign .., _, hb | .ret .., _, hb
  | .breakLoop _, _, hb | .continueLoop _, _, hb | .expression .., _, hb | .error .., _, hb => by
    cases hb

theorem Block.errors_sublist : ∀ (body : Block), ∀ b ∈ body.blocks, b.errors.Sublist body.errors
  | .mk list span, b, hb => by
    rcases List.mem_cons.1 hb with rfl | hb
    · exact List.Sublist.refl _
    · exact statementErrors_sublist list b hb

/-- The error nodes of a block are some of those of the statements that it stands in, in the
same order. -/
theorem statementErrors_sublist : ∀ (list : List Stmt), ∀ b ∈ statementBlocks list,
    b.errors.Sublist (statementErrors list)
  | first :: others, b, hb => by
    rcases List.mem_append.1 hb with hb | hb
    · exact (first.errors_sublist b hb).trans (List.sublist_append_left _ _)
    · exact (statementErrors_sublist others b hb).trans (List.sublist_append_right _ _)

theorem branchErrors_sublist : ∀ (branches : List Branch), ∀ b ∈ branchBlocks branches,
    b.errors.Sublist (branchErrors branches)
  | .mk _ body _ :: branches, b, hb => by
    rcases List.mem_append.1 hb with hb | hb
    · exact (body.errors_sublist b hb).trans (List.sublist_append_left _ _)
    · exact (branchErrors_sublist branches b hb).trans (List.sublist_append_right _ _)

end

/-- The error nodes in one list of statements are some of those of the whole program, in the
same order. -/
theorem Program.list_sublist (p : Program) {list : List Stmt} (h : list ∈ p.lists) :
    (list.filterMap Stmt.errorNode?).Sublist p.errors := by
  rcases List.mem_cons.1 h with rfl | h
  · exact filterMap_errorNode_sublist _
  · obtain ⟨⟨list, span⟩, hb, rfl⟩ := List.mem_map.1 h
    exact (filterMap_errorNode_sublist _).trans (statementErrors_sublist p.statements _ hb)

end Slate
