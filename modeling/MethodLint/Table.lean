import MethodLint.Tree

/-!
# Tables as trees

A host that keeps its own tree can answer the questions of the lint from a
plain table.  A row says what is known of one node; of several rows for one
node only the first counts.
-/

namespace MethodLint

/-- What a host knows about one node. -/
structure TableRow where
  id : NodeId
  kind : Option NodeKind
  parent : Option NodeId
  callee : Option NodeId
  span : Option Span
deriving DecidableEq

/-- The rows of a host, in their order. -/
structure Table where
  rows : List TableRow
deriving DecidableEq

namespace Table

/-- The first row about a node. -/
def row? (table : Table) (id : NodeId) : Option TableRow :=
  table.rows.find? fun row => row.id = id

def tree (table : Table) : Tree where
  kind id := (table.row? id).bind TableRow.kind
  parent id := (table.row? id).bind TableRow.parent
  callee id := (table.row? id).bind TableRow.callee
  span id := (table.row? id).bind TableRow.span

end Table

end MethodLint
