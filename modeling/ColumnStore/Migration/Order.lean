-- The order of a migration's operations: a table is created before the
-- operations that need it. Operations whose tables are all there form a layer
-- and keep their order in it; what is left waits in a circle.
import ColumnStore.Environment
import ColumnStore.Migration.Operation

namespace ColumnStore

namespace Operation

/-- The position of the first operation that creates the table. -/
def creator? (operations : List Operation) (table : String) : Option Nat :=
  operations.findIdx? (·.creates? = some table)

/-- The positions of the operations that have to come before the one at `i`. -/
def blockers (m : Model) (operations : List Operation) (i : Nat) : List Nat :=
  match operations[i]? with
  | none => []
  | some o => ((o.needs m).filterMap (creator? operations)).filter (· ≠ i)

/-- Whether nothing that is not placed yet has to come before the operation at `i`. -/
def isReady (m : Model) (operations : List Operation) (placed : List Nat) (i : Nat) : Bool :=
  (blockers m operations i).all placed.contains

/-- Places ready operations layer by layer; `steps` bounds the number of layers. -/
def layered (m : Model) (operations : List Operation) : Nat → List Nat → List Nat → List Nat
  | 0, placed, _ => placed
  | steps + 1, placed, waiting =>
    let ready := waiting.filter (isReady m operations placed)
    if ready.isEmpty then placed
    else layered m operations steps (placed ++ ready)
      (waiting.filter fun i => !isReady m operations placed i)

/-- The positions of the operations that can be ordered, in their order. -/
def placed (m : Model) (operations : List Operation) : List Nat :=
  layered m operations operations.length [] (List.range operations.length)

/-- The positions of the operations that wait for one another, as given. -/
def circular (m : Model) (operations : List Operation) : List Nat :=
  let done := placed m operations
  (List.range operations.length).filter (!done.contains ·)

/-- The positions of all operations in the order in which they run. -/
def order (m : Model) (policy : CyclePolicy) (operations : List Operation) : Outcome (List Nat) :=
  let rest := circular m operations
  if rest.isEmpty then .ok (placed m operations)
  else
    match policy with
    | .fail => .error (.circular (rest.filterMap fun i => operations[i]?.bind table?))
    | .preserveOrder => .ok (placed m operations ++ rest)

/-- The operations in the order in which they run. -/
def sort (m : Model) (policy : CyclePolicy) (operations : List Operation) :
    Outcome (List Operation) := do
  return (← order m policy operations).filterMap (operations[·]?)

end Operation

end ColumnStore
