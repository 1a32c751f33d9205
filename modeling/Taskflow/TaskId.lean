import Taskflow.Json.Value
set_option autoImplicit false

/-!
# Task identifiers

A task is known by a text. Texts are ordered by code points, which is the order of their UTF-8
bytes.

## Main definitions

* `TaskId` — the type.
* `TaskId.sort` — a list of identifiers in ascending order.
* `TaskId.join` — a list of identifiers as one text.
-/

namespace Taskflow

/-- The identifier of a task. -/
structure TaskId where
  text : String
  deriving Repr, DecidableEq, Inhabited, Hashable

namespace TaskId

/-- The order by code points. -/
def le (a b : TaskId) : Bool := a.text ≤ b.text

/-- The identifiers in ascending order; repetitions stay. -/
def sort (ids : List TaskId) : List TaskId := ids.mergeSort le

/-- The identifiers with commas between them. -/
def join (ids : List TaskId) : String := ", ".intercalate (ids.map (·.text))

/-- As JSON, a string. -/
def toJson (id : TaskId) : Json := .str id.text

end TaskId

end Taskflow
