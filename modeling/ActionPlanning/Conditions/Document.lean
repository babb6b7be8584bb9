import ActionPlanning.Conditions
import ActionPlanning.Document.File

/-!
# Conditions in documents

Conditions are written as a table of their values: flags, texts, and integers of 64 bits with a
sign. Nothing else is a value, not even an amount without a fraction. Where a table may repeat a
key, the last entry counts.
-/

namespace ActionPlanning

/-- The value that a document stands for. -/
def Condition.Value.ofDocument? : Document → Option Condition.Value
  | .flag value => some (.flag value)
  | .integer value =>
    if Document.isSigned value then some (.number (Int64.ofInt value)) else none
  | .text value => some (.text value)
  | _ => none

namespace Conditions

/-- The conditions that a document stands for. -/
def ofDocument? : Document → Option Conditions
  | .table entries => do
    let entries ← entries.mapM fun (key, value) =>
      (Condition.Value.ofDocument? value).map (Condition.mk key)
    return ofList entries
  | _ => none

/-- Reads conditions from a text. -/
def read (format : Format) (text : String) : Except Failure Conditions :=
  match format.read? text >>= ofDocument? with
  | some conditions => .ok conditions
  | none => .error (.config .unreadable)

end Conditions

end ActionPlanning
