import Telemetry.Bytes
import Telemetry.Metric.Basic

namespace Telemetry

structure Call where
  name : String
  value : Value
  metadata : List (String × Bytes) := []
  deriving Repr

def Call.tagName : String := "hashsha256"

/-- A value as it arrives: negative zero equals the default of its field. -/
def Value.carried : Value → Value
  | .gauge reading => .gauge reading.dropZeroSign
  | .counter total => .counter total

def Call.carried (call : Call) : Call := { call with value := call.value.carried }

end Telemetry
