import Telemetry.Agent.Samples

namespace Telemetry.Host

structure State where
  totalMemory : Binary64
  freeMemory : Binary64
  availableMemory : Binary64
  usedMemory : Binary64
  totalSwap : Binary64
  usedSwap : Binary64
  utilization : Binary64
  coreUtilization : List Binary64
  load1 : Binary64
  load5 : Binary64
  load15 : Binary64
  uptime : Binary64
  random : Binary64

def gauge (id : String) (reading : Binary64) : Metric := ⟨id, .gauge reading⟩

def memory (host : State) : List Metric := [
  gauge "TotalMemory" host.totalMemory, gauge "FreeMemory" host.freeMemory,
  gauge "AvailableMemory" host.availableMemory, gauge "UsedMemory" host.usedMemory,
  gauge "TotalSwap" host.totalSwap, gauge "UsedSwap" host.usedSwap]

def processors (host : State) : List Metric :=
  gauge "CPUutilization" host.utilization :: host.coreUtilization.zipIdx.map fun (reading, i) =>
    gauge ("CPUutilization" ++ toString (i + 1)) reading

def load (host : State) : List Metric := [
  gauge "LoadAverage1" host.load1, gauge "LoadAverage5" host.load5,
  gauge "LoadAverage15" host.load15, gauge "Uptime" host.uptime]

def control (host : State) : List Metric := [gauge "RandomValue" host.random]

/-- The collectors of an agent, over what the host shows at each sample. -/
def collectors (host : Nat → State) : List Collector :=
  [memory, processors, load, control].map fun read taken => read (host taken)

end Telemetry.Host
