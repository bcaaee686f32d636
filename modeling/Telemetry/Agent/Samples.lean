import Telemetry.Metric.Basic
import Telemetry.Table

namespace Telemetry

def pollCount : String := "PollCount"

structure Samples where
  gauges : Table String Binary64 := .empty
  /-- Counted in the 64 bits of a counter. -/
  pending : Int64 := 0

namespace Samples

def enter (gauges : Table String Binary64) (m : Metric) : Table String Binary64 :=
  match m.value with
  | .gauge reading => gauges.put m.id reading
  | .counter _ => gauges

def record (samples : Samples) (readings : List Metric) : Samples :=
  ⟨readings.foldl enter samples.gauges, samples.pending + 1⟩

/-- Every gauge in ascending order of ids, then the count of samples if there are any. -/
def report (samples : Samples) : List Metric :=
  samples.gauges.entries.map (fun (id, reading) => ⟨id, .gauge reading⟩)
    ++ if 0 < samples.pending then [⟨pollCount, .counter samples.pending⟩] else []

/-- What is left when a report is taken: the gauges, and a count that was not reported. -/
def reported (samples : Samples) : Samples :=
  { samples with pending := if 0 < samples.pending then 0 else samples.pending }

end Samples

/-- A source of readings: what it reads at each sample, counted from zero. -/
abbrev Collector := Nat → List Metric

structure Sampler where
  collectors : List Collector
  taken : Nat := 0
  samples : Samples := {}

namespace Sampler

def sample (sampler : Sampler) : Sampler :=
  { sampler with
    taken := sampler.taken + 1
    samples := sampler.samples.record (sampler.collectors.flatMap (· sampler.taken)) }

def takeReport (sampler : Sampler) : List Metric × Sampler :=
  (sampler.samples.report, { sampler with samples := sampler.samples.reported })

end Sampler
end Telemetry
