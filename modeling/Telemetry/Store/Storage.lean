import Telemetry.Json.Reader
import Telemetry.Metric.Basic

namespace Telemetry

inductive StoreFault where
  | notFound (key : Key)
  | invalid (reason : Invalid)
  | overflow (id : String)
  | database
  | unavailable (attempts : Nat)
  | snapshotFile (path : String)
  | snapshotFormat (fault : Json.Fault)
  deriving DecidableEq, Repr

def StoreFault.message? : StoreFault → Option String
  | notFound key => some ("Storage: " ++ key.kind.name ++ " '" ++ key.id ++ "' not found")
  | invalid reason => some ("Storage: invalid metric: " ++ reason.message)
  | overflow id => some ("Storage: counter '" ++ id ++ "' overflow")
  | _ => none

abbrev Contents := Table Key Value

def Contents.metrics (contents : Contents) : List Metric :=
  contents.entries.map fun (key, value) => ⟨key.id, value⟩

/-- A store whose state is a `σ`. -/
structure Storage (σ : Type) where
  backend : String
  update : Metric → σ → Except StoreFault Unit × σ
  updateBatch : List Metric → σ → Except StoreFault Unit × σ
  get : Key → σ → Except StoreFault Metric
  all : σ → Except StoreFault Contents
  ping : σ → Except StoreFault Unit

def updateEach {σ : Type} (update : Metric → σ → Except StoreFault Unit × σ) :
    List Metric → σ → Except StoreFault Unit × σ
  | [], state => (.ok (), state)
  | m :: rest, state =>
    match update m state with
    | (.ok (), state) => updateEach update rest state
    | (.error fault, state) => (.error fault, state)

def requireId (m : Metric) : Except StoreFault Unit :=
  if m.id = "" then .error (.invalid .emptyId) else .ok ()

end Telemetry
