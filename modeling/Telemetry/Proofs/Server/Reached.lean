import Telemetry.Proofs.Json.Values
import Telemetry.Proofs.Server.Effects
import Telemetry.Proofs.Snapshot.Restored

/-!
The states that a server over the store in memory reaches. Main statement: whatever requests and
calls come, no id is empty and no reading is infinite or no number, so that a snapshot restores any
state that is reached.
-/
namespace Telemetry

/-! ### What senders bring -/

theorem Kind.finite_of_readValue {kind : Kind} {raw : String} {value : Value}
    (valid : kind.readValue raw = .ok value) : value.isFinite := by
  unfold readValue at valid
  split at valid
  · split at valid
    · split at valid
      · rename_i finite
        cases valid
        exact finite
      · cases valid
    · cases valid
  · split at valid
    · cases valid
      rfl
    · cases valid

namespace Wire

def Draft.IsFinite (draft : Draft) : Prop := ∀ v, draft.value = some (some v) → v.isFinite

theorem keeps_isFinite : ∀ field ∈ fields, field.Keeps Draft.IsFinite := by
  have finite := Json.yields_binary64.optional
  simp only [fields, List.forall_mem_cons]
  refine ⟨?_, ?_, ?_, ?_, by simp⟩ <;> apply Json.Field.keeps_of_yields
  · intro _ _ _ _ _ draft finite
    exact finite
  · intro _ _ _ _ _ draft finite
    exact finite
  · refine finite.mono ?_
    rintro v finite draft - reading ⟨⟩
    exact finite reading rfl
  · intro _ _ _ _ _ draft finite
    exact finite

theorem yields_ofJson : Json.Yields ofJson fun wire => ∀ v, wire.value = some v → v.isFinite := by
  refine Json.yields_record keeps_isFinite (by rintro v ⟨⟩) ?_
  intro draft wire finite finished v there
  unfold Draft.finish at finished
  split at finished
  · cases finished
    refine finite v ?_
    cases value : draft.value with
    | none => simp [value] at there
    | some inner => simpa [value] using there
  · cases finished

theorem finite_of_toMetric {wire : Wire} (finite : ∀ v, wire.value = some v → v.isFinite)
    {m : Metric} (valid : wire.toMetric = .ok m) : m.value.isFinite := by
  obtain ⟨key, -, valid⟩ := bind_eq_ok_iff.1 valid
  dsimp only at valid
  split at valid
  · rename_i value there
    cases valid
    split at there
    · obtain ⟨reading, here, rfl⟩ := Option.map_eq_some_iff.1 there
      exact finite reading here
    · obtain ⟨delta, -, rfl⟩ := Option.map_eq_some_iff.1 there
      rfl
  · cases valid

end Wire

namespace Server

theorem finite_of_readPath {kind name value : String} {m : Metric}
    (parsed : readPath kind name value = .ok m) :
    m.value.isFinite := by
  obtain ⟨kind, -, parsed⟩ := bind_eq_ok_iff.1 parsed
  obtain ⟨name, -, parsed⟩ := bind_eq_ok_iff.1 parsed
  obtain ⟨value, -, parsed⟩ := bind_eq_ok_iff.1 parsed
  obtain ⟨kind, -, parsed⟩ := bind_eq_ok_iff.1 parsed
  by_cases unnamed : name = ""
  · rw [if_pos unnamed] at parsed
    cases parsed
  · rw [if_neg unnamed] at parsed
    obtain ⟨-, -, parsed⟩ := bind_eq_ok_iff.1 parsed
    obtain ⟨value, valid, parsed⟩ := bind_eq_ok_iff.1 parsed
    cases parsed
    exact Kind.finite_of_readValue (mapError_eq_ok_iff.1 valid)

theorem finite_of_readMetric {body : Bytes} {m : Metric} (parsed : readMetric body = .ok m) :
    m.value.isFinite := by
  obtain ⟨wire, read, valid⟩ := bind_eq_ok_iff.1 parsed
  have finite := Wire.yields_ofJson.document (mapError_eq_ok_iff.1 read)
  exact Wire.finite_of_toMetric finite (mapError_eq_ok_iff.1 valid)

theorem finite_of_readBatch {body : Bytes} {ms : List Metric} (parsed : readBatch body = .ok ms) :
    ∀ m ∈ ms, m.value.isFinite := by
  intro m member
  obtain ⟨wires, read, valid⟩ := bind_eq_ok_iff.1 parsed
  have finite := Wire.yields_ofJson.list.document (mapError_eq_ok_iff.1 read)
  obtain ⟨wire, inside, valid⟩ := exists_of_mem_mapM valid member
  exact Wire.finite_of_toMetric (finite wire inside) (mapError_eq_ok_iff.1 valid)

end Server

theorem Route.finite_of_asked {route : Route} {body : Bytes} {ms : List Metric}
    (asked : route.asked body = some (.ok ms)) : ∀ m ∈ ms, m.value.isFinite := by
  cases route with
  | updatePath kind name text =>
    obtain ⟨m, parsed, rfl⟩ := map_eq_ok_iff.1 (Option.some.inj asked)
    simpa using Server.finite_of_readPath parsed
  | update =>
    obtain ⟨m, parsed, rfl⟩ := map_eq_ok_iff.1 (Option.some.inj asked)
    simpa using Server.finite_of_readMetric parsed
  | updates => exact Server.finite_of_readBatch (Option.some.inj asked)
  | index => cases asked
  | ping => cases asked
  | value => cases asked
  | valuePath kind name => cases asked

/-! ### What is reached -/

namespace Memory.IsSound

variable {before after : Memory}

theorem of_contents (sound : before.IsSound) (same : after.contents = before.contents) :
    after.IsSound := by
  have lookups : ∀ key, after.lookup key = before.lookup key := by
    intro key
    rw [← get?_contents, ← get?_contents, same]
  constructor
  · intro key value there
    exact sound.named key value (lookups key ▸ there)
  · intro key value there
    exact sound.finite key value (lookups key ▸ there)

theorem of_effect (sound : before.IsSound) {isUpdate : Bool} {asked : Option (List Metric)}
    {ending : Ending}
    (effect : Effect .eachInTurn isUpdate asked before.contents ending after.contents)
    (finite : ∀ ms, asked = some ms → ∀ m ∈ ms, m.value.isFinite) : after.IsSound := by
  by_cases changed : after.contents = before.contents
  · exact sound.of_contents changed
  · obtain ⟨-, ms, front, here, part, applied, -⟩ :=
      effect.front_of_changed Keeping.leavesFront_eachInTurn changed
    have frontFinite : ∀ m ∈ front, m.value.isFinite :=
      fun m member => finite ms here m (part.subset member)
    rw [Keeping.eachInTurn, List.map_id, updateEach_contents] at applied
    exact (sound.updateEach frontFinite).of_contents (congrArg Prod.snd applied).symm

end Memory.IsSound

inductive Event where
  | request (request : Request)
  | call (call : Call)

namespace Server

variable {σ : Type}

def take (server : Server σ) : Event → σ → σ
  | .request request, state => (server.respond request state).2
  | .call call, state => (server.serveCall call state).2

def reach (server : Server σ) (events : List Event) (state : σ) : σ :=
  events.foldl (fun state event => server.take event state) state

variable {server : Server Memory} {memory : Memory}

theorem sound_respond (inMemory : server.storage = Memory.storage) (sound : memory.IsSound)
    (request : Request) :
    (server.respond request memory).2.IsSound := by
  have follows : Keeping.eachInTurn.Follows server.storage := inMemory ▸ Memory.follows
  have lists : ∀ memory, server.storage.all memory = .ok memory.contents :=
    fun memory => inMemory ▸ rfl
  obtain ⟨after, listed, effect⟩ := respond_affects follows (lists memory) request
  rw [lists] at listed
  cases listed
  refine sound.of_effect effect ?_
  intro ms asked
  obtain ⟨plain, route, -, -, valid⟩ := asked_eq_some asked
  exact Route.finite_of_asked valid

theorem sound_serveCall (inMemory : server.storage = Memory.storage) (sound : memory.IsSound)
    (call : Call) :
    (server.serveCall call memory).2.IsSound := by
  have follows : Keeping.eachInTurn.Follows server.storage := inMemory ▸ Memory.follows
  have lists : ∀ memory, server.storage.all memory = .ok memory.contents :=
    fun memory => inMemory ▸ rfl
  by_cases finite : call.value.isFinite = true
  · obtain ⟨after, listed, effect⟩ := serveCall_affects follows (lists memory) call
    rw [lists] at listed
    cases listed
    refine sound.of_effect effect ?_
    rintro ms ⟨⟩
    simpa using finite
  · have refused := admitCall_eq server call
    rw [if_pos (Bool.eq_false_iff.2 finite)] at refused
    simp only [serveCall, refused]
    exact sound

theorem sound_take (inMemory : server.storage = Memory.storage) (sound : memory.IsSound)
    (event : Event) :
    (server.take event memory).IsSound := by
  cases event with
  | request request => exact sound_respond inMemory sound request
  | call call => exact sound_serveCall inMemory sound call

theorem sound_reach (inMemory : server.storage = Memory.storage) (sound : memory.IsSound)
    (events : List Event) :
    (server.reach events memory).IsSound := by
  induction events generalizing memory with
  | nil => exact sound
  | cons event rest ih => exact ih (sound_take inMemory sound event)

end Server

namespace Snapshot

/-- Saving and loading, for stores in memory whose ids are not empty; every store that is written to
is one of these, and every one that a server reaches from nothing is restored. -/
theorem snapshots_restore {files : Files} {place : Place} (hosts : Hosts files place) :
    (∀ memory : Memory, memory.IsNamed → Restores memory place files) ∧
    (∀ writes : List Write, (runAll Memory.storage.write writes {}).2.IsNamed) ∧
    ∀ (opening : Envelope.Opening) (maxBody timeout writeTime : Nat) (events : List Event),
      let server : Server Memory := ⟨Memory.storage, opening, maxBody, timeout, writeTime⟩
      let reached := server.reach events {}
      reached.IsSound ∧ ∃ restored : Memory,
        load Memory.storage place.path (save place.path (Memory.storage.all reached) files).2 {} =
          (.ok reached.size, restored) ∧
            Memory.storage.all restored = Memory.storage.all reached := by
  refine ⟨fun memory named => restores_of_isNamed named hosts, Memory.isNamed_runAll, ?_⟩
  intro opening maxBody timeout writeTime events server reached
  have sound : reached.IsSound := Server.sound_reach rfl .empty events
  exact ⟨sound, (restores_of_isNamed sound.named hosts).restores sound.finite⟩

def dataFile : Place := ⟨["data"], "metrics.json", by decide⟩

/-- A gauge and a counter of one id; the gauge is zero with its sign. -/
def sharedId :
    List Write := [.update ⟨"Alloc", .gauge Binary64.negativeZero⟩, .update ⟨"Alloc", .counter 3⟩]

theorem shared_id_restored :
    Hosts {} dataFile ∧ (runAll Memory.storage.write sharedId {}).2.IsNamed ∧
      Restores (runAll Memory.storage.write sharedId {}).2 dataFile {} := by
  have nothing : ∀ path, Files.node? {} path = none := fun _ => rfl
  have hosts : Hosts {} dataFile := by
    constructor <;> simp [nothing]
  obtain ⟨restores, named, -⟩ := snapshots_restore hosts
  exact ⟨hosts, named sharedId, restores _ (named sharedId)⟩

end Snapshot
end Telemetry
