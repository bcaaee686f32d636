import Telemetry.Proofs.Json.Converted
import Telemetry.Proofs.Metric.Wire
import Telemetry.Server.Api
import Telemetry.Snapshot.Basic

/-!
Documents of metrics, in whatever form they are written. Main statements: a metric is read where a
record is that has a name, a type and the number that the type calls for, with both of its numbers
in range; all readers of such documents agree; and what they have read is settled, so that it is
written and read again without a change.
-/
namespace Telemetry

namespace Wire

/-- A record with its numbers as they are written, be they in range or not. -/
structure Raw where
  id : String
  type : String
  value : Option Json.Number
  delta : Option Json.Number

namespace Raw

structure Draft where
  id : Option String := none
  type : Option String := none
  value : Option (Option Json.Number) := none
  delta : Option (Option Json.Number) := none

def fields : List (Json.Field Draft) := [
  ⟨"id", (·.id.isSome), Json.mapped (fun v draft => { draft with id := some v }) Json.text⟩,
  ⟨"type", (·.type.isSome), Json.mapped (fun v draft => { draft with type := some v }) Json.text⟩,
  ⟨"value", (·.value.isSome),
    Json.mapped (fun v draft => { draft with value := some v }) (Json.optional Json.anyNumber)⟩,
  ⟨"delta", (·.delta.isSome),
    Json.mapped (fun v draft => { draft with delta := some v }) (Json.optional Json.anyNumber)⟩]

def Draft.finish (draft : Draft) : Except Json.Fault Raw :=
  match draft.id, draft.type with
  | some id, some type => .ok ⟨id, type, draft.value.getD none, draft.delta.getD none⟩
  | _, _ => .error .unfit

def ofJson : Json.Reader Raw := Json.record fields {} Draft.finish

/-- Both numbers that the record may have are in range, and round to those of the other one. -/
structure Rounds (raw : Raw) (wire : Wire) : Prop where
  id : wire.id = raw.id
  type : wire.type = raw.type
  value : Option.Rel (fun n v => n.toBinary64? = some v) raw.value wire.value
  delta : Option.Rel (fun n d => n.toInt64? = some d) raw.delta wire.delta

structure Draft.Rounds (raw : Draft) (draft : Wire.Draft) : Prop where
  id : draft.id = raw.id
  type : draft.type = raw.type
  value : Option.Rel (Option.Rel fun n v => n.toBinary64? = some v) raw.value draft.value
  delta : Option.Rel (Option.Rel fun n d => n.toInt64? = some d) raw.delta draft.delta

theorem rightUnique_rounds : Relator.RightUnique Draft.Rounds := by
  rintro raw ⟨id, type, value, delta⟩ ⟨id', type', value', delta'⟩ here there
  have values :=
    rightUnique_option (rightUnique_option (rightUnique_eq_some _)) here.value there.value
  have deltas :=
    rightUnique_option (rightUnique_option (rightUnique_eq_some _)) here.delta there.delta
  have ids := here.id.trans there.id.symm
  have types := here.type.trans there.type.symm
  dsimp only at values deltas ids types
  rw [values, deltas, ids, types]

theorem converts_id : Json.Field.Converts Draft.Rounds
    ⟨"id", (·.id.isSome), Json.mapped (fun v draft => { draft with id := some v }) Json.text⟩
    ⟨"id", (·.id.isSome), Json.mapped (fun v draft => { draft with id := some v }) Json.text⟩ := by
  refine .of_reader rightUnique_rounds (.self Json.text) "id" ?_ ?_ ?_ ?_
  · intro r s related
    exact congrArg Option.isSome related.id.symm
  · rintro r s a _ related rfl
    exact { related with id := rfl }
  · intro r s' a _
    exact ⟨a, rfl⟩
  · intro r s' a free last
    have absent : r.id = none := Option.not_isSome_iff_eq_none.1 (ne_true_of_eq_false free)
    exact ⟨{ s' with id := none }, { last with id := absent.symm }⟩

theorem converts_type : Json.Field.Converts Draft.Rounds
    ⟨"type", (·.type.isSome), Json.mapped (fun v draft => { draft with type := some v }) Json.text⟩
    ⟨"type", (·.type.isSome),
      Json.mapped (fun v draft => { draft with type := some v }) Json.text⟩ := by
  refine .of_reader rightUnique_rounds (.self Json.text) "type" ?_ ?_ ?_ ?_
  · intro r s related
    exact congrArg Option.isSome related.type.symm
  · rintro r s a _ related rfl
    exact { related with type := rfl }
  · intro r s' a _
    exact ⟨a, rfl⟩
  · intro r s' a free last
    have absent : r.type = none := Option.not_isSome_iff_eq_none.1 (ne_true_of_eq_false free)
    exact ⟨{ s' with type := none }, { last with type := absent.symm }⟩

theorem converts_value : Json.Field.Converts Draft.Rounds
    ⟨"value", (·.value.isSome),
      Json.mapped (fun v draft => { draft with value := some v }) (Json.optional Json.anyNumber)⟩
    ⟨"value", (·.value.isSome),
      Json.mapped (fun v draft => { draft with value := some v })
        (Json.optional Json.binary64)⟩ := by
  refine .of_reader rightUnique_rounds Json.converts_binary64.optional "value" ?_ ?_ ?_ ?_
  · intro r s related
    exact isSome_rel related.value
  · intro r s a b related rounds
    exact { related with value := .some rounds }
  · intro r s' a last
    obtain ⟨id, type, value, delta⟩ := s'
    cases last.value with
    | some rounds => exact ⟨_, rounds⟩
  · intro r s' a free last
    have absent : r.value = none := Option.not_isSome_iff_eq_none.1 (ne_true_of_eq_false free)
    exact ⟨{ s' with value := none }, { last with value := absent ▸ .none }⟩

theorem converts_delta : Json.Field.Converts Draft.Rounds
    ⟨"delta", (·.delta.isSome),
      Json.mapped (fun v draft => { draft with delta := some v }) (Json.optional Json.anyNumber)⟩
    ⟨"delta", (·.delta.isSome),
      Json.mapped (fun v draft => { draft with delta := some v }) (Json.optional Json.int64)⟩ := by
  refine .of_reader rightUnique_rounds Json.converts_int64.optional "delta" ?_ ?_ ?_ ?_
  · intro r s related
    exact isSome_rel related.delta
  · intro r s a b related rounds
    exact { related with delta := .some rounds }
  · intro r s' a last
    obtain ⟨id, type, value, delta⟩ := s'
    cases last.delta with
    | some rounds => exact ⟨_, rounds⟩
  · intro r s' a free last
    have absent : r.delta = none := Option.not_isSome_iff_eq_none.1 (ne_true_of_eq_false free)
    exact ⟨{ s' with delta := none }, { last with delta := absent ▸ .none }⟩

theorem apart_fields : fields.Pairwise Json.Field.Apart := by
  simp only [fields, List.pairwise_cons, List.forall_mem_cons]
  refine ⟨⟨?_, ?_, ?_, nofun⟩, ⟨?_, ?_, nofun⟩, ⟨?_, nofun⟩, nofun, .nil⟩
  all_goals
    intro bound input rest enter r done
    dsimp only at done
    obtain ⟨a, -, rfl⟩ := Json.mapped_eq_ok_iff.1 done
    rfl

theorem finish_iff (draft : Draft) (wire : Wire) :
    (∃ raw, draft.finish = .ok raw ∧ raw.Rounds wire) ↔ ∃ made, draft.Rounds made ∧
      made.finish = .ok wire := by
  obtain ⟨id, type, value, delta⟩ := draft
  constructor
  · rintro ⟨raw, finished, rounds⟩
    cases id <;> cases type <;> cases finished
    obtain ⟨wireId, wireType, wireValue, wireDelta⟩ := wire
    obtain ⟨values, valuesRounded, rfl⟩ := rel_getD_iff.1 rounds.value
    obtain ⟨deltas, deltasRounded, rfl⟩ := rel_getD_iff.1 rounds.delta
    refine ⟨⟨some wireId, some wireType, values, deltas⟩, ⟨?_, ?_, valuesRounded, deltasRounded⟩,
      rfl⟩
    · exact congrArg some rounds.id
    · exact congrArg some rounds.type
  · rintro ⟨⟨madeId, madeType, values, deltas⟩, ⟨rfl, rfl, valuesRounded, deltasRounded⟩, finished⟩
    cases madeId <;> cases madeType <;> cases finished
    have value := rel_getD_iff.2 ⟨values, valuesRounded, rfl⟩
    have delta := rel_getD_iff.2 ⟨deltas, deltasRounded, rfl⟩
    exact ⟨_, rfl, rfl, rfl, value, delta⟩

theorem converts_ofJson : Json.Converts ofJson Rounds Wire.ofJson := by
  have matched : List.Forall₂ (Json.Field.Converts Draft.Rounds) fields Wire.fields :=
    .cons converts_id (.cons converts_type (.cons converts_value (.cons converts_delta .nil)))
  have free : ∀ field ∈ fields, field.taken {} = false := by simp [fields]
  exact .record rightUnique_rounds matched apart_fields free ⟨rfl, rfl, .none, .none⟩ finish_iff

end Raw

inductive Means (wire : Wire) : Metric → Prop
  | gauge {reading : Binary64} (named : wire.id ≠ "") (kind : Kind.ofText? wire.type = some .gauge)
      (value : wire.value = some reading) : Means wire ⟨wire.id, .gauge reading⟩
  | counter {delta : Int64} (named : wire.id ≠ "") (kind : Kind.ofText? wire.type = some .counter)
      (value : wire.delta = some delta) : Means wire ⟨wire.id, .counter delta⟩

theorem key_eq_ok_iff {wire : Wire} {key : Key} :
    wire.key = .ok key ↔ wire.id ≠ "" ∧ Kind.ofText? wire.type = some key.kind ∧
    key.id = wire.id := by
  obtain ⟨id, kind⟩ := key
  unfold Wire.key Kind.read
  by_cases unnamed : wire.id = ""
  · simp [unnamed]
  · cases Kind.ofText? wire.type with
    | none => simp [unnamed]
    | some known => simp [unnamed, and_comm, eq_comm]

theorem toMetric_eq_ok_iff {wire : Wire} {m : Metric} : wire.toMetric = .ok m ↔ wire.Means m := by
  constructor
  · intro made
    obtain ⟨⟨id, kind⟩, keyed, made⟩ := bind_eq_ok_iff.1 made
    obtain ⟨named, known, same⟩ := key_eq_ok_iff.1 keyed
    cases kind with
    | gauge =>
      cases there : wire.value with
      | none => simp [there] at made
      | some reading =>
        simp only [there, Option.map_some, pure_eq_ok, Except.ok.injEq] at made
        subst made same
        exact .gauge named known there
    | counter =>
      cases there : wire.delta with
      | none => simp [there] at made
      | some delta =>
        simp only [there, Option.map_some, pure_eq_ok, Except.ok.injEq] at made
        subst made same
        exact .counter named known there
  · intro means
    cases means with
    | gauge named known there =>
      have keyed : wire.key = .ok ⟨wire.id, .gauge⟩ := key_eq_ok_iff.2 ⟨named, known, rfl⟩
      simp [toMetric, keyed, there]
    | counter named known there =>
      have keyed : wire.key = .ok ⟨wire.id, .counter⟩ := key_eq_ok_iff.2 ⟨named, known, rfl⟩
      simp [toMetric, keyed, there]

namespace Raw

/-- The metric that a record is of: it has a name and a type, and the number that the type calls
for. The other number may be there as well, but both have to be in range. -/
inductive Describes (raw : Raw) : Metric → Prop
  | gauge {n : Json.Number} {reading : Binary64} (named : raw.id ≠ "")
      (kind : Kind.ofText? raw.type = some .gauge) (value : raw.value = some n)
      (rounds : n.toBinary64? = some reading) (spare : ∀ d ∈ raw.delta, d.toInt64?.isSome) :
      Describes raw ⟨raw.id, .gauge reading⟩
  | counter {n : Json.Number} {delta : Int64} (named : raw.id ≠ "")
      (kind : Kind.ofText? raw.type = some .counter) (value : raw.delta = some n)
      (whole : n.toInt64? = some delta) (spare : ∀ v ∈ raw.value, v.toBinary64?.isSome) :
      Describes raw ⟨raw.id, .counter delta⟩

inductive Unfit (raw : Raw) : Prop
  | unnamed (none : raw.id = "")
  | unsupported (unknown : Kind.ofText? raw.type = none)
  | noReading (kind : Kind.ofText? raw.type = some .gauge) (missing : raw.value = none)
  | noDelta (kind : Kind.ofText? raw.type = some .counter) (missing : raw.delta = none)
  | readingOutOfRange {n : Json.Number} (value : raw.value = some n)
      (outside : n.toBinary64? = none)
  | deltaOutOfRange {n : Json.Number} (delta : raw.delta = some n) (outside : n.toInt64? = none)

/-- A record is of the metric that it makes once its numbers have been rounded. -/
theorem describes_iff {raw : Raw} {m : Metric} :
    raw.Describes m ↔ ∃ wire, raw.Rounds wire ∧ wire.toMetric = .ok m := by
  simp only [toMetric_eq_ok_iff]
  constructor
  · rintro (⟨named, known, value, rounds, spare⟩ | ⟨named, known, value, whole, spare⟩)
    · rename_i n reading
      obtain ⟨delta, whole⟩ := exists_rel_iff.2 spare
      have rounded : Option.Rel (fun n v => n.toBinary64? = some v) raw.value (some reading) :=
        value ▸ .some rounds
      exact ⟨⟨raw.id, raw.type, some reading, delta⟩, ⟨rfl, rfl, rounded, whole⟩,
        .gauge named known rfl⟩
    · rename_i n delta
      obtain ⟨reading, rounds⟩ := exists_rel_iff.2 spare
      have made : Option.Rel (fun n d => n.toInt64? = some d) raw.delta (some delta) :=
        value ▸ .some whole
      exact ⟨⟨raw.id, raw.type, reading, some delta⟩, ⟨rfl, rfl, rounds, made⟩,
        .counter named known rfl⟩
  · rintro ⟨⟨id, type, value, delta⟩, ⟨rfl, rfl, values, deltas⟩, means⟩
    cases means with
    | gauge named known there =>
      subst there
      obtain ⟨n, present, rounds⟩ := exists_of_rel_some values
      exact .gauge named known present rounds (exists_rel_iff.1 ⟨delta, deltas⟩)
    | counter named known there =>
      subst there
      obtain ⟨n, present, whole⟩ := exists_of_rel_some deltas
      exact .counter named known present whole (exists_rel_iff.1 ⟨value, values⟩)

theorem unfit_iff {raw : Raw} : raw.Unfit ↔ ∀ m, ¬ raw.Describes m := by
  constructor
  · rintro unfit m (⟨named, known, value, rounds, spare⟩ | ⟨named, known, value, whole, spare⟩)
    all_goals cases unfit <;> simp_all
  · intro none
    by_cases unnamed : raw.id = ""
    · exact .unnamed unnamed
    cases known : Kind.ofText? raw.type with
    | none => exact .unsupported known
    | some kind =>
    by_cases readings : ∀ v ∈ raw.value, v.toBinary64?.isSome
    · by_cases deltas : ∀ d ∈ raw.delta, d.toInt64?.isSome
      · cases kind with
        | gauge =>
          cases value : raw.value with
          | none => exact .noReading known value
          | some n =>
            obtain ⟨reading, rounds⟩ := Option.isSome_iff_exists.1 (readings n value)
            exact absurd (.gauge unnamed known value rounds deltas) (none _)
        | counter =>
          cases value : raw.delta with
          | none => exact .noDelta known value
          | some n =>
            obtain ⟨delta, whole⟩ := Option.isSome_iff_exists.1 (deltas n value)
            exact absurd (.counter unnamed known value whole readings) (none _)
      · push Not at deltas
        obtain ⟨d, there, outside⟩ := deltas
        exact .deltaOutOfRange there (by simpa using outside)
    · push Not at readings
      obtain ⟨v, there, outside⟩ := readings
      exact .readingOutOfRange there (by simpa using outside)

theorem Describes.valid {raw : Raw} {m : Metric} (describes : raw.Describes m) :
    m.id ≠ "" ∧ m.value.isFinite = true := by
  cases describes with
  | gauge named known value rounds spare =>
    refine ⟨named, ?_⟩
    simp only [Json.Number.toBinary64?, Option.ite_none_right_eq_some, Option.some.injEq] at rounds
    exact rounds.2 ▸ rounds.1
  | counter named known value whole spare => exact ⟨named, rfl⟩

end Raw
end Wire

namespace Metric

theorem converts_wire : Json.Converts Wire.ofJson (fun wire m => wire.toMetric = .ok m) ofJson := by
  intro bound input m rest
  rw [ofJson, bind_eq_ok_iff]
  constructor
  · rintro ⟨⟨wire, after⟩, done, made⟩
    cases valid : wire.toMetric with
    | error invalid => simp [valid] at made
    | ok m =>
      simp only [valid, pure_eq_ok, Except.ok.injEq, Prod.mk.injEq] at made
      obtain ⟨rfl, rfl⟩ := made
      exact ⟨wire, done, valid⟩
  · rintro ⟨wire, done, valid⟩
    exact ⟨(wire, rest), done, by simp [valid]⟩

theorem converts_raw : Json.Converts Wire.Raw.ofJson Wire.Raw.Describes ofJson := by
  have through := Wire.Raw.converts_ofJson.comp converts_wire
  intro bound input m rest
  rw [through]
  simp only [Wire.Raw.describes_iff]

/-- A form of documents: how they are read as metrics at once, as wire records that are then
converted, as records whose numbers are not looked at, and by a server; how metrics are written in
it, and which can be. -/
structure Form (α β ρ : Type) where
  read : Bytes → Except Json.Fault α
  readWire : Bytes → Except Json.Fault β
  convert : β → Except Invalid α
  readRaw : Bytes → Except Json.Fault ρ
  Describes : ρ → α → Prop
  parse : Bytes → Except ApiFault α
  write : α → Bytes
  Valid : α → Prop

namespace Form

def one : Form Metric Wire Wire.Raw where
  read := Json.document ofJson
  readWire := Json.document Wire.ofJson
  convert := Wire.toMetric
  readRaw := Json.document Wire.Raw.ofJson
  Describes := Wire.Raw.Describes
  parse := Server.readMetric
  write := toJson
  Valid m := m.id ≠ "" ∧ m.value.isFinite = true

def list : Form (List Metric) (List Wire) (List Wire.Raw) where
  read := Json.document (Json.list ofJson)
  readWire := Json.document (Json.list Wire.ofJson)
  convert wires := wires.mapM Wire.toMetric
  readRaw := Json.document (Json.list Wire.Raw.ofJson)
  Describes := List.Forall₂ Wire.Raw.Describes
  parse := Server.readBatch
  write := listToJson
  Valid ms := ∀ m ∈ ms, m.id ≠ "" ∧ m.value.isFinite = true

variable {α β ρ : Type}

/-- How a document is read, however it is written: in both ways alike and as nothing but valid
metrics, which come back once they are written again, and then as the same bytes. -/
structure Settles (form : Form α β ρ) (input : Bytes) : Prop where
  converted : ∀ a, form.read input = .ok a ↔ ∃ wire, form.readWire input = .ok wire ∧
    form.convert wire = .ok a
  parsed : ∀ a, form.parse input = .ok a ↔ form.read input = .ok a
  described : ∀ a, form.read input = .ok a ↔ ∃ raw, form.readRaw input = .ok raw ∧
    form.Describes raw a
  valid : ∀ a, form.read input = .ok a → form.Valid a
  returns : ∀ a, form.read input = .ok a → form.read (form.write a) = .ok a
  again : ∀ a, form.read input = .ok a →
    (form.read (form.write a)).map form.write = .ok (form.write a)

theorem Settles.of_converts {form : Form α β ρ} {input : Bytes}
    (converted : ∀ a, form.read input = .ok a ↔ ∃ wire, form.readWire input = .ok wire ∧
      form.convert wire = .ok a)
    (parsed : ∀ a, form.parse input = .ok a ↔
      ∃ wire, form.readWire input = .ok wire ∧ form.convert wire = .ok a)
    (described : ∀ a, form.read input = .ok a ↔ ∃ raw, form.readRaw input = .ok raw ∧
      form.Describes raw a)
    (valid : ∀ raw a, form.Describes raw a → form.Valid a)
    (returns : ∀ a, form.Valid a → form.read (form.write a) = .ok a) : form.Settles input := by
  have sound : ∀ a, form.read input = .ok a → form.Valid a := by
    intro a done
    obtain ⟨raw, -, describes⟩ := (described a).1 done
    exact valid raw a describes
  refine ⟨converted, fun a => (parsed a).trans (converted a).symm, described, sound, ?_, ?_⟩
  · intro a done
    exact returns a (sound a done)
  · intro a done
    rw [returns a (sound a done), map_ok]

theorem settles_one (input : Bytes) : one.Settles input := by
  apply Settles.of_converts
  · intro m
    exact converts_wire.document
  · intro m
    simp only [one, Server.readMetric, Server.readWire, bind_eq_ok_iff, mapError_eq_ok_iff]
  · intro m
    exact converts_raw.document
  · intro raw m describes
    exact describes.valid
  · intro m valid
    exact (document_ofJson_toJson m).trans (if_pos valid)

theorem settles_list (input : Bytes) : list.Settles input := by
  apply Settles.of_converts
  · intro ms
    simp only [list, mapM_eq_ok_iff]
    exact converts_wire.list.document
  · intro ms
    simp only [list, Server.readBatch, bind_eq_ok_iff, mapError_eq_ok_iff, mapM_eq_ok_iff]
  · intro ms
    exact converts_raw.list.document
  · intro raws ms describe
    change ∀ m ∈ ms, m.id ≠ "" ∧ m.value.isFinite = true
    induction describe with
    | nil => exact nofun
    | cons here later ih => exact List.forall_mem_cons.2 ⟨here.valid, ih⟩
  · intro ms valid
    exact (document_ofJson ms).trans (if_pos valid)

end Form
end Metric

namespace Snapshot

variable {σ : Type} {storage : Storage σ} {path : String} {files : Files} {input : Bytes}

theorem load_of_read {ms : List Metric} (there : files.read path = .ok input)
    (read : Json.document (Json.list Metric.ofJson) input = .ok ms) (state : σ) :
    load storage path files state =
      ((storage.updateBatch ms state).1.map fun _ => ms.length,
        (storage.updateBatch ms state).2) := by
  simp only [load, there, read]
  rcases storage.updateBatch ms state with ⟨_ | _, after⟩ <;> rfl

theorem load_of_unread (there : files.read path = .ok input)
    (unread : ∀ ms, Json.document (Json.list Metric.ofJson) input ≠ .ok ms) (state : σ) :
    ∃ fault, load storage path files state = (.error (.snapshotFormat fault), state) := by
  cases read : Json.document (Json.list Metric.ofJson) input with
  | ok ms => exact absurd read (unread ms)
  | error fault => exact ⟨fault, by simp only [load, there, read]⟩

/-- A file is loaded where a server would take its bytes as a list of updates, and then as these
updates. -/
structure LoadsAsServed (input : Bytes) : Prop where
  accepted : ∀ {σ : Type} (storage : Storage σ) (path : String) (files : Files) (state : σ)
    (ms : List Metric),
    files.read path = .ok input → Server.readBatch input = .ok ms →
      load storage path files state =
        ((storage.updateBatch ms state).1.map fun _ => ms.length, (storage.updateBatch ms state).2)
  refused : ∀ {σ : Type} (storage : Storage σ) (path : String) (files : Files) (state : σ)
    (refusal : ApiFault),
    files.read path = .ok input → Server.readBatch input = .error refusal →
      ∃ fault, load storage path files state = (.error (.snapshotFormat fault), state)

theorem loads_as_served (input : Bytes) : LoadsAsServed input where
  accepted := by
    intro σ storage path files state ms there parsed
    exact load_of_read there (((Metric.Form.settles_list input).parsed ms).1 parsed) state
  refused := by
    intro σ storage path files state refusal there refused
    apply load_of_unread there
    intro ms read
    have parsed := ((Metric.Form.settles_list input).parsed ms).2 read
    cases refused.symm.trans parsed

end Snapshot

namespace Metric

/-- However a list of metrics, or a single one, is written, all ways to read it agree, and it is
settled once it has been read: written again, it is read as the same metrics and written as the same
bytes. A snapshot is read as a server reads a list. -/
theorem documents_settle (input : Bytes) :
    Form.list.Settles input ∧ Form.one.Settles input ∧ Snapshot.LoadsAsServed input := by
  refine ⟨Form.settles_list input, Form.settles_one input, ?_⟩
  exact Snapshot.loads_as_served input

/-- Fields in another order or without their names, an escape, blanks, another letter case, one
field more and one number more. -/
example :
    (Json.document (Json.list ofJson)
      (Bytes.ofText (" [\x7b\"x\":[0],\"delta\":7,\"type\":\"GAUGE\"," ++
        "\"value\":15e-1,\"\\u0069d\":\"a\"\x7d, [\"b\",\"Counter\",null,2]]\n"))).map listToJson =
    .ok (Bytes.ofText ("[\x7b\"id\":\"a\",\"type\":\"gauge\",\"value\":1.5\x7d," ++
      "\x7b\"id\":\"b\",\"type\":\"counter\",\"delta\":2\x7d]")) := by
  decide +kernel

end Metric
end Telemetry
