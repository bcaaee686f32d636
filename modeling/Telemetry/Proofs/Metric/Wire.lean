import Telemetry.Metric.Wire
import Telemetry.Proofs.Json.Record

namespace Telemetry

open Json (Reads Begins Enters)

namespace Wire

theorem begins_numeral {numeral : Json.Numeral} (wellFormed : numeral.WellFormed) :
    Begins (Bytes.ofAscii numeral.text) (· ≠ 0x6e) := by
  obtain ⟨b, others, bytes, begins⟩ := Json.Numeral.ofAscii_text wellFormed
  refine ⟨b, others, bytes, Json.isBlank_of_beginsNumber begins, ?_⟩
  rintro rfl
  cases begins

theorem begins_binary64 {v : Binary64} (finite : v.isFinite) :
    Begins (Json.ofBinary64 v) (· ≠ 0x6e) := by
  obtain ⟨numeral, text, wellFormed, -⟩ := Json.exists_numeral_binary64 finite
  rw [text]
  exact begins_numeral wellFormed

theorem begins_int64 (n : Int64) : Begins (Json.ofInt64 n) (· ≠ 0x6e) := by
  obtain ⟨numeral, text, wellFormed, -⟩ := Json.exists_numeral_int64 n
  rw [text]
  exact begins_numeral wellFormed

theorem enters_delta (delta : Option Int64) {draft : Draft} (free : draft.delta = none) :
    Enters fields (delta.map fun d => ("delta", Json.ofInt64 d)).toList draft
      { draft with delta := delta.map some } := by
  cases delta with
  | none =>
    have same : { draft with delta := none } = draft := by rw [← free]
    rw [Option.map_none, Option.map_none, same]
    exact .nil draft
  | some d =>
    have found : fields.find? (·.name == "delta") = some ⟨"delta", (·.delta.isSome),
        Json.mapped (fun v draft => { draft with delta := some v })
          (Json.optional Json.int64)⟩ := rfl
    have unset : draft.delta.isSome = false := by rw [free]; rfl
    have reads : ∀ bound, Reads (Json.optional Json.int64) bound (Json.ofInt64 d) (some d) :=
      fun bound => (Json.reads_int64 d bound).optional (begins_int64 d)
    exact .mapped found unset reads (.nil _)

theorem reads_value (v : Binary64) (bound : Nat) :
    Reads (Json.optional Json.binary64) bound (Json.ofBinary64 v)
      (if v.isFinite then some v else none) := by
  by_cases finite : v.isFinite = true
  · rw [if_pos finite]
    exact (Json.reads_binary64 finite bound).optional (begins_binary64 finite)
  · intro rest _
    rw [if_neg finite]
    cases v with
    | finite negative place => exact absurd rfl finite
    | infinite negative => rfl
    | nan => rfl

def kept (wire : Wire) : Wire := { wire with value := wire.value.filter (·.isFinite) }

theorem enters_value (value : Option Binary64) {draft last : Draft} (free : draft.value = none)
    {parts : List (String × Bytes)}
    (others : Enters fields parts
      { draft with value := value.map fun v => if v.isFinite then some v else none } last) :
    Enters fields ((value.map fun v => ("value", Json.ofBinary64 v)).toList ++ parts) draft
      last := by
  cases value with
  | none =>
    have same : { draft with value := none } = draft := by rw [← free]
    rw [Option.map_none, same] at others
    exact others
  | some v =>
    have found : fields.find? (·.name == "value") = some ⟨"value", (·.value.isSome),
        Json.mapped (fun v draft => { draft with value := some v })
          (Json.optional Json.binary64)⟩ := rfl
    have unset : draft.value.isSome = false := by rw [free]; rfl
    exact .mapped found unset (reads_value v) others

/-- A record is read as it was written, a value that is not finite apart. -/
theorem reads_toJson (wire : Wire) {bound : Nat} (enough : 4 < bound) :
    Reads ofJson bound wire.toJson wire.kept := by
  obtain ⟨id, type, value, delta⟩ := wire
  have parts : Enters fields ([("id", Json.quoted id), ("type", Json.quoted type)]
      ++ (value.map fun v => ("value", Json.ofBinary64 v)).toList
      ++ (delta.map fun d => ("delta", Json.ofInt64 d)).toList) {}
      ⟨some id, some type, value.map fun v => if v.isFinite then some v else none,
        delta.map some⟩ := by
    have numbers :=
      @enters_value value ⟨some id, some type, none, none⟩ _ rfl _ (enters_delta delta rfl)
    rw [List.append_assoc]
    exact .mapped rfl rfl (Json.reads_text id) (.mapped rfl rfl (Json.reads_text type) numbers)
  have finished : Draft.finish
      ⟨some id, some type, value.map fun v => if v.isFinite then some v else none, delta.map some⟩ =
        .ok (kept ⟨id, type, value, delta⟩) := by
    cases value <;> cases delta <;> rfl
  refine Json.reads_record parts finished ?_
  cases value <;> cases delta <;> simp <;> omega

theorem begins_toJson (wire : Wire) :
    Begins wire.toJson (· ≠ 0x5d) := ⟨0x7b, _, rfl, rfl, by decide⟩

theorem length_toJson (wire : Wire) : 5 ≤ wire.toJson.length :=
  Json.length_object (by simp)

theorem id_ofMetric (m : Metric) : (ofMetric m).id = m.id := by
  unfold ofMetric
  split <;> rfl

theorem type_ofMetric (m : Metric) : (ofMetric m).type = m.kind.name := by
  unfold ofMetric
  split <;> rfl

theorem key_ofMetric {m : Metric} (named : m.id ≠ "") : (ofMetric m).key = .ok m.key := by
  have kind : Kind.read m.kind.name = .ok m.kind := by rw [Kind.read, Kind.ofText?_name]
  rw [Wire.key, id_ofMetric, if_neg named, type_ofMetric, kind]
  rfl

theorem toMetric_ofMetric {m : Metric} (named : m.id ≠ "") : (ofMetric m).toMetric = .ok m := by
  simp only [toMetric, key_ofMetric named, ok_bind]
  obtain ⟨id, value⟩ := m
  cases value <;> rfl

theorem kept_ofMetric {m : Metric} (finite : m.value.isFinite) :
    (ofMetric m).kept = ofMetric m := by
  obtain ⟨id, value⟩ := m
  cases value with
  | gauge reading =>
    have whole : (some reading).filter (·.isFinite) = some reading := Option.filter_some_pos finite
    simp only [ofMetric, kept, whole]
  | counter delta => rfl

theorem toMetric_kept {m : Metric} (notFinite : m.value.isFinite = false) (named : m.id ≠ "") :
    (ofMetric m).kept.toMetric = .error (.missingValue m.id m.kind) := by
  have key : (ofMetric m).kept.key = .ok m.key := key_ofMetric named
  simp only [toMetric, key, ok_bind]
  obtain ⟨id, value⟩ := m
  cases value with
  | gauge reading =>
    have none : (some reading).filter (·.isFinite) = none := Option.filter_some_neg notFinite
    simp only [ofMetric, kept, none]
    rfl
  | counter delta => cases notFinite

theorem toMetric_of_unnamed {wire : Wire} (unnamed : wire.id = "") :
    wire.toMetric = .error .emptyId := by
  rw [toMetric, key, if_pos unnamed]
  rfl

/-- What is read back of a metric's record makes the metric, if it has a name and a finite reading,
and else no metric at all. -/
theorem toMetric_kept_cases (m : Metric) :
    (m.id ≠ "" ∧ m.value.isFinite = true) ∧ (ofMetric m).kept.toMetric = .ok m ∨
      ¬ (m.id ≠ "" ∧ m.value.isFinite = true) ∧
      ∃ invalid, (ofMetric m).kept.toMetric = .error invalid := by
  by_cases named : m.id ≠ ""
  · by_cases finite : m.value.isFinite = true
    · refine .inl ⟨⟨named, finite⟩, ?_⟩
      rw [kept_ofMetric finite, toMetric_ofMetric named]
    · exact .inr ⟨fun valid => finite valid.2, _, toMetric_kept (Bool.eq_false_iff.2 finite) named⟩
  · have unnamed : (ofMetric m).kept.id = "" := (id_ofMetric m).trans (not_not.1 named)
    exact .inr ⟨fun valid => named valid.1, _, toMetric_of_unnamed unnamed⟩

end Wire
namespace Metric

theorem document_toJson {m : Metric} (finite : m.value.isFinite) :
    Json.document Wire.ofJson m.toJson = .ok (Wire.ofMetric m) := by
  have long : 5 ≤ m.toJson.length := (Wire.ofMetric m).length_toJson
  rw [← Wire.kept_ofMetric finite]
  exact Json.document_of_answers ((Wire.ofMetric m).reads_toJson (Nat.lt_succ_of_le (by omega)))

theorem document_listToJson {ms : List Metric} (finite : ∀ m ∈ ms, m.value.isFinite) :
    Json.document (Json.list Wire.ofJson) (listToJson ms) = .ok (ms.map Wire.ofMetric) := by
  have each : ∀ m ∈ ms, ∀ bound ≥ 5,
      Json.Answers Wire.ofJson bound (Wire.ofMetric m).toJson (.ok (Wire.ofMetric m)) := by
    intro m member bound enough
    have reads := (Wire.ofMetric m).reads_toJson enough
    rwa [Wire.kept_ofMetric (finite m member)] at reads
  have answered := Json.document_list (by decide) each (fun m _ => (Wire.ofMetric m).begins_toJson)
    fun m _ => (Wire.ofMetric m).length_toJson
  exact answered.trans List.mapM_pure

theorem answers_toJson (m : Metric) {bound : Nat} (enough : 4 < bound) :
    Json.Answers ofJson bound m.toJson
      (if m.id ≠ "" ∧ m.value.isFinite then .ok m else .error .unfit) := by
  intro rest stops
  have wire := (Wire.ofMetric m).reads_toJson enough rest stops
  rw [ofJson, toJson, wire, ok_bind]
  rcases Wire.toMetric_kept_cases m with ⟨valid, made⟩ | ⟨invalid, fault, refused⟩
  · simp only [if_pos valid, made]
    rfl
  · simp only [if_neg invalid, refused]
    rfl

theorem document_ofJson_toJson (m : Metric) :
    Json.document ofJson m.toJson =
      if m.id ≠ "" ∧ m.value.isFinite then .ok m else .error .unfit := by
  have long : 5 ≤ m.toJson.length := (Wire.ofMetric m).length_toJson
  exact Json.document_of_answers (m.answers_toJson (by omega))

theorem document_ofJson (ms : List Metric) :
    Json.document (Json.list ofJson) (listToJson ms) =
      if ∀ m ∈ ms, m.id ≠ "" ∧ m.value.isFinite then .ok ms else .error .unfit := by
  have answered := Json.document_list (by decide) (fun m (_ : m ∈ ms) bound => m.answers_toJson)
    (fun m _ => (Wire.ofMetric m).begins_toJson) fun m _ => (Wire.ofMetric m).length_toJson
  exact answered.trans (mapM_check _ ms)

end Metric
end Telemetry
