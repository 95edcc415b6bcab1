import ServerUnit.JsonSchema.Meaning
import ServerUnit.PacketProcessor.Exceptions

/-!
# The schemas of the server (`socket/prevalidate_json.cpp`, `packet_processor/`)

The checks of packets are made by validators that are made of four schemas. On JSON values, where
no key of an object comes twice, these validators are the predicates that the model has for them.
-/

namespace ServerUnit

open Lib

/-! ### The texts -/

/-- `packetSchema` of `prevalidate_json.cpp`. -/
def JsonPrevalidator.packetSchema : Json :=
  .obj [
    ("$schema", .str "http://json-schema.org/draft-07/schema#"),
    ("title", .str "packet prevalidator"),
    ("properties", .obj [
      ("head", .obj [
        ("description", .str "packet status"),
        ("type", .str "number")]),
      ("id", .obj [
        ("description", .str "CU identification number"),
        ("type", .str "string")])]),
    ("required", .arr [.str "head", .str "id"]),
    ("type", .str "object")]

/-- `packetSchema` of `packet_validator.cpp`. -/
def PacketValidator.packetSchema : Json :=
  .obj [
    ("$schema", .str "http://json-schema.org/draft-07/schema#"),
    ("title", .str "packet validator"),
    ("properties", .obj [
      ("id", .obj [
        ("description", .str "table ID"),
        ("type", .str "string")]),
      ("priority", .obj [
        ("description", .str "CU identification number"),
        ("type", .str "number"),
        ("minimum", .int 0),
        ("maximum", .int 3)]),
      ("data", .obj [
        ("description", .str "Data of packet"),
        ("type", .str "string")])]),
    ("required", .arr [.str "id", .str "priority", .str "data"]),
    ("type", .str "object")]

/-- `packetIdSchema`. -/
def ProcessStatusPacket.packetIdSchema : Json :=
  .obj [
    ("$schema", .str "http://json-schema.org/draft-07/schema#"),
    ("title", .str "packet validator"),
    ("properties", .obj [
      ("id", .obj [
        ("description", .str "table ID"),
        ("type", .str "string")])]),
    ("required", .arr [.str "id"]),
    ("type", .str "object")]

/-- `packetStatsSchema`. -/
def ProcessStatusPacket.packetStatsSchema : Json :=
  .obj [
    ("$schema", .str "http://json-schema.org/draft-07/schema#"),
    ("title", .str "packet validator"),
    ("properties", .obj [
      ("avgQueueTime", .obj [
        ("description", .str "Average queue time"),
        ("type", .str "number")]),
      ("taskQueue", .obj [
        ("description", .str "Task queue vector in string form"),
        ("type", .str "string")]),
      ("totalAvailableThreads", .obj [
        ("description", .str "Total alloted threads for this worker"),
        ("type", .str "number")])]),
    ("required", .arr [.str "avgQueueTime", .str "taskQueue", .str "totalAvailableThreads"]),
    ("type", .str "object")]

/-- `json_validator`: `set_root_schema`, and whether `validate` returns. -/
def json_validator (sch instance_ : Json) : Outcome Bool := do
  let root ← Schema.make sch
  return (root.validate [] instance_).toBool

/-! ### Their shapes -/

namespace Shape

/-- The notes of a root schema. -/
def rootNotes (title : String) : List (SchemaNote × String) :=
  [(.schema, "http://json-schema.org/draft-07/schema#"), (.title, title)]

/-- A property with a description. -/
def stringNoted (description : String) : Shape := .string [(.description, description)]

def numberNoted (description : String) : Shape := .number [(.description, description)] none none

def prevalidated : Shape :=
  .object (rootNotes "packet prevalidator")
    [("head", numberNoted "packet status"), ("id", stringNoted "CU identification number")]
    ["head", "id"]

def dataBody : Shape :=
  .object (rootNotes "packet validator")
    [("id", stringNoted "table ID"),
      ("priority", .number [(.description, "CU identification number")] (some 0) (some 3)),
      ("data", stringNoted "Data of packet")]
    ["id", "priority", "data"]

def identified : Shape :=
  .object (rootNotes "packet validator") [("id", stringNoted "table ID")] ["id"]

def stats : Shape :=
  .object (rootNotes "packet validator")
    [("avgQueueTime", numberNoted "Average queue time"),
      ("taskQueue", stringNoted "Task queue vector in string form"),
      ("totalAvailableThreads", numberNoted "Total alloted threads for this worker")]
    ["avgQueueTime", "taskQueue", "totalAvailableThreads"]

end Shape

/-! ### Objects -/

/-- No key of an object comes twice: `json` keeps the members in a map. -/
def Json.KeysDistinct : Json → Prop
  | .obj fields => (fields.map Prod.fst).Nodup
  | _ => True

instance : DecidablePred Json.KeysDistinct
  | .obj fields => inferInstanceAs (Decidable (fields.map Prod.fst).Nodup)
  | .null | .bool _ | .int _ | .float _ | .str _ | .arr _ => .isTrue trivial

namespace Shape

variable {notes : List (SchemaNote × String)} {properties : List (String × Shape)}
  {fields : List (String × Json)} {j : Json}

/-- The value under a key that comes once. -/
lemma lookup_of_mem {α : Type*} {l : List (String × α)} (hl : (l.map Prod.fst).Nodup)
    {key : String} {value : α} (hmem : (key, value) ∈ l) : l.lookup key = some value := by
  induction l with
  | nil => cases hmem
  | cons entry l ih =>
    obtain ⟨hnotMem, hl⟩ := List.nodup_cons.mp hl
    rcases List.mem_cons.mp hmem with rfl | hmem
    · exact List.lookup_cons_self
    · have hne : key ≠ entry.1 := by
        rintro rfl
        exact hnotMem (List.mem_map.mpr ⟨_, hmem, rfl⟩)
      rw [List.lookup_cons, beq_eq_false_iff_ne.mpr hne]
      exact ih hl hmem

lemma mem_of_lookup {α : Type*} {l : List (String × α)} {key : String} {value : α}
    (h : l.lookup key = some value) : (key, value) ∈ l := by
  obtain ⟨l₁, l₂, rfl, -⟩ := List.lookup_eq_some_iff.mp h
  exact List.mem_append_right _ List.mem_cons_self

/-- What is missing is read as a null, which is of no shape. -/
lemma not_describes_null (shape : Shape) : ¬ shape.Describes .null := by
  intro h
  cases h with
  | number _ _ _ _ q hq => cases hq

/-- An object with all properties required is described by its members. -/
lemma describes_obj_iff (hfields : (fields.map Prod.fst).Nodup)
    (hproperties : (properties.map Prod.fst).Nodup) :
    (Shape.object notes properties (properties.map Prod.fst)).Describes (.obj fields) ↔
      ∀ property ∈ properties, property.2.Describes (Json.member fields property.1) := by
  constructor
  · intro h property hmem
    cases h with
    | object _ _ _ _ hrequired hdescribes =>
      have hsome := hrequired property.1 (List.mem_map_of_mem hmem)
      obtain ⟨value, hvalue⟩ := Option.isSome_iff_exists.mp hsome
      rw [Json.member, hvalue]
      exact hdescribes property.1 value property.2 (mem_of_lookup hvalue)
        (lookup_of_mem hproperties hmem)
  · intro h
    refine .object notes properties _ fields (fun r hr => ?_) fun key value shape hmem hshape => ?_
    · obtain ⟨property, hmem, rfl⟩ := List.mem_map.mp hr
      have hmember := h property hmem
      by_contra hnone
      rw [Json.member, Option.not_isSome_iff_eq_none.mp hnone] at hmember
      exact not_describes_null property.2 hmember
    · have hmember := h (key, shape) (mem_of_lookup hshape)
      rw [Json.member, lookup_of_mem hfields hmem] at hmember
      exact hmember

@[simp] lemma describes_string_iff : (Shape.string notes).Describes j ↔ j.string?.isSome := by
  constructor
  · intro h
    cases h
    rfl
  · intro h
    obtain ⟨s, rfl⟩ := Json.string_cases h
    exact .string notes s

/-- A small integer compares with a number as with the double that the number is converted to. -/
lemma compare_toDouble {m : ℤ} (hm : |m| < 2 ^ 53) {q d : ℚ} (hq : j.number? = some q)
    (hd : j.toDouble = .ok d) :
    (FloatFormat.binary64.round m ≤ d ↔ m ≤ q) ∧ (d ≤ FloatFormat.binary64.round m ↔ q ≤ m) := by
  have hround : FloatFormat.binary64.round m = m :=
    FloatFormat.round_of_number (FloatFormat.number_intCast (by decide) hm.le)
  rw [hround]
  rcases Json.number_cases (Option.isSome_of_eq_some hq) with ⟨n, rfl⟩ | ⟨r, rfl⟩
  · cases hq
    cases hd
    rw [FloatFormat.le_round_intCast_iff (by decide) hm,
      FloatFormat.round_intCast_le_iff (by decide) hm]
    norm_cast
  · cases hq
    cases hd
    exact ⟨Iff.rfl, Iff.rfl⟩

/-- With small bounds, numbers compare as they are. -/
lemma describes_number_iff {minimum maximum : Option ℤ} (hminimum : ∀ m ∈ minimum, |m| < 2 ^ 53)
    (hmaximum : ∀ m ∈ maximum, |m| < 2 ^ 53) :
    (Shape.number notes minimum maximum).Describes j ↔ ∃ q, j.number? = some q ∧
      (∀ m ∈ minimum, (m : ℚ) ≤ q) ∧ ∀ m ∈ maximum, q ≤ (m : ℚ) := by
  constructor
  · intro h
    cases h with
    | number _ _ _ _ d hd hmin hmax =>
      obtain ⟨q, hq⟩ := Json.exists_number hd
      exact ⟨q, hq,
        fun m hm => (compare_toDouble (hminimum m hm) hq hd).1.mp (hmin m hm),
        fun m hm => (compare_toDouble (hmaximum m hm) hq hd).2.mp (hmax m hm)⟩
  · rintro ⟨q, hq, hmin, hmax⟩
    obtain ⟨d, hd⟩ := Json.exists_toDouble (Option.isSome_of_eq_some hq)
    exact .number notes minimum maximum j d hd
      (fun m hm => (compare_toDouble (hminimum m hm) hq hd).1.mpr (hmin m hm))
      (fun m hm => (compare_toDouble (hmaximum m hm) hq hd).2.mpr (hmax m hm))

@[simp] lemma describes_numberNoted_iff {description : String} :
    (numberNoted description).Describes j ↔ j.number?.isSome := by
  rw [numberNoted, describes_number_iff (by rintro m ⟨⟩) (by rintro m ⟨⟩)]
  simp [Option.isSome_iff_exists]

/-- The validator of a schema with a shape decides what the shape describes. -/
lemma json_validator_json {shape : Shape} {b : Bool} (h : shape.Describes j ↔ b = true) :
    json_validator shape.json j = .ok b := by
  rw [json_validator, make_json, Outcome.ok_bind, Outcome.pure_eq_ok]
  rw [← validate_compiled shape []] at h
  cases hresult : shape.compiled.validate [] j with
  | ok u => exact (h.mp hresult).symm
  | error e =>
    rw [hresult] at h
    exact (Bool.eq_false_iff.mpr fun hb => by cases h.mpr hb).symm

end Shape

/-! ### The four validators -/

namespace Shape

variable {j : Json}

lemma prevalidated_describes_iff (hj : j.KeysDistinct) :
    prevalidated.Describes j ↔ validateJson j = true := by
  cases j with
  | obj fields =>
    refine (describes_obj_iff hj (by decide)).trans ?_
    simp [stringNoted, validateJson]
  | _ => exact iff_of_false (fun h => by cases h) Bool.false_ne_true

lemma dataBody_describes_iff (hj : j.KeysDistinct) :
    dataBody.Describes j ↔ isDataPacket j = true := by
  cases j with
  | obj fields =>
    refine (describes_obj_iff hj (by decide)).trans ?_
    have hbounds : ∀ m ∈ some (0 : ℤ), |m| < 2 ^ 53 := by simp
    have hbounds' : ∀ m ∈ some (3 : ℤ), |m| < 2 ^ 53 := by simp
    cases hpriority : (Json.member fields "priority").number? with
    | none => simp [describes_number_iff hbounds hbounds', isDataPacket, hpriority]
    | some q =>
      simp [describes_number_iff hbounds hbounds', stringNoted, isDataPacket, hpriority, and_assoc,
        and_comm]
  | _ => exact iff_of_false (fun h => by cases h) Bool.false_ne_true

lemma identified_describes_iff (hj : j.KeysDistinct) :
    identified.Describes j ↔ j.sender.isSome = true := by
  cases j with
  | obj fields =>
    refine (describes_obj_iff hj (by decide)).trans ?_
    simp [stringNoted, Json.sender]
  | _ => exact iff_of_false (fun h => by cases h) Bool.false_ne_true

lemma stats_describes_iff (hj : j.KeysDistinct) :
    stats.Describes j ↔ validStats j = true := by
  cases j with
  | obj fields =>
    refine (describes_obj_iff hj (by decide)).trans ?_
    simp [stringNoted, validStats, and_assoc]
  | _ => exact iff_of_false (fun h => by cases h) Bool.false_ne_true

end Shape

/-- The validators that are made of the schemas of the server are the model's predicates. -/
theorem json_validator_schemas {j : Json} (hj : j.KeysDistinct) :
    json_validator JsonPrevalidator.packetSchema j = .ok (validateJson j) ∧
    json_validator PacketValidator.packetSchema j = .ok (isDataPacket j) ∧
    json_validator ProcessStatusPacket.packetIdSchema j = .ok j.sender.isSome ∧
    json_validator ProcessStatusPacket.packetStatsSchema j = .ok (validStats j) :=
  ⟨Shape.json_validator_json (Shape.prevalidated_describes_iff hj),
    Shape.json_validator_json (Shape.dataBody_describes_iff hj),
    Shape.json_validator_json (Shape.identified_describes_iff hj),
    Shape.json_validator_json (Shape.stats_describes_iff hj)⟩

/-- A priority of three is accepted, and one of four is not. -/
theorem json_validator_schemas_priority :
    json_validator PacketValidator.packetSchema
        (.obj [("data", .str ""), ("id", .str "t"), ("priority", .int 4)]) = .ok false ∧
      json_validator PacketValidator.packetSchema
        (.obj [("data", .str ""), ("id", .str "t"), ("priority", .int 3)]) = .ok true :=
  ⟨(json_validator_schemas (by decide)).2.1, (json_validator_schemas (by decide)).2.1⟩

end ServerUnit
