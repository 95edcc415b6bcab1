import ServerUnit.JsonSchema.Validator
import Mathlib.Data.List.Basic

/-!
# What a schema means

The schemas of the server are trees of objects, texts and numbers with bounds, with notes. A value is
accepted by the validator that is made of such a tree exactly when the tree describes it, and when
it is not, the error is about a part of it that is at the place the error names.
-/

namespace ServerUnit

open Lib

/-- The keywords without a meaning. -/
inductive SchemaNote where
  | schema | title | description
  deriving DecidableEq

def SchemaNote.key : SchemaNote → String
  | schema      => "$schema"
  | title       => "title"
  | description => "description"

/-- What a value should be. -/
inductive Shape where
  | string (notes : List (SchemaNote × String))
  | number (notes : List (SchemaNote × String)) (minimum maximum : Option ℤ)
  | object (notes : List (SchemaNote × String)) (properties : List (String × Shape))
    (required : List String)

/-- The part of a value at the end of a path of keys. -/
inductive Json.Reaches : Json → List String → Json → Prop where
  | here (j : Json) : Reaches j [] j
  | member (fields : List (String × Json)) (key : String) (value part : Json) (path : List String)
      (hmem : (key, value) ∈ fields) (hpath : Reaches value path part) :
      Reaches (.obj fields) (key :: path) part

/-- The value has the fault that the message tells of. -/
def SchemaMessage.Fits : SchemaMessage → Json → Prop
  | .requiredPropertyNotFound r, j => ∃ fields, j = .obj fields ∧ fields.lookup r = none
  | .exceedsMaximum m, j => ∃ q, j.toDouble = .ok q ∧ m < q
  | .exceedsOrEqualsMaximum m, j => ∃ q, j.toDouble = .ok q ∧ m ≤ q
  | .belowMinimum m, j => ∃ q, j.toDouble = .ok q ∧ q < m
  | .belowOrEqualsMinimum m, j => ∃ q, j.toDouble = .ok q ∧ q ≤ m
  | .unexpectedInstanceType, _ | .invalidAsPerFalseSchema, _ => True

namespace Shape

/-- The shape of the parts at the end of a path of keys. -/
inductive Leads : Shape → List String → Shape → Prop where
  | here (shape : Shape) : Leads shape [] shape
  | property (notes : List (SchemaNote × String)) (properties : List (String × Shape))
      (required : List String) (key : String) (shape part : Shape) (path : List String)
      (hshape : properties.lookup key = some shape) (hpath : Leads shape path part) :
      Leads (.object notes properties required) (key :: path) part

/-- The value is of the shape. Numbers and their bounds compare as doubles, and members of an object
that are not described may be anything. -/
inductive Describes : Shape → Json → Prop where
  | string (notes : List (SchemaNote × String)) (s : String) : Describes (.string notes) (.str s)
  | number (notes : List (SchemaNote × String)) (minimum maximum : Option ℤ) (j : Json) (q : ℚ)
      (hq : j.toDouble = .ok q) (hmin : ∀ m ∈ minimum, FloatFormat.binary64.round m ≤ q)
      (hmax : ∀ m ∈ maximum, q ≤ FloatFormat.binary64.round m) :
      Describes (.number notes minimum maximum) j
  | object (notes : List (SchemaNote × String)) (properties : List (String × Shape))
      (required : List String) (fields : List (String × Json))
      (hrequired : ∀ r ∈ required, (fields.lookup r).isSome)
      (hproperties : ∀ key value shape, (key, value) ∈ fields →
        properties.lookup key = some shape → Describes shape value) :
      Describes (.object notes properties required) (.obj fields)

/-! ### The text of a schema -/

def notesJson (notes : List (SchemaNote × String)) : List (String × Json) :=
  notes.map fun n => (n.1.key, .str n.2)

def boundJson (key : String) : Option ℤ → List (String × Json)
  | none   => []
  | some m => [(key, .int m)]

mutual

/-- The schema of a shape. -/
def json : Shape → Json
  | .string notes => .obj (notesJson notes ++ [("type", .str "string")])
  | .number notes minimum maximum =>
    .obj (notesJson notes ++ [("type", .str "number")] ++ boundJson "minimum" minimum ++
      boundJson "maximum" maximum)
  | .object notes properties required =>
    .obj (notesJson notes ++ [("properties", .obj (propertiesJson properties)),
      ("required", .arr (required.map .str)), ("type", .str "object")])

def propertiesJson : List (String × Shape) → List (String × Json)
  | [] => []
  | (key, shape) :: properties => (key, shape.json) :: propertiesJson properties

end

/-! ### What is made of it -/

def scalars (string : Bool) (number : Option Numeric) : ScalarTypes :=
  { null := false, array := false, string, boolean := false, number_integer := number,
    number_float := number }

def numeric (minimum maximum : Option ℤ) : Numeric :=
  { T := .number_float_t, maximum := maximum.map (NumericType.ofInt .number_float_t),
    minimum := minimum.map (NumericType.ofInt .number_float_t), exclusiveMaximum := false,
    exclusiveMinimum := false }

/-- The validator of numbers, if numbers are of the shape. -/
def numberEntry : Shape → Option Numeric
  | .number _ minimum maximum => some (numeric minimum maximum)
  | _ => none

mutual

/-- The validator of a shape. -/
def compiled : Shape → Schema
  | .string _ => .type_schema (scalars true none) false [] []
  | .number _ minimum maximum =>
    .type_schema (scalars false (some (numeric minimum maximum))) false [] []
  | .object _ properties required =>
    .type_schema (scalars false none) true required (compiledProperties properties)

def compiledProperties : List (String × Shape) → List (String × Schema)
  | [] => []
  | (key, shape) :: properties => (key, shape.compiled) :: compiledProperties properties

end

variable {notes : List (SchemaNote × String)} {minimum maximum : Option ℤ}

/-- A note is no other keyword. -/
lemma lookup_notesJson (key : String) (hkey : key ∉ ["$schema", "title", "description"])
    (rest : List (String × Json)) : (notesJson notes ++ rest).lookup key = rest.lookup key := by
  rw [List.lookup_append, List.lookup_eq_none_iff.mpr, Option.none_or]
  intro entry hentry
  obtain ⟨n, -, rfl⟩ := List.mem_map.mp hentry
  rw [bne_iff_ne]
  rintro rfl
  apply hkey
  cases n.1 <;> simp [SchemaNote.key]

/-- No properties are read unless there is an object. -/
lemma makeProperties_false (sch : List (String × Json)) :
    Schema.makeProperties false sch = .ok [] := by
  induction sch with
  | nil => rfl
  | cons entry sch ih =>
    have hnot : ¬ (false = true ∧ entry.1 = "properties") := fun h => Bool.false_ne_true h.1
    rw [← ih]
    simp only [Schema.makeProperties, if_neg hnot]

lemma makeProperties_notesJson (rest : List (String × Json)) :
    Schema.makeProperties true (notesJson notes ++ rest) = Schema.makeProperties true rest := by
  induction notes with
  | nil => rfl
  | cons n notes ih =>
    have hkey : n.1.key ≠ "properties" := by cases n.1 <;> simp [SchemaNote.key]
    have hnot : ¬ (true = true ∧ n.1.key = "properties") := fun h => hkey h.2
    rw [notesJson, List.map_cons, List.cons_append, ← ih, notesJson]
    exact if_neg hnot

lemma requiredNames_map (required : List String) :
    Schema.requiredNames true (some (.arr (required.map .str))) = .ok required := by
  rw [Schema.requiredNames, if_pos rfl, Outcome.mapM_eq_ok]
  induction required with
  | nil => exact .nil
  | cons r required ih => exact .cons rfl ih

/-- The bounds of a number are read from its schema. -/
lemma makeNumeric_boundJson :
    Schema.makeNumeric .number_float_t (notesJson notes ++ ([("type", .str "number")] ++
      (boundJson "minimum" minimum ++ boundJson "maximum" maximum))) =
        .ok (numeric minimum maximum) := by
  simp only [Schema.makeNumeric, Schema.bound, lookup_notesJson "maximum" (by decide),
    lookup_notesJson "minimum" (by decide), lookup_notesJson "exclusiveMaximum" (by decide),
    lookup_notesJson "exclusiveMinimum" (by decide)]
  cases minimum with
  | none => cases maximum <;> rfl
  | some m => cases maximum <;> rfl

/-- The parts of a schema are made one by one. -/
lemma make_eq_ok {sch : List (String × Json)} {types required : List String}
    {properties : List (String × Schema)} {number_integer number_float : Option Numeric}
    (htypes : Schema.typeNames (sch.lookup "type") = types)
    (hrequired : Schema.requiredNames (decide ("object" ∈ types)) (sch.lookup "required") =
      .ok required)
    (hproperties : Schema.makeProperties (decide ("object" ∈ types)) sch = .ok properties)
    (hinteger : Schema.numericEntry types "integer" .number_integer_t sch = .ok number_integer)
    (hfloat : Schema.numericEntry types "number" .number_float_t sch = .ok number_float) :
    Schema.make (.obj sch) = .ok (.type_schema
      ⟨decide ("null" ∈ types), decide ("array" ∈ types), decide ("string" ∈ types),
        decide ("boolean" ∈ types), number_integer <|> number_float, number_float⟩
      (decide ("object" ∈ types)) required properties) := by
  rw [Schema.make]
  simp only [htypes, hrequired, hproperties, hinteger, hfloat, Outcome.ok_bind]
  rfl

mutual

/-- The validator of a shape is made of its schema. -/
lemma make_json (shape : Shape) : Schema.make shape.json = .ok shape.compiled := by
  match shape with
  | .string notes =>
    have htypes : Schema.typeNames ((notesJson notes ++ [("type", Json.str "string")]).lookup
        "type") = ["string"] := by
      rw [lookup_notesJson "type" (by decide)]
      rfl
    exact make_eq_ok htypes rfl (makeProperties_false _) rfl rfl
  | .number notes minimum maximum =>
    have htypes : Schema.typeNames ((notesJson notes ++ ([("type", Json.str "number")] ++
        (boundJson "minimum" minimum ++ boundJson "maximum" maximum))).lookup "type") =
          ["number"] := by
      rw [lookup_notesJson "type" (by decide)]
      rfl
    have hfloat : Schema.numericEntry ["number"] "number" .number_float_t (notesJson notes ++
        ([("type", Json.str "number")] ++ (boundJson "minimum" minimum ++
          boundJson "maximum" maximum))) = .ok (some (numeric minimum maximum)) := by
      rw [Schema.numericEntry, if_pos (by decide), makeNumeric_boundJson]
      rfl
    rw [json, List.append_assoc, List.append_assoc]
    exact make_eq_ok htypes rfl (makeProperties_false _) rfl hfloat
  | .object notes properties required =>
    have htypes : Schema.typeNames ((notesJson notes ++
        [("properties", Json.obj (propertiesJson properties)),
          ("required", .arr (required.map .str)), ("type", .str "object")]).lookup "type") =
            ["object"] := by
      rw [lookup_notesJson "type" (by decide)]
      rfl
    have hrequired : Schema.requiredNames true ((notesJson notes ++
        [("properties", Json.obj (propertiesJson properties)),
          ("required", .arr (required.map .str)), ("type", .str "object")]).lookup "required") =
            .ok required := by
      rw [lookup_notesJson "required" (by decide)]
      exact requiredNames_map required
    have hproperties : Schema.makeProperties true (notesJson notes ++
        [("properties", Json.obj (propertiesJson properties)),
          ("required", .arr (required.map .str)), ("type", .str "object")]) =
            .ok (compiledProperties properties) := by
      rw [makeProperties_notesJson]
      exact makeEach_propertiesJson properties
    exact make_eq_ok htypes hrequired hproperties rfl rfl

lemma makeEach_propertiesJson (properties : List (String × Shape)) :
    Schema.makeEach (propertiesJson properties) = .ok (compiledProperties properties) := by
  match properties with
  | [] => rfl
  | (key, shape) :: properties =>
    rw [propertiesJson, Schema.makeEach, make_json shape, makeEach_propertiesJson properties]
    rfl

end

/-! ### What the validator accepts -/

variable {ptr : List String}

/-- One validation after the other. -/
lemma andThen_eq_ok {v w : Validation} : (v >>= fun _ => w) = .ok () ↔ v = .ok () ∧ w = .ok () := by
  cases v with
  | error e => exact iff_of_false (fun h => by cases h) fun h => by cases h.1
  | ok u => exact ⟨fun h => ⟨rfl, h⟩, And.right⟩

lemma lookup_compiledProperties (properties : List (String × Shape)) (key : String) :
    (compiledProperties properties).lookup key = (properties.lookup key).map compiled := by
  induction properties with
  | nil => rfl
  | cons property properties ih =>
    obtain ⟨key', shape⟩ := property
    rw [compiledProperties, List.lookup_cons, List.lookup_cons]
    cases key == key' with
    | true => rfl
    | false => exact ih

lemma validateRequired_eq_ok {fields : List (String × Json)} {required : List String} :
    Schema.validateRequired ptr fields required = .ok () ↔
      ∀ r ∈ required, (fields.lookup r).isSome := by
  induction required with
  | nil => exact iff_of_true rfl fun r hr => by cases hr
  | cons r required ih =>
    rw [Schema.validateRequired, List.forall_mem_cons]
    cases hlookup : fields.lookup r with
    | none => exact iff_of_false (fun h => by cases h) fun h => by cases h.1
    | some value => simpa using ih

lemma validateMaximum_eq_ok {inst : Json} {n : Numeric} {q : ℚ} (hn : n.exclusiveMaximum = false) :
    Schema.validateMaximum ptr inst n q = .ok () ↔ ∀ m ∈ n.maximum, q ≤ m := by
  rw [Schema.validateMaximum]
  cases hmaximum : n.maximum with
  | none => exact iff_of_true rfl fun m hm => by cases hm
  | some maximum =>
    have hexclusive : ¬ (n.exclusiveMaximum = true ∧ maximum ≤ q) := by simp [hn]
    simp only [if_neg hexclusive, Option.mem_some_iff, forall_eq']
    split_ifs with h
    · exact iff_of_false (fun h => by cases h) (not_le.mpr h)
    · exact iff_of_true rfl (not_lt.mp h)

lemma validateMinimum_eq_ok {inst : Json} {n : Numeric} {q : ℚ} (hn : n.exclusiveMinimum = false) :
    Schema.validateMinimum ptr inst n q = .ok () ↔ ∀ m ∈ n.minimum, m ≤ q := by
  rw [Schema.validateMinimum]
  cases hminimum : n.minimum with
  | none => exact iff_of_true rfl fun m hm => by cases hm
  | some minimum =>
    have hexclusive : ¬ (n.exclusiveMinimum = true ∧ q ≤ minimum) := by simp [hn]
    simp only [if_neg hexclusive, Option.mem_some_iff, forall_eq']
    split_ifs with h
    · exact iff_of_false (fun h => by cases h) (not_le.mpr h)
    · exact iff_of_true rfl (not_lt.mp h)

lemma validateNumeric_eq_ok {inst : Json} {q : ℚ} :
    Schema.validateNumeric ptr inst (numeric minimum maximum) q = .ok () ↔
      (∀ m ∈ minimum, FloatFormat.binary64.round m ≤ q) ∧
        ∀ m ∈ maximum, q ≤ FloatFormat.binary64.round m := by
  rw [Schema.validateNumeric, andThen_eq_ok, validateMaximum_eq_ok rfl, validateMinimum_eq_ok rfl,
    and_comm]
  simp [numeric, NumericType.ofInt]

/-- Integers have the validator of all numbers. -/
lemma validate_int (shape : Shape) (ptr : List String) (n : ℤ) :
    shape.compiled.validate ptr (.int n) =
      Schema.validateNumber ptr (.int n) shape.numberEntry fun T => T.ofInt n := by
  cases shape <;> rfl

lemma validate_float (shape : Shape) (ptr : List String) (q : ℚ) :
    shape.compiled.validate ptr (.float q) =
      Schema.validateNumber ptr (.float q) shape.numberEntry fun _ => q := by
  cases shape <;> rfl

/-- A number is of a shape when the shape is one of numbers and the bounds hold. -/
lemma validateNumber_eq_ok (shape : Shape) {j : Json} {value : NumericType → ℚ}
    (hj : j.toDouble = .ok (value .number_float_t)) :
    Schema.validateNumber ptr j shape.numberEntry value = .ok () ↔ shape.Describes j := by
  cases shape with
  | number notes minimum maximum =>
    refine validateNumeric_eq_ok.trans ⟨?_, ?_⟩
    · rintro ⟨hmin, hmax⟩
      exact .number notes minimum maximum j _ hj hmin hmax
    · intro h
      cases h with
      | number _ _ _ _ q hq hmin hmax =>
        cases Except.ok.inj (hj.symm.trans hq)
        exact ⟨hmin, hmax⟩
  | string notes =>
    refine iff_of_false (fun h => by cases h) fun h => ?_
    cases h
    cases hj
  | object notes properties required =>
    refine iff_of_false (fun h => by cases h) fun h => ?_
    cases h
    cases hj

/-- A value of another type is of no shape. -/
lemma validateEntry_eq_ok (shape : Shape) {j : Json} (hnumber : ∀ q, j.toDouble ≠ .ok q)
    (hstring : ∀ s, j ≠ .str s) (hobject : ∀ fields, j ≠ .obj fields)
    (herror : ∃ e, shape.compiled.validate ptr j = .error e) :
    shape.compiled.validate ptr j = .ok () ↔ shape.Describes j := by
  obtain ⟨e, he⟩ := herror
  rw [he]
  refine iff_of_false (fun h => by cases h) fun h => ?_
  cases h with
  | string _ s => exact hstring s rfl
  | number _ _ _ _ q hq => exact hnumber q hq
  | object _ _ _ fields => exact hobject fields rfl

mutual

/-- The validator of a shape accepts what the shape describes. -/
lemma validate_compiled (shape : Shape) (ptr : List String) (j : Json) :
    shape.compiled.validate ptr j = .ok () ↔ shape.Describes j := by
  match j with
  | .null | .bool _ | .arr _ =>
    refine validateEntry_eq_ok shape (by rintro _ ⟨⟩) (by rintro _ ⟨⟩) (by rintro _ ⟨⟩) ?_
    cases shape <;> exact ⟨_, rfl⟩
  | .str s =>
    cases shape with
    | string notes => exact iff_of_true rfl (.string notes s)
    | number notes minimum maximum =>
      refine iff_of_false (fun h => by cases h) fun h => ?_
      cases h with
      | number _ _ _ _ q hq => cases hq
    | object notes properties required =>
      exact iff_of_false (fun h => by cases h) fun h => by cases h
  | .int n =>
    rw [validate_int]
    exact validateNumber_eq_ok shape rfl
  | .float q =>
    rw [validate_float]
    exact validateNumber_eq_ok shape rfl
  | .obj fields =>
    cases shape with
    | string notes => exact iff_of_false (fun h => by cases h) fun h => by cases h
    | number notes minimum maximum =>
      refine iff_of_false (fun h => by cases h) fun h => ?_
      cases h with
      | number _ _ _ _ q hq => cases hq
    | object notes properties required =>
      have hitems := validateItems_compiled properties ptr fields
      rw [compiled, Schema.validate]
      simp only [if_true, andThen_eq_ok, validateRequired_eq_ok, hitems]
      constructor
      · rintro ⟨hrequired, hproperties⟩
        exact .object notes properties required fields hrequired hproperties
      · intro h
        cases h with
        | object _ _ _ _ hrequired hproperties => exact ⟨hrequired, hproperties⟩

lemma validateItems_compiled (properties : List (String × Shape)) (ptr : List String)
    (fields : List (String × Json)) :
    Schema.validateItems (compiledProperties properties) ptr fields = .ok () ↔
      ∀ key value shape, (key, value) ∈ fields → properties.lookup key = some shape →
        shape.Describes value := by
  match fields with
  | [] => exact iff_of_true rfl fun _ _ _ hmem => by cases hmem
  | (key, value) :: items =>
    have hitems := validateItems_compiled properties ptr items
    have hvalue : (match (compiledProperties properties).lookup key with
        | none   => Schema.accept
        | some s => s.validate (ptr ++ [key]) value) = .ok () ↔
          ∀ shape, properties.lookup key = some shape → shape.Describes value := by
      rw [lookup_compiledProperties]
      cases properties.lookup key with
      | none => exact iff_of_true rfl fun _ hnone => by cases hnone
      | some shape => simpa using validate_compiled shape (ptr ++ [key]) value
    refine (andThen_eq_ok.trans (and_congr hvalue hitems)).trans ?_
    constructor
    · rintro ⟨hvalue, hitems⟩ key' value' shape hmem hshape
      rcases List.mem_cons.mp hmem with heq | hmem
      · cases heq
        exact hvalue shape hshape
      · exact hitems key' value' shape hmem hshape
    · intro h
      exact ⟨fun shape hshape => h key value shape List.mem_cons_self hshape,
        fun key' value' shape hmem => h key' value' shape (List.mem_cons_of_mem _ hmem)⟩

end

/-! ### What the errors say -/

/-- The error is about a part of the value, at the place it names, that is not of the shape which
the parts there should be of. -/
def Blames (shape : Shape) (ptr : List String) (j : Json) (e : SchemaError) : Prop :=
  ∃ path part, e.ptr = ptr ++ path ∧ j.Reaches path e.inst ∧ shape.Leads path part ∧
    ¬ part.Describes e.inst ∧ e.message.Fits e.inst

variable {shape : Shape} {j : Json} {e : SchemaError}

/-- The error is about the value itself. -/
lemma Blames.here (h : shape.compiled.validate ptr j = .error e) (hptr : e.ptr = ptr)
    (hinst : e.inst = j) (hfits : e.message.Fits j) : shape.Blames ptr j e := by
  refine ⟨[], shape, ?_, ?_, .here shape, ?_, hinst ▸ hfits⟩
  · rw [hptr, List.append_nil]
  · rw [hinst]
    exact .here j
  · rw [hinst, ← validate_compiled shape ptr j, h]
    rintro ⟨⟩

lemma andThen_eq_error {v w : Validation} (h : (v >>= fun _ => w) = .error e) :
    v = .error e ∨ v = .ok () ∧ w = .error e := by
  cases v with
  | error e' => exact .inl h
  | ok u => exact .inr ⟨rfl, h⟩

lemma validateRequired_eq_error {fields : List (String × Json)} {required : List String}
    (h : Schema.validateRequired ptr fields required = .error e) :
    e.ptr = ptr ∧ e.inst = .obj fields ∧ e.message.Fits (.obj fields) := by
  induction required with
  | nil => cases h
  | cons r required ih =>
    rw [Schema.validateRequired] at h
    split_ifs at h with hnone
    · cases h
      exact ⟨rfl, rfl, fields, rfl, Option.isNone_iff_eq_none.mp hnone⟩
    · exact ih h

lemma validateNumeric_eq_error {q : ℚ} {n : Numeric} (hj : j.toDouble = .ok q)
    (h : Schema.validateNumeric ptr j n q = .error e) :
    e.ptr = ptr ∧ e.inst = j ∧ e.message.Fits j := by
  rcases andThen_eq_error h with h | ⟨-, h⟩
  · rw [Schema.validateMaximum] at h
    split at h
    · cases h
    · split_ifs at h with hexclusive hlt
      · cases h
        exact ⟨rfl, rfl, q, hj, hexclusive.2⟩
      · cases h
        exact ⟨rfl, rfl, q, hj, hlt⟩
      · cases h
  · rw [Schema.validateMinimum] at h
    split at h
    · cases h
    · split_ifs at h with hexclusive hlt
      · cases h
        exact ⟨rfl, rfl, q, hj, hexclusive.2⟩
      · cases h
        exact ⟨rfl, rfl, q, hj, hlt⟩
      · cases h

/-- A number is out of bounds, or not what is expected. -/
lemma validateNumber_eq_error {value : NumericType → ℚ}
    (hj : j.toDouble = .ok (value .number_float_t))
    (h : Schema.validateNumber ptr j shape.numberEntry value = .error e) :
    e.ptr = ptr ∧ e.inst = j ∧ e.message.Fits j := by
  cases shape with
  | number notes minimum maximum => exact validateNumeric_eq_error hj h
  | string notes =>
    cases h
    exact ⟨rfl, rfl, trivial⟩
  | object notes properties required =>
    cases h
    exact ⟨rfl, rfl, trivial⟩

mutual

lemma blames_of_validate (shape : Shape) (ptr : List String) (j : Json) (e : SchemaError)
    (h : shape.compiled.validate ptr j = .error e) : shape.Blames ptr j e := by
  match j with
  | .null | .bool _ | .arr _ | .str _ =>
    have hcopy := h
    cases shape <;> cases h <;> exact .here hcopy rfl rfl trivial
  | .int n =>
    obtain ⟨hptr, hinst, hfits⟩ := validateNumber_eq_error rfl ((validate_int ..).symm.trans h)
    exact .here h hptr hinst hfits
  | .float q =>
    obtain ⟨hptr, hinst, hfits⟩ := validateNumber_eq_error rfl ((validate_float ..).symm.trans h)
    exact .here h hptr hinst hfits
  | .obj fields =>
    cases shape with
    | string notes =>
      have hcopy := h
      cases h
      exact .here hcopy rfl rfl trivial
    | number notes minimum maximum =>
      have hcopy := h
      cases h
      exact .here hcopy rfl rfl trivial
    | object notes properties required =>
      rcases andThen_eq_error h with hrequired | ⟨-, hitems⟩
      · obtain ⟨hptr, hinst, hfits⟩ := validateRequired_eq_error hrequired
        exact .here h hptr hinst hfits
      · obtain ⟨key, value, shape, hmem, hshape, path, part, hptr, hreaches, hleads, hnot, hfits⟩ :=
          blames_of_validateItems properties ptr fields e hitems
        refine ⟨key :: path, part, ?_, .member fields key value _ path hmem hreaches,
          .property notes properties required key shape part path hshape hleads, hnot, hfits⟩
        rw [hptr, List.append_assoc, List.singleton_append]

lemma blames_of_validateItems (properties : List (String × Shape)) (ptr : List String)
    (fields : List (String × Json)) (e : SchemaError)
    (h : Schema.validateItems (compiledProperties properties) ptr fields = .error e) :
    ∃ key value shape, (key, value) ∈ fields ∧ properties.lookup key = some shape ∧
      shape.Blames (ptr ++ [key]) value e := by
  match fields with
  | [] => cases h
  | (key, value) :: items =>
    rcases andThen_eq_error h with hvalue | ⟨-, hitems⟩
    · have hlookup := lookup_compiledProperties properties key
      cases hshape : properties.lookup key with
      | none =>
        rw [hshape] at hlookup
        rw [hlookup] at hvalue
        cases hvalue
      | some shape =>
        rw [hshape] at hlookup
        rw [hlookup] at hvalue
        exact ⟨key, value, shape, List.mem_cons_self, hshape,
          blames_of_validate shape (ptr ++ [key]) value e hvalue⟩
    · obtain ⟨key', value', shape, hmem, hshape, hblames⟩ :=
        blames_of_validateItems properties ptr items e hitems
      exact ⟨key', value', shape, List.mem_cons_of_mem _ hmem, hshape, hblames⟩

end

end Shape

end ServerUnit
