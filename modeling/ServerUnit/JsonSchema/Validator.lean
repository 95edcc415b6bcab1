import ServerUnit.Packet

/-!
# The validator of packets (`lib/json-validator.cpp`)

`schema::make` makes an object of the text of a schema, with a validator for each type of an
instance. `validate` calls the one for the type of its instance, and the handler of the server
throws at the first error. The keywords are those of the server's schemas, with the exclusive
bounds that belong to `minimum` and `maximum`.
-/

namespace ServerUnit

open Lib

/-! ### Compiled schemas -/

/-- The `T` of `numeric`. -/
inductive NumericType where
  | number_integer_t | number_float_t
  deriving DecidableEq

/-- `numeric`. -/
structure Numeric where
  T : NumericType
  maximum : Option ℚ
  minimum : Option ℚ
  exclusiveMaximum : Bool
  exclusiveMinimum : Bool
  deriving DecidableEq

/-- The entries of `type_` that have no schemas in them. -/
structure ScalarTypes where
  null : Bool
  array : Bool
  string : Bool
  boolean : Bool
  number_integer : Option Numeric
  number_float : Option Numeric
  deriving DecidableEq

/-- `boolean`, or `type_schema` with the parts of its `object`. -/
inductive Schema where
  | boolean (true_ : Bool)
  | type_schema (scalars : ScalarTypes) (object : Bool) (required : List String)
    (properties : List (String × Schema))

/-! ### Conversions -/

namespace NumericType

/-- An integer as a `T`. An unsigned one can be too large for `number_integer_t`. -/
def ofInt : NumericType → ℤ → ℚ
  | number_integer_t, n => (BitVec.ofInt 64 n).toInt
  | number_float_t, n   => FloatFormat.binary64.round n

/-- A double as a `T`, undefined out of range. -/
def ofFloat : NumericType → ℚ → Outcome ℚ
  | number_integer_t, q =>
    if -2 ^ 63 ≤ Json.truncate q ∧ Json.truncate q < 2 ^ 63 then .ok (Json.truncate q)
    else .error .undefined
  | number_float_t, q => .ok q

/-- `get<T>()`. -/
def get (T : NumericType) : Json → Outcome ℚ
  | .int n   => .ok (T.ofInt n)
  | .float q => T.ofFloat q
  | _        => .error .exception

end NumericType

/-! ### Validation -/

/-- The messages of the error handler, with what is inserted in their texts. -/
inductive SchemaMessage where
  /-- `instance invalid as per false-schema` -/
  | invalidAsPerFalseSchema
  /-- `unexpected instance type` -/
  | unexpectedInstanceType
  /-- `required property '…' not found in object` -/
  | requiredPropertyNotFound (r : String)
  /-- `instance exceeds maximum of …` -/
  | exceedsMaximum (maximum : ℚ)
  /-- `instance exceeds or equals maximum of …` -/
  | exceedsOrEqualsMaximum (maximum : ℚ)
  /-- `instance is below minimum of …` -/
  | belowMinimum (minimum : ℚ)
  /-- `instance is below or equals minimum of …` -/
  | belowOrEqualsMinimum (minimum : ℚ)
  deriving DecidableEq

/-- What the handler is told. -/
structure SchemaError where
  ptr : List String
  inst : Json
  message : SchemaMessage

/-- A validation that goes on until an error is thrown. -/
abbrev Validation := Except SchemaError Unit

namespace Schema

def accept : Validation := .ok ()

def error (ptr : List String) (inst : Json) (message : SchemaMessage) : Validation :=
  .error ⟨ptr, inst, message⟩

/-- The upper bound of `numeric::validate`. -/
def validateMaximum (ptr : List String) (inst : Json) (n : Numeric) (value : ℚ) : Validation :=
  match n.maximum with
  | none => accept
  | some maximum =>
    if n.exclusiveMaximum ∧ maximum ≤ value then
      error ptr inst (.exceedsOrEqualsMaximum maximum)
    else if maximum < value then error ptr inst (.exceedsMaximum maximum)
    else accept

/-- The lower bound. -/
def validateMinimum (ptr : List String) (inst : Json) (n : Numeric) (value : ℚ) : Validation :=
  match n.minimum with
  | none => accept
  | some minimum =>
    if n.exclusiveMinimum ∧ value ≤ minimum then
      error ptr inst (.belowOrEqualsMinimum minimum)
    else if value < minimum then error ptr inst (.belowMinimum minimum)
    else accept

def validateNumeric (ptr : List String) (inst : Json) (n : Numeric) (value : ℚ) : Validation := do
  validateMaximum ptr inst n value
  validateMinimum ptr inst n value

/-- An entry of `type_` that may be null. -/
def validateEntry (ptr : List String) (inst : Json) (entry : Bool) : Validation :=
  if entry then accept else error ptr inst .unexpectedInstanceType

/-- The entry of a type of number. The instance is converted to the type of the bounds. -/
def validateNumber (ptr : List String) (inst : Json) (entry : Option Numeric)
    (value : NumericType → ℚ) : Validation :=
  match entry with
  | none   => error ptr inst .unexpectedInstanceType
  | some n => validateNumeric ptr inst n (value n.T)

/-- `boolean::validate`, or the entry of a type that has no schemas in it. -/
def validateScalar (s : Schema) (ptr : List String) (inst : Json)
    (entry : ScalarTypes → Validation) : Validation :=
  match s with
  | .boolean true_ => if true_ then accept else error ptr inst .invalidAsPerFalseSchema
  | .type_schema scalars _ _ _ => entry scalars

/-- The loop over `required_`. -/
def validateRequired (ptr : List String) (fields : List (String × Json)) :
    List String → Validation
  | [] => accept
  | r :: required =>
    if (fields.lookup r).isNone then
      error ptr (.obj fields) (.requiredPropertyNotFound r)
    else
      validateRequired ptr fields required

mutual

/-- `validate` of a schema. -/
def validate (s : Schema) (ptr : List String) : Json → Validation
  | .null    => s.validateScalar ptr .null fun t => validateEntry ptr .null t.null
  | .bool b  => s.validateScalar ptr (.bool b) fun t => validateEntry ptr (.bool b) t.boolean
  | .str x   => s.validateScalar ptr (.str x) fun t => validateEntry ptr (.str x) t.string
  | .arr l   => s.validateScalar ptr (.arr l) fun t => validateEntry ptr (.arr l) t.array
  | .int n =>
    s.validateScalar ptr (.int n) fun t =>
      validateNumber ptr (.int n) t.number_integer fun T => T.ofInt n
  | .float q =>
    -- the entry for these instances is a `numeric<number_float_t>`
    s.validateScalar ptr (.float q) fun t => validateNumber ptr (.float q) t.number_float fun _ => q
  | .obj fields =>
    match s with
    | .boolean true_ =>
      if true_ then accept else error ptr (.obj fields) .invalidAsPerFalseSchema
    | .type_schema _ object required properties =>
      if object then do
        validateRequired ptr fields required
        validateItems properties ptr fields
      else
        error ptr (.obj fields) .unexpectedInstanceType

/-- The loop over the items of an object. -/
def validateItems (properties : List (String × Schema)) (ptr : List String) :
    List (String × Json) → Validation
  | [] => accept
  | (key, value) :: items => do
    (match properties.lookup key with
      | none   => accept
      | some s => s.validate (ptr ++ [key]) value : Validation)
    validateItems properties ptr items

end

/-! ### `schema::make` -/

/-- The names in `type`. Without one, all types are possible. -/
def typeNames : Option Json → List String
  | none => ["null", "object", "array", "string", "boolean", "integer", "number"]
  | some (.str schema_type) => [schema_type]
  | some (.arr types) => types.filterMap Json.string?
  | some _ => []

/-- A bound of `numeric`, converted to its type. -/
def bound (T : NumericType) (sch : List (String × Json)) (key : String) :
    Outcome (Option ℚ) :=
  match sch.lookup key with
  | none => return none
  | some value => do
    let b ← T.get value
    return some b

/-- The constructor of `numeric`. An exclusive bound takes the place of the other one. -/
def makeNumeric (T : NumericType) (sch : List (String × Json)) : Outcome Numeric := do
  let maximum ← bound T sch "maximum"
  let minimum ← bound T sch "minimum"
  let exclusiveMaximum ← bound T sch "exclusiveMaximum"
  let exclusiveMinimum ← bound T sch "exclusiveMinimum"
  return {
    T
    maximum := exclusiveMaximum <|> maximum
    minimum := exclusiveMinimum <|> minimum
    exclusiveMaximum := exclusiveMaximum.isSome
    exclusiveMinimum := exclusiveMinimum.isSome }

/-- The entry of a type of number. -/
def numericEntry (types : List String) (name : String) (T : NumericType)
    (sch : List (String × Json)) : Outcome (Option Numeric) :=
  if name ∈ types then do
    let n ← makeNumeric T sch
    return some n
  else
    return none

/-- The conversion of `required` to a vector of strings, if there is an `object` to be made. -/
def requiredNames (object : Bool) (attr : Option Json) : Outcome (List String) :=
  if object then
    match attr with
    | none => return []
    | some (.arr names) => names.mapM Json.toStr
    | some _ => .error .exception
  else
    return []

mutual

/-- `schema::make`. -/
def make : Json → Outcome Schema
  | .bool true_ => return .boolean true_
  | .obj sch => do
    let types := typeNames (sch.lookup "type")
    let object := decide ("object" ∈ types)
    let required ← requiredNames object (sch.lookup "required")
    let properties ← makeProperties object sch
    let number_integer ← numericEntry types "integer" .number_integer_t sch
    let number_float ← numericEntry types "number" .number_float_t sch
    let scalars :=
      { null := decide ("null" ∈ types)
        array := decide ("array" ∈ types)
        string := decide ("string" ∈ types)
        boolean := decide ("boolean" ∈ types)
        -- the validator of numbers is used for integers that have none of their own
        number_integer := number_integer <|> number_float
        number_float }
    return .type_schema scalars object required properties
  | _ => .error .exception

/-- `sch.find("properties")`; it is an object. -/
def makeProperties (object : Bool) : List (String × Json) → Outcome (List (String × Schema))
  | [] => return []
  | (key, value) :: sch =>
    if object ∧ key = "properties" then
      match value with
      | .obj properties => makeEach properties
      | _ => .error .disabled
    else
      makeProperties object sch

/-- The loop over the properties. -/
def makeEach : List (String × Json) → Outcome (List (String × Schema))
  | [] => return []
  | (key, value) :: items => do
    let s ← make value
    let properties ← makeEach items
    return (key, s) :: properties

end

end Schema

end ServerUnit
