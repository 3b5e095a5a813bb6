-- Everything that a call of the library can be refused for. A fault holds its
-- cause; the wording is in the texts of the causes and in `message` alone.
import ColumnStore.Text.Integer
import ColumnStore.Text.Printable

namespace ColumnStore

/-! ## Environments -/

/-- What stands where a text or a number is asked for. -/
inductive SettingShape where
  | nothing
  | list
  | table
  deriving DecidableEq, Repr

def SettingShape.text : SettingShape → String
  | nothing => "unit value"
  | list => "sequence"
  | table => "map"

inductive EnvironmentCause where
  | notText (found : SettingShape) (key : String)
  | notNumber (found : SettingShape) (key : String)
  | notInteger (text key : String)
  | tooWide (value bits : Nat) (key : String)
  | unknownPolicy (name : String)
  /-- The policy is neither a text nor a table of one name. -/
  | policyShape
  | sectionIsText (text : String)
  deriving DecidableEq, Repr

namespace EnvironmentCause

/-- A value of the wrong kind. -/
def invalidType (found expected : String) : String :=
  "invalid type: " ++ found ++ ", expected " ++ expected

def forKey (key : String) : String := " for key \x60" ++ key ++ "\x60"

def text : EnvironmentCause → String
  | notText found key => invalidType found.text "a string" ++ forKey key
  | notNumber found key => invalidType found.text "an integer" ++ forKey key
  | notInteger t key =>
    invalidType ("string " ++ Text.shown t) "an integer" ++ forKey key ++ " in the environment"
  | tooWide v bits key =>
    invalidType ("64-bit unsigned integer \x60" ++ toString v ++ "\x60")
      ("an unsigned " ++ toString bits ++ " bit integer") ++ forKey key
  | unknownPolicy name => "enum CyclePolicy does not have variant constructor " ++ name
  | policyShape => "value of enum CyclePolicy should be represented by either string or " ++
      "table with exactly one key"
  | sectionIsText t => invalidType ("string " ++ Text.shown t) "struct ProviderConfig"

end EnvironmentCause

/-! ## Types and values -/

inductive MappingCause where
  | nestedNullable
  | misplacedLowCardinality
  | emptyFixedString
  | nullableKey
  | emptyTuple
  | unmapped
  | scaleOverMaximum (scale maximum : Nat)
  | precisionRange (precision : Nat)
  | scaleOverPrecision (scale precision : Nat)
  | timePrecision (precision : Nat)
  | emptyEnum
  | wideEnum
  | emptyRecord
  | nullValue
  | negativeBig (value : String)
  | negativeUnsigned (value : String)
  | notMember (name : String)
  | notInteger (text : String)
  | unbalanced
  | unknownType
  | mapArguments
  | unnamedField
  | memberWithoutCode (entry : String)
  | unquotedMember (name : String)
  | memberCode (entry : String) (fault : Text.IntegerFault)
  deriving DecidableEq, Repr

def MappingCause.text : MappingCause → String
  | nestedNullable => "Nullable cannot be nested inside Nullable"
  | misplacedLowCardinality => "LowCardinality applies only to string, numeric and date columns"
  | emptyFixedString => "length must be at least 1 byte"
  | nullableKey => "map keys must not be nullable"
  | emptyTuple => "tuples need at least one element"
  | unmapped => "no ClickHouse type mapping is configured for this type"
  | scaleOverMaximum s m => "scale " ++ toString s ++ " exceeds maximum " ++ toString m
  | precisionRange p => "precision " ++ toString p ++ " is outside 1..=76"
  | scaleOverPrecision s p => "scale " ++ toString s ++ " exceeds precision " ++ toString p
  | timePrecision p => "precision " ++ toString p ++ " is outside 0..=9"
  | emptyEnum => "enums need at least one member"
  | wideEnum => "enum values must fit 16 bits with at most 65536 members"
  | emptyRecord => "Nested records need at least one readable field"
  | nullValue => "NULL for a non-nullable column"
  | negativeBig v => "negative value " ++ v ++ " for an unsigned 256-bit column"
  | negativeUnsigned v => "negative value " ++ v ++ " for an unsigned column"
  | notMember n => "'" ++ n ++ "' is not a member"
  | notInteger t => "'" ++ t ++ "' is not an integer"
  | unbalanced => "unbalanced parentheses"
  | unknownType => "unknown ClickHouse type"
  | mapArguments => "Map takes exactly two type arguments"
  | unnamedField => "Nested fields need names"
  | memberWithoutCode e => "enum entry '" ++ e ++ "' has no value"
  | unquotedMember n => "enum name " ++ n ++ " is not quoted"
  | memberCode e f => "enum value in '" ++ e ++ "': " ++ f.message

/-! ## Queries -/

inductive QueryCause where
  | unboundVariable
  | strayLambda
  | pathOffJson
  | opaqueConstruct
  | parameterName
  | parameterTypes (first second : String)
  | codeBeyondEnum (enumName : String)
  | codeNotInEnum (code : Int) (enumName : String)
  | nameNotInEnum (name enumName : String)
  | recordWithoutFields
  | notNested
  | nestedOffColumn
  | unknownType (subject : String)
  | noRules (type : String)
  | unknownMember (member type : String)
  | unknownMethod (method type : String)
  | lambdaArity
  | lambdaExpected
  | lambdaParameterName
  | indexNotInteger (value : String)
  | indexOverflow (index : Int)
  | methodArity (method : String) (count : Nat)
  | functionArity (count : Nat)
  | staticFunction
  | unknownFunction
  | instanceMethod
  | notIndexable
  | emptyKey
  | unclosedIndex
  | indexSyntax
  | textAfterIndex
  | dictionaryVersions
  | functionVersions
  | engineVersions (engine : String)
  | notSampled
  | sampleNotConstant
  | sampleRange (value : String)
  | settingName
  | settingNotConstant
  | settingNull
  deriving DecidableEq, Repr

def QueryCause.text : QueryCause → String
  | unboundVariable => "lambda parameter is not bound by an enclosing lambda"
  | strayLambda => "lambdas are only translatable as arguments of collection methods"
  | pathOffJson => "JSON paths apply only to JSON columns"
  | opaqueConstruct => "no server-side translation exists"
  | parameterName => "parameter names must be plain identifiers"
  | parameterTypes a b => "bound as both " ++ a ++ " and " ++ b
  | codeBeyondEnum e => "not a member of enum " ++ e
  | codeNotInEnum c e => toString c ++ " is not a member of enum " ++ e
  | nameNotInEnum n e => "'" ++ n ++ "' is not a member of enum " ++ e
  | recordWithoutFields => "nested type declares no fields"
  | notNested => "target is not a Nested column"
  | nestedOffColumn => "Nested operations apply only to a Nested column reference"
  | unknownType s => "type of " ++ s ++ " is unknown"
  | noRules t => "no translation rules for " ++ t
  | unknownMember m t => "no translation for member " ++ m ++ " on " ++ t
  | unknownMethod m t => "no translation for method " ++ m ++ " on " ++ t
  | lambdaArity => "collection lambdas take exactly one parameter"
  | lambdaExpected => "expected a lambda argument"
  | lambdaParameterName => "lambda parameter names must be plain identifiers"
  | indexNotInteger v => "index " ++ v ++ " is not an integer"
  | indexOverflow i => "index " ++ toString i ++ " overflows a one-based index"
  | methodArity m n => m ++ " called with " ++ toString n ++ " arguments"
  | functionArity n => "called with " ++ toString n ++ " arguments"
  | staticFunction => "static function called as an instance method"
  | unknownFunction => "no translation rule"
  | instanceMethod => "instance method called as a static function"
  | notIndexable => "target does not support indexing"
  | emptyKey => "empty key segment"
  | unclosedIndex => "unclosed '['"
  | indexSyntax => "array index must be an integer"
  | textAfterIndex => "unexpected text after ']'"
  | dictionaryVersions => "dictionaries have no row versions"
  | functionVersions => "table functions have no row versions"
  | engineVersions e => "engine " ++ e ++ " does not merge row versions"
  | notSampled => "the table declares no SAMPLE BY expression"
  | sampleNotConstant => "sampling ratio must be a constant, not a runtime parameter"
  | sampleRange v => v ++ " is neither a fraction in (0, 1] nor a row count of at least 1"
  | settingName => "setting names must be plain identifiers"
  | settingNotConstant => "setting values must be constants, not runtime parameters"
  | settingNull => "setting value cannot be NULL"

/-! ## Requests without an operation -/

/-- What kind of request the store has no operation for. -/
inductive UnsupportedKind where
  | update
  | transaction
  | foreignKey
  | primaryKey
  | columnRename
  | uniqueConstraint
  | identity
  deriving DecidableEq, Repr

namespace UnsupportedKind

def name : UnsupportedKind → String
  | update => "Update"
  | transaction => "Transaction"
  | foreignKey => "ForeignKey"
  | primaryKey => "PrimaryKey"
  | columnRename => "ColumnRename"
  | uniqueConstraint => "UniqueConstraint"
  | identity => "Identity"

/-- The way around that is shown where the request has none of its own. -/
def workaround : UnsupportedKind → String
  | update => "Insert a new row version and read it back through a ReplacingMergeTree table " ++
      "with FINAL, or run an explicit ALTER TABLE ... UPDATE mutation"
  | transaction => "ClickHouse only guarantees atomicity per inserted block; group writes into " ++
      "a single INSERT instead of a transaction"
  | foreignKey => "Enforce referential integrity in application code or with a dictionary lookup"
  | primaryKey => "The primary key is fixed at table creation; create a new table with the " ++
      "desired key and copy the data"
  | columnRename => "Add the new column with DEFAULT/MATERIALIZED from the old one, backfill, " ++
      "then drop the old column"
  | uniqueConstraint => "Use a ReplacingMergeTree engine keyed on the unique columns to " ++
      "deduplicate on merge"
  | identity => "Generate identifiers client-side (UUID, snowflake) or use generateUUIDv4() as " ++
      "a DEFAULT"

end UnsupportedKind

/-- A refused request and what it was about. -/
structure Unsupported where
  kind : UnsupportedKind
  table : Option String := none
  column : Option String := none
  object : Option String := none
  workaround : String := kind.workaround
  deriving DecidableEq, Repr

/-- What the request was about; a column is named only with its table. -/
def Unsupported.subject (u : Unsupported) : String :=
  let object := u.object.map ("object: " ++ ·)
  let parts := match u.table with
    | some t => ["table: " ++ t] ++ (u.column.map ("column: " ++ ·)).toList ++ object.toList
    | none => object.toList
  if parts.isEmpty then "" else " (" ++ ", ".intercalate parts ++ ")"

def Unsupported.message (u : Unsupported) : String :=
  "ClickHouse does not support " ++ u.kind.name ++ " operations" ++ u.subject ++
    ". Workaround: " ++ u.workaround

/-! ## Faults -/

inductive Fault where
  /-- The store has no operation for the request. -/
  | unsupported (request : Unsupported)
  /-- A type, a value or a type's text that does not map. -/
  | mapping (type : String) (cause : MappingCause)
  /-- A construct of a query that has no SQL. -/
  | inexpressible (construct : String) (cause : QueryCause)
  /-- A declaration out of its bounds. -/
  | invalid (setting value expected : String)
  /-- Migration operations that wait for one another; the tables they are on. -/
  | circular (tables : List String)
  /-- The provider's environment does not give a configuration. -/
  | provider (cause : EnvironmentCause)
  /-- The store refused a statement or answered in the wrong shape. -/
  | execution (text : String)
  deriving DecidableEq, Repr

namespace Fault

def invalidText (setting value expected : String) : String :=
  "Invalid configuration for " ++ setting ++ ": got " ++ value ++ ", expected " ++ expected

def message : Fault → String
  | unsupported u => u.message
  | mapping type cause => "No ClickHouse mapping for type '" ++ type ++ "': " ++ cause.text
  | inexpressible construct cause =>
    "Expression '" ++ construct ++ "' cannot be translated to ClickHouse SQL: " ++ cause.text
  | invalid setting value expected => invalidText setting value expected
  | circular tables => invalidText "migration operation order"
      ("circular dependency between " ++ ", ".intercalate tables)
      "an acyclic set of table dependencies"
  | provider cause => "Failed to load provider configuration: ClickHouse provider configuration " ++
      "could not be loaded from file or environment: " ++ cause.text
  | execution text => "SQL execution failed: " ++ text

end Fault

/-- A result, or the fault that stands in its place. -/
abbrev Outcome := Except Fault

end ColumnStore
