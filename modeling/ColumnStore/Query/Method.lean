-- The methods, members and functions that an application may call, found by
-- the class of the receiver and the name.
import ColumnStore.Types.ValueType

namespace ColumnStore

/-- The class of a call's receiver. -/
inductive Receiver where
  | array
  | map
  | nested
  | string
  | dateTime
  | json
  | math
  deriving DecidableEq, Repr

namespace Receiver

def ofType? (t : ValueType) : Option Receiver :=
  match t.underlying with
  | .array _ => some array
  | .map _ _ => some map
  | .nested _ _ => some nested
  | .string | .bytes => some string
  | .date | .dateTime | .dateTimeOffset => some dateTime
  | .json => some json
  | _ => none

/-- The class that static functions are called on. -/
def ofClass? (cls : String) : Option Receiver :=
  match cls with
  | "Math" => some math
  | "String" | "string" => some string
  | _ => none

end Receiver

inductive DateUnit where
  | years
  | months
  | days
  | hours
  | minutes
  | seconds
  | milliseconds
  deriving DecidableEq, Repr

def DateUnit.function : DateUnit → String
  | years => "addYears"
  | months => "addMonths"
  | days => "addDays"
  | hours => "addHours"
  | minutes => "addMinutes"
  | seconds => "addSeconds"
  | milliseconds => "addMilliseconds"

inductive DatePart where
  | year
  | month
  | day
  | hour
  | minute
  | second
  | millisecond
  | dayOfWeek
  | dayOfYear
  | date
  deriving DecidableEq, Repr

def DatePart.function : DatePart → String
  | year => "toYear"
  | month => "toMonth"
  | day => "toDayOfMonth"
  | hour => "toHour"
  | minute => "toMinute"
  | second => "toSecond"
  | millisecond => "toMillisecond"
  | dayOfWeek => "toDayOfWeek"
  | dayOfYear => "toDayOfYear"
  | date => "toDate"

inductive Method where
  | arrayContains
  | arrayAny
  | arrayAll
  | arrayFirst
  | arrayLast
  | arrayCount
  | arrayElementAt
  | arrayWhere
  | arraySelect
  | arraySum
  | arrayMin
  | arrayMax
  | arrayDistinct
  | mapContainsKey
  | mapContainsValue
  | mapCount
  | nestedAny
  | nestedCount
  | stringContains
  | stringStartsWith
  | stringEndsWith
  | stringToUpper
  | stringToLower
  | stringTrim
  | stringTrimStart
  | stringTrimEnd
  | stringSubstring
  | stringReplace
  | stringIsNullOrEmpty
  | dateAdd (unit : DateUnit)
  | mathAbs
  | mathRound
  | mathFloor
  | mathCeiling
  | mathMax
  | mathMin
  deriving DecidableEq, Repr

def Method.ofName? (receiver : Receiver) (name : String) : Option Method :=
  match receiver with
  | .array =>
    match name with
    | "Contains" => some arrayContains
    | "Any" => some arrayAny
    | "All" => some arrayAll
    | "First" | "FirstOrDefault" => some arrayFirst
    | "Last" | "LastOrDefault" => some arrayLast
    | "Count" => some arrayCount
    | "ElementAt" | "ElementAtOrDefault" => some arrayElementAt
    | "Where" => some arrayWhere
    | "Select" => some arraySelect
    | "Sum" => some arraySum
    | "Min" => some arrayMin
    | "Max" => some arrayMax
    | "Distinct" => some arrayDistinct
    | _ => none
  | .map =>
    match name with
    | "ContainsKey" => some mapContainsKey
    | "ContainsValue" => some mapContainsValue
    | "Count" => some mapCount
    | _ => none
  | .nested =>
    match name with
    | "Any" => some nestedAny
    | "Count" => some nestedCount
    | _ => none
  | .string =>
    match name with
    | "Contains" => some stringContains
    | "StartsWith" => some stringStartsWith
    | "EndsWith" => some stringEndsWith
    | "ToUpper" | "ToUpperInvariant" => some stringToUpper
    | "ToLower" | "ToLowerInvariant" => some stringToLower
    | "Trim" => some stringTrim
    | "TrimStart" => some stringTrimStart
    | "TrimEnd" => some stringTrimEnd
    | "Substring" => some stringSubstring
    | "Replace" => some stringReplace
    | "IsNullOrEmpty" => some stringIsNullOrEmpty
    | _ => none
  | .dateTime =>
    match name with
    | "AddYears" => some (dateAdd .years)
    | "AddMonths" => some (dateAdd .months)
    | "AddDays" => some (dateAdd .days)
    | "AddHours" => some (dateAdd .hours)
    | "AddMinutes" => some (dateAdd .minutes)
    | "AddSeconds" => some (dateAdd .seconds)
    | "AddMilliseconds" => some (dateAdd .milliseconds)
    | _ => none
  | .json => none
  | .math =>
    match name with
    | "Abs" => some mathAbs
    | "Round" => some mathRound
    | "Floor" => some mathFloor
    | "Ceiling" => some mathCeiling
    | "Max" => some mathMax
    | "Min" => some mathMin
    | _ => none

inductive Member where
  | arrayLength
  | mapCount
  | mapKeys
  | mapValues
  | nestedCount
  | stringLength
  | datePart (part : DatePart)
  deriving DecidableEq, Repr

def Member.ofName? (receiver : Receiver) (name : String) : Option Member :=
  match receiver with
  | .array =>
    match name with
    | "Length" | "Count" => some arrayLength
    | _ => none
  | .map =>
    match name with
    | "Count" => some mapCount
    | "Keys" => some mapKeys
    | "Values" => some mapValues
    | _ => none
  | .nested => if name = "Count" then some nestedCount else none
  | .string => if name = "Length" then some stringLength else none
  | .dateTime =>
    match name with
    | "Year" => some (datePart .year)
    | "Month" => some (datePart .month)
    | "Day" => some (datePart .day)
    | "Hour" => some (datePart .hour)
    | "Minute" => some (datePart .minute)
    | "Second" => some (datePart .second)
    | "Millisecond" => some (datePart .millisecond)
    | "DayOfWeek" => some (datePart .dayOfWeek)
    | "DayOfYear" => some (datePart .dayOfYear)
    | "Date" => some (datePart .date)
    | _ => none
  | .json | .math => none

end ColumnStore
