import Mathlib.Data.Rat.Defs
import RoboticsIpc.Ipc.Runtime

/-!
Parsed TOML documents as the topology loader sees them: `toml::table` lookups,
`as_table`, `as_array` and the two `value<T>()` conversions it uses. Parsing the
text itself is toml++'s; everything here is quantified over its results.

`value<std::string>()` is exact. `value<int64_t>()` also converts booleans and
floating-point values that are whole.
-/

namespace RoboticsIpc

open ByteBuffer

/-- A node of a parsed document. `floating` carries the exact value of the
double, `none` for infinities and NaN. -/
inductive Toml where
  | string (text : Bytes)
  | integer (value : Int64)
  | floating (value : Option Rat)
  | boolean (value : Bool)
  | dateTime
  | array (elems : List Toml)
  | table (entries : List (Bytes × Toml))

abbrev TomlTable := List (Bytes × Toml)

namespace Toml

/-- `table[key]`, a view that may be empty. -/
def get (table : TomlTable) (key : String) : Option Toml := table.lookup (ascii key)

def asTable : Option Toml → Option TomlTable
  | some (.table entries) => some entries
  | _ => none

def asArray : Option Toml → Option (List Toml)
  | some (.array elems) => some elems
  | _ => none

/-- `value<std::string>()`. -/
def valueString : Option Toml → Option Bytes
  | some (.string text) => some text
  | _ => none

/-- `value<int64_t>()`. A double outside the range of `int64_t` is no value: the
cast the library then makes is undefined. -/
def valueInt64 : Option Toml → Option Int
  | some (.integer value) => some value.toInt
  | some (.floating (some value)) =>
      if value.den = 1 ∧ -2 ^ 63 ≤ value.num ∧ value.num < 2 ^ 63 then some value.num else none
  | some (.boolean value) => some value.toInt
  | _ => none

end Toml

end RoboticsIpc
