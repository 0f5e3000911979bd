import ClassChart.Decimal.Shortest
import ClassChart.Settings.Binary
import ClassChart.Settings.Calendar

/-!
The data of a configuration file: scalars, lists, sets and mappings.  Mappings and
sets keep the order of their keys, which may be any scalar.
-/
namespace ClassChart

/-- A configuration value. -/
inductive Value where
  | null
  | bool (b : Bool)
  | int (n : Int)
  | float (x : Float)
  | text (s : String)
  | date (d : Calendar.Date)
  | moment (m : Calendar.Moment)
  | binary (bytes : List UInt8)
  | list (items : List Value)
  | set (items : List Value)
  | mapping (entries : List (Value × Value))
deriving Inhabited

namespace Value

/-- Numbers are positional from 0.0001 up to sixteen digits before the point. -/
def floatLayout : Decimal.Layout := ⟨-4, 16, "inf", "nan"⟩

mutual

/-- The value as a message shows it, texts in quotes. -/
def quoted : Value → String
  | .null => "None"
  | .bool b => if b then "True" else "False"
  | .int n => toString n
  | .float x => floatLayout.write x
  | .text s => Text.quoted s
  | .date d => d.quoted
  | .moment m => m.quoted
  | .binary bytes => Binary.quoted bytes
  | .list items => "[" ++ ", ".intercalate (quotedItems items) ++ "]"
  | .set items =>
      if items.isEmpty then "set()"
      else "\x7b" ++ ", ".intercalate (quotedItems items) ++ "\x7d"
  | .mapping entries => "\x7b" ++ ", ".intercalate (quotedEntries entries) ++ "\x7d"

def quotedItems : List Value → List String
  | [] => []
  | item :: rest => item.quoted :: quotedItems rest

def quotedEntries : List (Value × Value) → List String
  | [] => []
  | (key, value) :: rest => (key.quoted ++ ": " ++ value.quoted) :: quotedEntries rest

end

/-- The value as plain text: a text is itself, dates and moments have a form of their own, and all
else is as a message shows it. -/
def display : Value → String
  | .text s => s
  | .date d => d.text
  | .moment m => m.text
  | v => v.quoted

/-- Whether the value counts as true: all do but null, false, the zeros and what
is empty. -/
def truthy : Value → Bool
  | .null => false
  | .bool b => b
  | .int n => n != 0
  | .float x => !(x == 0.0)
  | .text s => !s.isEmpty
  | .date _ => true
  | .moment _ => true
  | .binary bytes => !bytes.isEmpty
  | .list items => !items.isEmpty
  | .set items => !items.isEmpty
  | .mapping entries => !entries.isEmpty

def isNull : Value → Bool
  | .null => true
  | _ => false

/-- The value that a mapping holds under a textual key; the last one counts. -/
def lookup (entries : List (Value × Value)) (key : String) : Option Value :=
  entries.reverse.findSome? fun
    | (.text k, v) => if k = key then some v else none
    | _ => none

end Value

end ClassChart
