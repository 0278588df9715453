import ShellTree.Decimal.Binary64

/-!
# TOML values

The value that a TOML document denotes. The members of a table are kept in the order of their keys,
each key once, so two documents that differ only in the order of their lines denote one value.

A numeral that is written as one but denotes no number, because it is empty, has a digit of another
base, or is beyond the greatest double, is a value too: what becomes of it is up to the reader of
the value. Integers have no bounds here.
-/

namespace ShellTree.Toml

/-- A TOML value. The text of a date-time is kept as it was written. -/
inductive Value where
  | string (text : String)
  | integer (number : Int)
  | float (number : Binary64)
  /-- A numeral that denotes no number. -/
  | illegible
  | boolean (truth : Bool)
  | dateTime (text : String)
  | array (elements : List Value)
  | table (members : List (String × Value))

abbrev Members := List (String × Value)

end ShellTree.Toml
