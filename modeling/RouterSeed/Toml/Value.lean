/-
TOML values.

Settings are strings and integers. Of the other values only the kind is
kept, together with what an array or an inline table contains: a table
is the list of what was written in it, dotted keys included, once it is
known that nothing in it is defined twice.
-/

namespace RouterSeed.Toml

/-- A value. -/
inductive Value where
  | string (text : String)
  | integer (number : Int)
  | boolean (value : Bool)
  | float
  | dateTime
  | array (elements : List Value)
  | table (entries : List (List String × Value))
  deriving Repr

/-- What a key may stand for: its own value, or a table that is written
around it. -/
inductive Item where
  | value (value : Value)
  /-- A table with a header of its own. -/
  | headed
  /-- A table that only shows in the headers of tables inside it. -/
  | implied
  /-- A table that only shows in dotted keys. -/
  | dotted
  /-- Tables in an array, so many of them. -/
  | tables (count : Nat)
  deriving Repr

end RouterSeed.Toml
