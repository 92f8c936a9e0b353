import TachoPrint.Binary64.Basic

/-!
# JSON values

## Main definitions

* `Json` — the values.
-/

namespace TachoPrint

/-- A JSON value.  A number without a fraction and an exponent stays an integer as
long as it fits in 64 bits, unsigned, or signed when it is negative. -/
inductive Json where
  | null
  | boolean (b : Bool)
  | integer (i : Int)
  | number (a : Binary64)
  | text (s : String)
  | array (items : List Json)
  /-- The members in order, with repetitions. -/
  | object (members : List (String × Json))
  deriving Inhabited

end TachoPrint
