/-!
# TOML values

The values of a settings file. Floats and dates are kept as they are written, since no setting
is one.
-/

namespace MeterLink

/-- A TOML value. -/
inductive Toml where
  | string (s : String)
  | integer (n : Int)
  | float (text : String)
  | boolean (b : Bool)
  | datetime (text : String)
  | array (items : List Toml)
  | table (entries : List (String × Toml))
deriving Repr

/-- The integers that a file can hold. -/
def Toml.FitsInteger (n : Int) : Prop := -0x8000000000000000 ≤ n ∧ n < 0x8000000000000000

instance (n : Int) : Decidable (Toml.FitsInteger n) := by
  unfold Toml.FitsInteger; infer_instance

end MeterLink
