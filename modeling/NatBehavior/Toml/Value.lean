/-! Values of TOML documents. Floating point numbers and dates keep the text they were written
with; nothing computes with them. -/
namespace NatBehavior.Toml

inductive Value where
  | string (text : String)
  | integer (n : Int)
  | float (text : String)
  | boolean (b : Bool)
  | datetime (text : String)
  | array (items : List Value)
  | table (entries : List (String × Value))
deriving Repr

end NatBehavior.Toml
