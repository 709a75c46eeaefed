import SlogHelpers.Text.Binary64

/-!
JSON texts as far as they can be read. A list or an object that stops short is kept with the parts
before the stop, so that whoever walks over it meets its parts in the order of the text and the stop
where it is.
-/
namespace SlogHelpers

inductive Json.Number where
  /-- Written without a fraction and an exponent, and within 64 bits, signed or not. -/
  | integer (value : Int)
  | float (negative : Bool) (magnitude : Text.Binary64)
  deriving DecidableEq

inductive Json where
  | null
  | bool (value : Bool)
  | number (value : Json.Number)
  | string (value : String)
  /-- The items, and whether the closing bracket was reached. -/
  | array (items : List Json) (closed : Bool)
  | object (members : List (String × Json)) (closed : Bool)
  /-- No value begins here, or the one that does cannot be read to its end. -/
  | broken

instance : Inhabited Json := ⟨.null⟩

end SlogHelpers
