import SlogHelpers.Text.Upper

/-!
Go names made from the names of levels, constants and attributes.
-/
namespace SlogHelpers.Name

/-- Drops every underscore and upper-cases the character that follows one; `atStart` tells whether
the next character counts as following one. All else stays as written, so acronyms survive. -/
def camelChars (atStart : Bool) : List Char → List Char
  | [] => []
  | '_' :: rest => camelChars true rest
  | c :: rest => (if atStart then Text.upperFull c else [c]) ++ camelChars false rest

/-- The exported Go name of a snake-case name: `request_id` becomes `RequestId`. -/
def camelCase (name : String) : String :=
  String.ofList (camelChars true name.toList)

/-- The constant of a level: `trace` has `LevelTrace`. -/
def levelConstant (name : String) : String :=
  "Level" ++ camelCase name

end SlogHelpers.Name
