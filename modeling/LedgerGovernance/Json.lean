import LedgerGovernance.Number.Shortest
import LedgerGovernance.Text.Units

/-! Values of the JSON data format. Strings and names are UTF-16 units, which need
not stand for a text. The fields of an object keep their order, and a name may occur
more than once; the last field of a name is the one that counts. -/

namespace LedgerGovernance

inductive Json where
  | null
  | bool (value : Bool)
  | number (value : Number)
  | units (value : Units)
  | array (items : List Json)
  | fields (entries : List (Units × Json))
deriving Repr

namespace Json

instance : Inhabited Json := ⟨null⟩

def string (value : String) : Json :=
  units value

def object (entries : List (String × Json)) : Json :=
  fields (entries.map fun (name, value) => (Units.ofString name, value))

instance : Coe String Json := ⟨string⟩

instance : Coe Units Json := ⟨units⟩

instance : Coe Bool Json := ⟨bool⟩

instance : Coe Number Json := ⟨number⟩

instance : Coe Nat Json := ⟨fun value => number value⟩

/-- The name of the kind of a value. -/
def kind : Json → String
  | null => "null"
  | bool _ => "boolean"
  | number .nan => "nan"
  | number _ => "number"
  | units _ => "string"
  | array _ => "array"
  | fields _ => "object"

/-- A field of an object; nothing else has fields. -/
def field? (name : String) : Json → Option Json
  | fields entries =>
      let name := Units.ofString name
      (entries.reverse.find? (·.1 == name)).map (·.2)
  | _ => none

/-- An amount of 64 bits, as decimal text. -/
def amount (value : Int) : Json :=
  string (toString value)

def ofOption {α : Type} (json : α → Json) : Option α → Json
  | none => null
  | some value => json value

end Json

end LedgerGovernance
