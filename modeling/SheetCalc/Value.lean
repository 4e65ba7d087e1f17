import SheetCalc.Decimal.Binary
import SheetCalc.Text

/-!
# Values

What a cell can hold and what documents are made of: scalars, lists, and mappings in the order of
entry. The numbers among them are of two kinds, integers of any size and floats, and a value keeps
its kind. A mapping's key is a scalar; keys that are equal as numbers are one key, whatever their
kind (`Key.instBEq`).
-/

namespace SheetCalc

/-- The key of a mapping entry. -/
inductive Key where
  | null
  | bool (b : Bool)
  | int (n : Int)
  | float (x : Float)
  | text (t : Text)
  deriving Inhabited

/-- A value. -/
inductive Value where
  | null
  | bool (b : Bool)
  | int (n : Int)
  | float (x : Float)
  | text (t : Text)
  | list (items : List Value)
  | mapping (entries : List (Key × Value))
  deriving Inhabited

instance : Coe Text Value := ⟨.text⟩

namespace Key

/-- The key that stands for all keys equal to a given one: a truth value is the integer one or zero,
and a float without a fraction is an integer. -/
def canonical : Key → Key
  | .bool b => .int (if b then 1 else 0)
  | .float x =>
    match Decimal.toInt? x with
    | some n => .int n
    | none => .float x
  | k => k

/-- Whether two keys are written alike, kind for kind and bit for bit. -/
def identical : Key → Key → Bool
  | .null, .null => true
  | .bool a, .bool b => a == b
  | .int m, .int n => m == n
  | .float x, .float y => x.toBits == y.toBits
  | .text s, .text t => s == t
  | _, _ => false

/-- Keys are the same if they stand for the same number or are the same text. -/
instance instBEq : BEq Key where
  beq k l := identical k.canonical l.canonical

/-- The value that a key is. -/
def toValue : Key → Value
  | .null => .null
  | .bool b => .bool b
  | .int n => .int n
  | .float x => .float x
  | .text s => .text s

end Key

namespace Value

/-- The value as the key of an entry; a list or a mapping cannot be one. -/
def toKey? : Value → Option Key
  | .null => some .null
  | .bool b => some (.bool b)
  | .int n => some (.int n)
  | .float x => some (.float x)
  | .text s => some (.text s)
  | .list _ | .mapping _ => none

@[simp] theorem toKey?_toValue (k : Key) : k.toValue.toKey? = some k := by
  cases k <;> rfl

/-- Whether a value counts as true: nothing, zero and what is empty do not. -/
def truthy : Value → Bool
  | .null => false
  | .bool b => b
  | .int n => n != 0
  | .float x => x != 0
  | .text s => !s.isEmpty
  | .list items => !items.isEmpty
  | .mapping entries => !entries.isEmpty

/-- The name of a value's kind in messages. -/
def kindName : Value → String
  | .null => "NoneType"
  | .bool _ => "bool"
  | .int _ => "int"
  | .float _ => "float"
  | .text _ => "str"
  | .list _ => "list"
  | .mapping _ => "dict"

end Value

end SheetCalc
