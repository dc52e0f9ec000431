/-!
# Values

The data that templates read and settings hold: null, truth values, numbers, strings, arrays and objects.
An object is a list of fields in ascending order of their keys, each key once; `Fields.insert` keeps it so.
-/
namespace Pageweave

/-- A whole number of 64 bits, signed or not, or a double; the two kinds are never equal. -/
inductive Number where
  | int (value : Int)
  | float (value : Float)

inductive Value where
  | null
  | bool (value : Bool)
  | number (value : Number)
  | string (text : String)
  | array (items : List Value)
  | object (fields : List (String × Value))

instance : Inhabited Value := ⟨.null⟩

namespace Number

/-- The largest whole number that has a sign bit to spare. -/
def signedMax : Int := Int.pow 2 63 - 1

def signedMin : Int := -Int.pow 2 63

def unsignedMax : Int := Int.pow 2 64 - 1

/-- The nearest double of a whole number. -/
def ofInt (n : Int) : Float := Float.ofInt n

def toFloat : Number → Float
  | .int n => ofInt n
  | .float x => x

/-- The whole number, if it is one that a signed word holds. -/
def signed? : Number → Option Int
  | .int n => if n ≤ signedMax then some n else none
  | .float _ => none

/-- The whole number, if it is one that an unsigned word holds. -/
def unsigned? : Number → Option Int
  | .int n => if 0 ≤ n then some n else none
  | .float _ => none

def same : Number → Number → Bool
  | .int a, .int b => a == b
  | .float a, .float b => a == b
  | _, _ => false

end Number

/-- A map from keys to values, ordered by key. -/
abbrev Fields := List (String × Value)

namespace Fields

def get? (key : String) : Fields → Option Value
  | [] => none
  | (k, v) :: rest => if k = key then some v else get? key rest

/-- Sets the value of a key. -/
def insert (key : String) (value : Value) : Fields → Fields
  | [] => [(key, value)]
  | (k, v) :: rest =>
    if k = key then (key, value) :: rest
    else if key < k then (key, value) :: (k, v) :: rest
    else (k, v) :: insert key value rest

/-- Sets every key of `later`, whose values win. -/
def merge (earlier later : Fields) : Fields :=
  later.foldl (fun fields (k, v) => insert k v fields) earlier

def ofList (pairs : List (String × Value)) : Fields := merge [] pairs

def keys (fields : Fields) : List String := fields.map Prod.fst

def contains (key : String) (fields : Fields) : Bool := (get? key fields).isSome

@[simp] theorem get?_nil (key : String) : get? key [] = none := rfl

theorem get?_insert (key q : String) (value : Value) (fields : Fields) :
    get? q (insert key value fields) = if q = key then some value else get? q fields := by
  induction fields with
  | nil => grind [insert, get?]
  | cons entry rest ih => grind [insert, get?]

end Fields

namespace Value

def isNull : Value → Bool
  | .null => true
  | _ => false

/-- A string, or null where there is none. -/
def ofOption : Option String → Value
  | some s => .string s
  | none => .null

def ofNat (n : Nat) : Value := .number (.int n)

def strings (items : List String) : Value := .array (items.map .string)

/-- False, zero, null and everything empty count as no. -/
def truthy : Value → Bool
  | .null => false
  | .bool b => b
  | .number (.int n) => n != 0
  | .number (.float x) => x != 0.0 && !x.isNaN
  | .string s => s != ""
  | .array items => !items.isEmpty
  | .object fields => !fields.isEmpty

mutual
/-- Equality of data; numbers of different kinds differ. -/
def same : Value → Value → Bool
  | .null, .null => true
  | .bool a, .bool b => a == b
  | .number a, .number b => a.same b
  | .string a, .string b => a == b
  | .array a, .array b => sameItems a b
  | .object a, .object b => sameFields a b
  | _, _ => false

def sameItems : List Value → List Value → Bool
  | [], [] => true
  | a :: as, b :: bs => same a b && sameItems as bs
  | _, _ => false

def sameFields : List (String × Value) → List (String × Value) → Bool
  | [], [] => true
  | (k, a) :: as, (l, b) :: bs => k == l && same a b && sameFields as bs
  | _, _ => false
end

end Value
end Pageweave
