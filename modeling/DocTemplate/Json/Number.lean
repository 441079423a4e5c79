import DocTemplate.Json.Basic

/-!
# Numbers in JSON data

A truth value counts as a number wherever a number is needed, false as zero and true as one, but it
is still written as a truth value. `same` is equality of values by this rule and regardless of the
order in which the fields of an object are written.
-/

namespace DocTemplate

/-- A value that counts as a number. -/
inductive Number where
  | int (n : Int)
  | bool (b : Bool)
  deriving DecidableEq, Repr

namespace Number

/-- What a number counts as. -/
def value : Number → Int
  | int n => n
  | bool b => if b then 1 else 0

/-- A number as it is written. -/
def toJson : Number → Json
  | int n => .int n
  | bool b => .bool b

instance : Coe Int Number := ⟨int⟩

instance : Inhabited Number := ⟨int 0⟩

@[simp] theorem value_int (n : Int) : (int n).value = n := rfl

@[simp] theorem toJson_int (n : Int) : (int n).toJson = .int n := rfl

end Number

namespace Json

/-- The number that a value is, if it counts as one. -/
def number? : Json → Option Number
  | int n => some (.int n)
  | bool b => some (.bool b)
  | _ => none

@[simp] theorem number?_int (n : Int) : (int n).number? = some (.int n) := rfl

@[simp] theorem number?_toJson (n : Number) : n.toJson.number? = some n := by
  cases n <;> rfl

/-- Whether two values are the same number. -/
def sameNumber (a b : Json) : Bool :=
  match a.number?, b.number? with
  | some m, some n => m.value == n.value
  | _, _ => false

mutual

/-- Whether two values are equal. -/
def same : Json → Json → Bool
  | null, null => true
  | str s, str t => s == t
  | arr items, arr others => sameItems items others
  | obj fields, obj others => fields.length == others.length && sameFields fields others
  | a, b => sameNumber a b

/-- Whether two lists of values are equal item by item. -/
def sameItems : List Json → List Json → Bool
  | [], [] => true
  | v :: rest, w :: others => same v w && sameItems rest others
  | _, _ => false

/-- Whether every one of these fields has an equal one among `others`. -/
def sameFields : List (String × Json) → List (String × Json) → Bool
  | [], _ => true
  | (k, v) :: rest, others =>
    (match others.lookup k with
      | some w => same v w
      | none => false) && sameFields rest others

end

@[simp] theorem same_int (m n : Int) : same (int m) (int n) = (m == n) := by
  simp [same, sameNumber]

@[simp] theorem same_str (s t : String) : same (str s) (str t) = (s == t) := by
  simp [same]

end Json

end DocTemplate
