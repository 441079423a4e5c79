import DocTemplate.Json.Number
import DocTemplate.Json.Shape

/-!
# Arithmetic on JSON data

Adding, subtracting and comparing values that are expected to be numbers and may be anything. Two
strings, and two arrays, can be compared as well, by their first difference.

Main facts: `plus_int`, `minus_int`, `addedTo_int` (on integers these are the operations on
integers).
-/

namespace DocTemplate.Json

/-! ## Sums and differences -/

/-- The number that a value is, where an integer is added to it. -/
def summand (j : Json) : Except Fault Number :=
  match j.number? with
  | some n => .ok n
  | none =>
    match j.kind with
    | .str => .error (.notConcatenable .str .int)
    | .arr => .error (.notConcatenable .arr .int)
    | kind => .error (.operands "+" kind .int)

/-- The number that a value is, where it is added to an integer. -/
def addend (j : Json) : Except Fault Number :=
  match j.number? with
  | some n => .ok n
  | none => .error (.operands "+" .int j.kind)

/-- A value and an integer added up. -/
def plus (j : Json) (n : Int) : Except Fault Int :=
  j.summand.map (·.value + n)

/-- An integer and a value added up. -/
def addedTo (n : Int) (j : Json) : Except Fault Int :=
  j.addend.map (n + ·.value)

/-- The difference of two values. -/
def minus (a b : Json) : Except Fault Int :=
  match a.number?, b.number? with
  | some m, some n => .ok (m.value - n.value)
  | _, _ => .error (.operands "-" a.kind b.kind)

@[simp] theorem addend_int (n : Int) : (int n).addend = .ok (.int n) := rfl

@[simp] theorem plus_int (m n : Int) : (int m).plus n = .ok (m + n) := rfl

@[simp] theorem addedTo_int (m n : Int) : addedTo m (int n) = .ok (m + n) := rfl

@[simp] theorem minus_int (m n : Int) : (int m).minus (int n) = .ok (m - n) := rfl

/-! ## Comparisons -/

/-- Whether two numbers are related. Other values have no order; `operator` names the relation. -/
def compareNumbers (operator : String) (related : Int → Int → Bool) (a b : Json) :
    Except Fault Bool :=
  match a.number?, b.number? with
  | some m, some n => .ok (related m.value n.value)
  | _, _ => .error (.incomparable operator a.kind b.kind)

/-- Whether a number is at most another one. -/
def atMost : Json → Json → Except Fault Bool :=
  compareNumbers "<=" (· ≤ ·)

/-- Whether a number is at least another one. -/
def atLeast : Json → Json → Except Fault Bool :=
  compareNumbers ">=" (· ≥ ·)

/-- Whether a number is greater than another one. -/
def greater : Json → Json → Except Fault Bool :=
  compareNumbers ">" (· > ·)

@[simp] theorem atMost_int (m n : Int) : atMost (int m) (int n) = .ok (decide (m ≤ n)) := rfl

@[simp] theorem atLeast_int (m n : Int) : atLeast (int m) (int n) = .ok (decide (m ≥ n)) := rfl

@[simp] theorem greater_int (m n : Int) : greater (int m) (int n) = .ok (decide (m > n)) := rfl

mutual

/-- Whether a value stands before another one of its kind. -/
def precedes : Json → Json → Except Fault Bool
  | str s, str t => .ok (!Text.le t.toList s.toList)
  | arr items, arr others => itemsPrecede items others
  | a, b => compareNumbers "<" (· < ·) a b

/-- Whether a list of values stands before another one. Their first difference decides. -/
def itemsPrecede : List Json → List Json → Except Fault Bool
  | _, [] => .ok false
  | [], _ :: _ => .ok true
  | v :: rest, w :: others => if same v w then itemsPrecede rest others else precedes v w

end

/-- A value at its place in a sorted list, behind those that it does not precede. -/
def insertSorted (v : Json) : List Json → Except Fault (List Json)
  | [] => .ok [v]
  | w :: rest => do
    if ← precedes v w then return v :: w :: rest else return w :: (← insertSorted v rest)

/-- Strings from the least to the greatest. -/
def sortStrings (strings : List String) : List String :=
  strings.mergeSort fun s t => Text.le s.toList t.toList

/-- The items of a list from the least to the greatest. -/
def sorted (items : List Json) : Except Fault (List Json) :=
  match items.mapM string? with
  | some strings => .ok ((sortStrings strings).map .str)
  | none => items.foldlM (fun done v => insertSorted v done) []

end DocTemplate.Json
