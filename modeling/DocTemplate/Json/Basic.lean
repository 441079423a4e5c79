import DocTemplate.Text.Quoted
import DocTemplate.Text.Numeral

/-!
# JSON values

The JSON values that documents, requests and answers are made of. Numbers are integers of any
size. An object is the list of its fields in the order in which they are written.
-/

namespace DocTemplate

/-- A JSON value. -/
inductive Json where
  | null
  | bool (b : Bool)
  | int (n : Int)
  | str (s : String)
  | arr (items : List Json)
  | obj (fields : List (String × Json))
  deriving Repr, Inhabited, BEq

/-- The kinds of JSON values. -/
inductive JsonKind where
  | null | bool | int | str | arr | obj
  deriving DecidableEq, Repr

namespace Json

/-- The kind of a value. -/
def kind : Json → JsonKind
  | null => .null
  | bool _ => .bool
  | int _ => .int
  | str _ => .str
  | arr _ => .arr
  | obj _ => .obj

/-- A value counts as given unless it is null, false, zero or empty. -/
def isGiven : Json → Bool
  | null => false
  | bool b => b
  | int n => n != 0
  | str s => !s.isEmpty
  | arr items => !items.isEmpty
  | obj fields => !fields.isEmpty

/-- A text as a value. -/
def ofText (t : Text) : Json :=
  .str (String.ofList t)

/-- An optional string as a value, null if there is none. -/
def ofString? : Option String → Json
  | some s => .str s
  | none => .null

/-- The string that a value is, if it is one. -/
def string? : Json → Option String
  | str s => some s
  | _ => none

/-- The integer that a value is, if it is one. -/
def int? : Json → Option Int
  | int n => some n
  | _ => none

/-- The field of an object with this name. A value that is no object has no fields. -/
def get? (j : Json) (key : String) : Option Json :=
  match j with
  | obj fields => fields.lookup key
  | _ => none

/-! ## Values in messages -/

/-- The name of a truth value in a message. -/
def boolName (b : Bool) : Text :=
  if b then ['T', 'r', 'u', 'e'] else ['F', 'a', 'l', 's', 'e']

mutual

/-- A value as it is shown inside a larger one: strings are quoted. -/
def shownInside : Json → Text
  | null => ['N', 'o', 'n', 'e']
  | bool b => boolName b
  | int n => Text.ofInt n
  | str s => Text.quoted s.toList
  | arr items => ['['] ++ Text.join [',', ' '] (shownItems items) ++ [']']
  | obj fields => ['\x7b'] ++ Text.join [',', ' '] (shownFields fields) ++ ['\x7d']

/-- The items of an array as they are shown. -/
def shownItems : List Json → List Text
  | [] => []
  | v :: rest => shownInside v :: shownItems rest

/-- The fields of an object as they are shown. -/
def shownFields : List (String × Json) → List Text
  | [] => []
  | (k, v) :: rest => (Text.quoted k.toList ++ [':', ' '] ++ shownInside v) :: shownFields rest

end

/-- A value as it is shown in a message: a string stands for itself. -/
def shown : Json → Text
  | str s => s.toList
  | v => shownInside v

/-- A value as it is shown in a message, as a string. -/
def display (j : Json) : String :=
  String.ofList j.shown

/-! ## Parts are smaller -/

theorem sizeOf_lt_of_lookup {fields : List (String × Json)} {key : String} {v : Json}
    (h : fields.lookup key = some v) : sizeOf v < sizeOf fields := by
  induction fields with
  | nil => simp at h
  | cons f rest ih =>
    obtain ⟨k, w⟩ := f
    simp only [List.lookup_cons] at h
    split at h
    · simp only [Option.some.injEq] at h
      subst h
      simp only [List.cons.sizeOf_spec, Prod.mk.sizeOf_spec]
      omega
    · have := ih h
      simp only [List.cons.sizeOf_spec]
      omega

theorem sizeOf_lt_of_get? {j : Json} {key : String} {v : Json} (h : j.get? key = some v) :
    sizeOf v < sizeOf j := by
  cases j with
  | obj fields =>
    have := sizeOf_lt_of_lookup (show fields.lookup key = some v from h)
    simp only [obj.sizeOf_spec]
    omega
  | _ => simp [get?] at h

end Json

end DocTemplate
