import DocTemplate.Json.Basic

/-!
# Values of the wrong shape

Documents and caller data arrive as JSON whose shape nobody has checked. This module holds the
faults that arise where a value does not have the shape that is needed, and the reads that raise
them: the fields of a record, the records of a list, the membership of a key.
-/

namespace DocTemplate

/-- A value does not have the shape that an operation needs. -/
inductive Fault where
  /-- A value of this kind does not have the named operation. -/
  | lacks (kind : JsonKind) (operation : String)
  /-- A value of this kind has no items. -/
  | notIterable (kind : JsonKind)
  /-- A value of this kind cannot be asked for a member. -/
  | noMembers (kind : JsonKind)
  /-- A value of this kind has no length. -/
  | noLength (kind : JsonKind)
  /-- The item at this position of a list of texts is of this kind. -/
  | notJoinable (position : Nat) (kind : JsonKind)
  /-- A value of this kind is to replace a text, or to be replaced in one. -/
  | notReplaceable (argument : Nat) (kind : JsonKind)
  /-- A value of this kind has no text that could be searched. -/
  | notSearchable (kind : JsonKind)
  /-- Values of these kinds cannot be combined by an operator. -/
  | operands (operator : String) (left right : JsonKind)
  /-- A value of another kind is to be added to a sequence of this kind. -/
  | notConcatenable (kind other : JsonKind)
  /-- Values of these kinds have no order. -/
  | incomparable (operator : String) (left right : JsonKind)
  /-- A value of this kind is to be a count. -/
  | notCount (kind : JsonKind)
  /-- A value of this kind has no parts that could be picked. -/
  | notSubscriptable (kind : JsonKind)
  /-- A part of a sequence of this kind is to be picked by a value of another kind. -/
  | badSubscript (sequence subscript : JsonKind)
  /-- A list has no item at a position. -/
  | outOfRange
  /-- So many items are needed, and so many are there. -/
  | wrongCount (needed found : Nat)
  /-- No variable has a type of this name. -/
  | unknownType (name : Json)
  /-- A record lacks a field. -/
  | missingKey (key : Json)
  /-- A value of this kind cannot be looked up by. -/
  | unhashable (kind : JsonKind)
  /-- A value of this kind is to be the path of a file. -/
  | notPath (kind : JsonKind)
  /-- A number is too large for a machine word. -/
  | tooLarge
  /-- A text is too long to be held. -/
  | outOfMemory
  /-- Values are nested too deeply. -/
  | tooDeep
  /-- A call lacks arguments. -/
  | missingArguments (callee : String) (names : List String)
  /-- A call has an argument that is not known. -/
  | unknownArgument (callee name : String)
  /-- A call has so many arguments, and takes from `least` to `most` of them. -/
  | surplusArguments (callee : String) (least most given : Nat)
  /-- An edit has no form as a request. -/
  | noRequest
  deriving Repr

/-- The name of a kind in a message. -/
def JsonKind.name : JsonKind → String
  | .null => "NoneType"
  | .bool => "bool"
  | .int => "int"
  | .str => "str"
  | .arr => "list"
  | .obj => "dict"

/-- The name of a kind in a message that speaks of values: the null value stands for its kind. -/
def JsonKind.valueName : JsonKind → String
  | .null => "None"
  | kind => kind.name

/-- Quoted names as an enumeration. -/
def enumerate (names : List String) : String :=
  match names.map fun name => s!"'{name}'" with
  | [] => ""
  | [name] => name
  | [first, second] => s!"{first} and {second}"
  | names =>
    let initial := ", ".intercalate names.dropLast
    let last := names.getLast?.getD ""
    s!"{initial}, and {last}"

/-- How many arguments a call takes, in words. -/
def arity (least most : Nat) : String :=
  if least == most then toString least else s!"from {least} to {most}"

/-- The fault in words. -/
def Fault.message : Fault → String
  | .lacks kind operation => s!"'{kind.name}' object has no attribute '{operation}'"
  | .notIterable kind => s!"'{kind.name}' object is not iterable"
  | .noMembers kind => s!"argument of type '{kind.name}' is not iterable"
  | .noLength kind => s!"object of type '{kind.name}' has no len()"
  | .notJoinable position kind =>
    s!"sequence item {position}: expected str instance, {kind.name} found"
  | .notReplaceable argument kind =>
    s!"replace() argument {argument} must be str, not {kind.valueName}"
  | .notSearchable kind => s!"expected string or bytes-like object, got '{kind.name}'"
  | .operands operator left right =>
    s!"unsupported operand type(s) for {operator}: '{left.name}' and '{right.name}'"
  | .notConcatenable kind other =>
    s!"can only concatenate {kind.name} (not \"{other.name}\") to {kind.name}"
  | .incomparable operator left right =>
    s!"'{operator}' not supported between instances of '{left.name}' and '{right.name}'"
  | .notCount kind => s!"'{kind.name}' object cannot be interpreted as an integer"
  | .notSubscriptable kind => s!"'{kind.name}' object is not subscriptable"
  | .badSubscript .str subscript =>
    s!"string indices must be integers, not '{subscript.name}'"
  | .badSubscript sequence subscript =>
    s!"{sequence.name} indices must be integers or slices, not {subscript.name}"
  | .outOfRange => "list index out of range"
  | .wrongCount needed found =>
    if found < needed then s!"not enough values to unpack (expected {needed}, got {found})"
    else s!"too many values to unpack (expected {needed})"
  | .unknownType name =>
    let shown := String.ofList name.shownInside
    s!"{shown} is not a valid VariableType"
  | .missingKey key => String.ofList key.shownInside
  | .unhashable kind => s!"unhashable type: '{kind.name}'"
  | .notPath kind => s!"expected str, bytes or os.PathLike object, not {kind.name}"
  | .tooLarge => "Python int too large to convert to C ssize_t"
  | .outOfMemory => ""
  | .tooDeep => "maximum recursion depth exceeded"
  | .missingArguments callee names =>
    let plural := if names.length == 1 then "" else "s"
    let listed := enumerate names
    s!"{callee}() missing {names.length} required positional argument{plural}: {listed}"
  | .unknownArgument callee name => s!"{callee}() got an unexpected keyword argument '{name}'"
  | .surplusArguments callee least most given =>
    let count := arity least most
    s!"{callee}() takes {count} positional arguments but {given} were given"
  | .noRequest => ""

namespace Json

/-- A field of a record, if the record has it. -/
def field? (j : Json) (key : String) : Except Fault (Option Json) :=
  match j with
  | obj fields => .ok (fields.lookup key)
  | other => .error (.lacks other.kind "get")

/-- A field of a record, or a default in its place. -/
def fieldD (j : Json) (key : String) (default : Json) : Except Fault Json :=
  (j.field? key).map (·.getD default)

/-- The items of a value: those of an array, the characters of a string, the keys of an object. -/
def elements (j : Json) : Except Fault (List Json) :=
  match j with
  | arr items => .ok items
  | str s => .ok (s.toList.map fun c => .ofText [c])
  | obj fields => .ok (fields.map fun f => .str f.1)
  | other => .error (.notIterable other.kind)

/-- The two items of a value. -/
def pair (j : Json) : Except Fault (Json × Json) := do
  match ← j.elements with
  | [a, b] => return (a, b)
  | items => throw (.wrongCount 2 items.length)

/-- The records that a value lists. The parts of a string and the keys of an object are strings,
hence no records. -/
def records (j : Json) : Except Fault (List Json) :=
  match j with
  | arr items => .ok items
  | str s => if s.isEmpty then .ok [] else .error (.lacks .str "get")
  | obj fields => if fields.isEmpty then .ok [] else .error (.lacks .str "get")
  | other => .error (.notIterable other.kind)

/-- The records that a field lists; none if the field is absent. -/
def recordsAt (j : Json) (key : String) : Except Fault (List Json) := do
  (← j.fieldD key (.arr [])).records

/-- Whether a key is a member of a value: a field of an object, an item of an array, or a part of a
string. -/
def hasMember (j : Json) (key : String) : Except Fault Bool :=
  match j with
  | obj fields => .ok (fields.lookup key).isSome
  | arr items => .ok (items.any fun v => v.string? == some key)
  | str s => .ok (!(Text.scanFrom (fun t => (Text.stripStart key.toList t).map ((), ·.length)) 0 0
      s.toList).isEmpty || key.isEmpty)
  | other => .error (.noMembers other.kind)

theorem sizeOf_pos_of_fields (fields : List (String × Json)) : 0 < sizeOf fields := by
  cases fields with
  | nil =>
    simp only [List.nil.sizeOf_spec]
    omega
  | cons f rest =>
    simp only [List.cons.sizeOf_spec]
    omega

theorem sizeOf_lt_of_recordsAt {j : Json} {key : String} {items : List Json}
    (h : j.recordsAt key = .ok items) : sizeOf items < sizeOf j := by
  cases j with
  | obj fields =>
    simp only [recordsAt, fieldD, field?, Except.map, bind, Except.bind] at h
    cases hl : fields.lookup key with
    | none =>
      simp only [hl, Option.getD_none, records, Except.ok.injEq] at h
      subst h
      have := sizeOf_pos_of_fields fields
      simp only [List.nil.sizeOf_spec, obj.sizeOf_spec]
      omega
    | some v =>
      have hv := sizeOf_lt_of_lookup hl
      simp only [hl, Option.getD_some] at h
      cases v with
      | arr inner =>
        simp only [records, Except.ok.injEq] at h
        subst h
        simp only [arr.sizeOf_spec] at hv
        simp only [obj.sizeOf_spec]
        omega
      | str s =>
        simp only [records] at h
        split at h <;> simp only [Except.ok.injEq, reduceCtorEq] at h
        subst h
        simp only [str.sizeOf_spec] at hv
        simp only [List.nil.sizeOf_spec, obj.sizeOf_spec]
        omega
      | obj inner =>
        simp only [records] at h
        split at h <;> simp only [Except.ok.injEq, reduceCtorEq] at h
        subst h
        simp only [List.nil.sizeOf_spec, obj.sizeOf_spec]
        have := sizeOf_pos_of_fields fields
        omega
      | null => simp [records] at h
      | bool b => simp [records] at h
      | int n => simp [records] at h
  | _ => simp [recordsAt, fieldD, field?, Except.map, bind, Except.bind] at h

end Json

end DocTemplate
