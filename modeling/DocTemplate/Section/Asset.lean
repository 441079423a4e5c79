import DocTemplate.Json.Arithmetic
import DocTemplate.Section.Entry

/-!
# Asset sections

Blocks of a title and fields that a person fills in. They are rendered as plain text in which the
colons behind all keys stand in one column.

Main fact: `keyPadding_ge` (the column is as wide as each key and its margin).
-/

namespace DocTemplate

/-- The id of a section or field: one that was given, or one that is drawn when it is needed. -/
inductive EntryId where
  | given (j : Json)
  | fresh

/-- The id that a value gives; a fresh one if it is absent or empty. -/
def EntryId.ofJson? : Option Json → EntryId
  | some j => if j.isGiven then .given j else .fresh
  | none => .fresh

/-- A field of an asset section. -/
structure AssetField where
  key : Entry
  value : Entry := .text []
  id : EntryId := .fresh

/-- An asset section. -/
structure AssetSection where
  title : Entry
  fields : List AssetField := []
  id : EntryId := .fresh

/-- Reads a field. A key or value that is absent is empty. -/
def AssetField.ofJson (j : Json) : Except Fault AssetField :=
  return {
    key := .ofJson (← j.fieldD "key" (.str ""))
    value := .ofJson (← j.fieldD "value" (.str ""))
    id := .ofJson? (← j.field? "id") }

namespace AssetSection

/-- Reads an asset section. -/
def ofJson (j : Json) : Except Fault AssetSection := do
  let fields ← (← j.recordsAt "fields").mapM AssetField.ofJson
  return {
    title := .ofJson (← j.fieldD "title" (.str ""))
    fields := fields
    id := .ofJson? (← j.field? "id") }

/-- The section under another title. -/
def withTitle (s : AssetSection) (title : Entry) : AssetSection :=
  { s with title := title }

/-- The section with other fields. -/
def withFields (s : AssetSection) (fields : List AssetField) : AssetSection :=
  { s with fields := fields }

/-- The section that is offered first: land and buildings, with nothing filled in. -/
def default : AssetSection :=
  { title := .text "Tanah dan Bangunan Rumah Tinggal".toList
    fields := ["Tanah", "Bangunan", "Lokasi/Alamat Aset", "Kepemilikan Aset"].map fun key =>
      { key := .text key.toList } }

/-! ## Checking -/

/-- What is wrong with the fields from number `number` on. -/
def fieldProblems (number : Nat) : List AssetField → Except Fault (List String)
  | [] => .ok []
  | f :: rest => do
    let key := if ← f.key.isBlank then [s!"Field {number}: Key is required"] else []
    let value := if ← f.value.isBlank then [s!"Field {number}: Value is required"] else []
    return key ++ value ++ (← fieldProblems (number + 1) rest)

/-- What is wrong with a section. It can be rendered all the same. -/
def problems (s : AssetSection) : Except Fault (List String) := do
  let title := if ← s.title.isBlank then ["Section title is required"] else []
  let empty := if s.fields.isEmpty then ["At least one field is required"] else []
  return title ++ empty ++ (← fieldProblems 1 s.fields)

end AssetSection

/-! ## Rendering -/

/-- The width that keys are filled up to unless a longer one is needed. -/
def assetMinPadding : Int := 30

/-- The width that keys are filled up to in a preview. -/
def previewPadding : Int := 25

/-- The room that is left behind the longest key. -/
def keyMargin : Int := 2

/-- The greatest of some lengths, zero if there are none. -/
def longest (lengths : List Nat) : Nat :=
  lengths.foldl max 0

/-- The width of the column of keys with these lengths. -/
def keyPadding (lengths : List Nat) (minPadding : Int) (margin : Int := keyMargin) : Int :=
  max minPadding (longest lengths + margin)

/-- The width of the column of keys with these lengths, where the least width and the margin are
JSON data. A least width that is wide enough is kept as it is. -/
def keyColumn (lengths : List Nat) (minPadding margin : Json) : Except Fault Number := do
  let wanted ← Json.addedTo (longest lengths) margin
  if ← Json.greater (.int wanted) minPadding then return .int wanted
  else return minPadding.number?.getD (.int wanted)

/-- The line of a field: its key filled up to `width`, a colon and its value. -/
def AssetField.line (width : Int) (f : AssetField) : Except Fault Text :=
  return (← f.key.padRight width) ++ [':', ' '] ++ f.value.shown

/-- The lines of a section: its title if it has one, and its fields. -/
def AssetSection.lines (width : Int) (s : AssetSection) : Except Fault (List Text) := do
  let fields ← s.fields.mapM (AssetField.line width)
  if s.title.isGiven then return (← s.title.joinable 0) :: fields else return fields

/-- Asset sections as text, an empty line between two of them. Keys of all sections are filled up to
one width. -/
def renderAssets (sections : List AssetSection) (minPadding : Json := .int assetMinPadding)
    (margin : Json := .int keyMargin) : Except Fault Text := do
  let lengths ← (sections.flatMap (·.fields)).mapM fun f => f.key.length
  let width ← keyColumn lengths minPadding margin
  let blocks ← sections.mapM fun s => return Text.join ['\n'] (← s.lines width.value)
  return Text.join ['\n', '\n'] blocks

/-- A section in a preview, with its title set off and its keys filled up to a fixed width. -/
def AssetSection.preview (s : AssetSection) : Except Fault Text := do
  let title := if s.title.isGiven then ['\n'] ++ s.title.shown ++ ['\n', '\n'] else []
  let lines ← s.fields.mapM fun f => return (← f.line previewPadding) ++ ['\n']
  return title ++ lines.flatten ++ ['\n']

/-- Asset sections in a preview. -/
def previewAssets (sections : List AssetSection) : Except Fault Text :=
  return (← sections.mapM AssetSection.preview).flatten

/-! ## The column of keys -/

theorem le_foldl_max (lengths : List Nat) (n : Nat) : n ≤ lengths.foldl max n := by
  induction lengths generalizing n with
  | nil => exact Nat.le_refl n
  | cons m rest ih => exact Nat.le_trans (Nat.le_max_left n m) (ih (max n m))

theorem le_foldl_max_of_mem {lengths : List Nat} {n : Nat} (h : n ∈ lengths) (m : Nat) :
    n ≤ lengths.foldl max m := by
  induction lengths generalizing m with
  | nil => simp at h
  | cons k rest ih =>
    rcases List.mem_cons.1 h with rfl | h
    · exact Nat.le_trans (Nat.le_max_right m n) (le_foldl_max rest _)
    · exact ih h _

theorem keyColumn_int (lengths : List Nat) (minPadding margin : Int) :
    keyColumn lengths (.int minPadding) (.int margin) =
      .ok (.int (keyPadding lengths minPadding margin)) := by
  simp only [keyColumn, Json.addedTo_int, Json.greater_int, bind, Except.bind, pure, Except.pure,
    keyPadding, Json.number?_int, Option.getD_some]
  by_cases h : minPadding < longest lengths + margin
  · simp [h, Int.max_eq_right (Int.le_of_lt h)]
  · simp [h, Int.max_eq_left (Int.not_lt.1 h)]

theorem keyPadding_ge {lengths : List Nat} {n : Nat} (h : n ∈ lengths) (minPadding margin : Int) :
    (n : Int) + margin ≤ keyPadding lengths minPadding margin := by
  have := le_foldl_max_of_mem h 0
  simp only [keyPadding, longest]
  omega

end DocTemplate
