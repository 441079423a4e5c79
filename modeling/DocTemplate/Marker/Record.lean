import DocTemplate.Json.Arithmetic
import DocTemplate.Marker.Scan
import DocTemplate.Section.Entry

/-!
# Records of markers

The JSON form in which markers are reported, and searches in what a caller sends as a text, outside
of what the caller sends as ranges to be left out (`findInData`).
-/

namespace DocTemplate

/-- The record of a marker of some kind, with its range and further fields. -/
def tokenRecord (kind : String) (start stop : Nat) (fields : List (String × Json)) : Json :=
  .obj ([("token", .str kind), ("span_start", .int start), ("span_end", .int stop)] ++ fields)

/-- The record of a variable. -/
def Variable.toJson (v : Variable) : Json :=
  tokenRecord "Variable" v.start v.stop [("name", .ofText v.name),
    ("raw_placeholder", .ofText v.placeholder), ("type", .ofText v.type.name),
    ("declared_type", (v.declaredType.map Json.ofText).getD .null)]

/-- The record of an asset section. -/
def AssetBlock.toJson (b : AssetBlock) : Json :=
  tokenRecord "AssetSectionBlock" b.start b.stop [("section_name", .ofText b.name),
    ("inner_template", .ofText b.template), ("raw_block", .ofText b.raw)]

/-- The record of a section marker. -/
def SectionMarker.toJson (m : SectionMarker) : Json :=
  tokenRecord "SectionTableMarker" m.start m.stop [("section_name", .ofText m.name),
    ("raw_marker", .ofText m.raw)]

/-- The record of a marker. -/
def Token.toJson : Token → Json
  | .var v => v.toJson
  | .assetBlock b => b.toJson
  | .sectionMarker m => m.toJson

/-- The type that is recorded under its name. -/
def VariableType.ofJson (j : Json) : Except Fault VariableType :=
  match VariableType.all.find? fun type => j.same (.ofText type.name) with
  | some type => .ok type
  | none => .error (.unknownType j)

/-- The least offset that does not fit into a machine word. -/
def offsetLimit : Nat := 9223372036854775808

/-- The number that an end of a range is, where it is compared with an offset. -/
def rangeEnd (j : Json) : Except Fault Int :=
  match j.number? with
  | some n => .ok n.value
  | none => .error (.incomparable ">" j.kind .int)

/-- A range as a caller sends it: its two ends. -/
def readRange (j : Json) : Except Fault (Int × Int) := do
  let (start, stop) ← j.pair
  return (← rangeEnd start, ← rangeEnd stop)

/-- The ranges that a caller wants left out, in increasing order. They are sorted before anybody
looks into them. -/
def readTaken (j : Json) : Except Fault (List (Int × Int)) := do
  let ranges ← (← j.elements).mapM Json.elements
  (← Json.sorted (ranges.map .arr)).mapM readRange

/-- The markers that a search finds in the gaps which some ranges leave in what a caller sends as a
text. Every gap has to end within a machine word. Data that has a length and no text is refused at
the first gap. -/
def findInData {α : Type} (search : Text → List (Int × Int) → List α) (text taken : Json) :
    Except Fault (List α) := do
  let length ← (Entry.ofJson text).length
  let taken ← readTaken taken
  let ends := (gaps length taken).map (·.2)
  match text, ends with
  | .str s, _ =>
    if ends.any (offsetLimit ≤ ·) then throw .tooLarge else return search s.toList taken
  | _, [] => return []
  | other, stop :: _ => throw (if offsetLimit ≤ stop then .tooLarge else .notSearchable other.kind)

end DocTemplate
