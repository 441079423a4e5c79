import DocTemplate.Json.Shape
import DocTemplate.Text.Blank

/-!
# Entries

What a caller entered where a text is expected. Mostly it is a text; other JSON data is kept as it
came, and only an operation that needs a text refuses it.
-/

namespace DocTemplate

/-- A text, or other data in the place of one. -/
inductive Entry where
  | text (t : Text)
  | data (j : Json)

namespace Entry

instance : Inhabited Entry := ⟨text []⟩

/-- The entry that a JSON value is. -/
def ofJson : Json → Entry
  | .str s => text s.toList
  | j => data j

/-- An entry as a JSON value. -/
def toJson : Entry → Json
  | text t => .ofText t
  | data j => j

/-- An entry counts as given unless it is empty, null, false or zero. -/
def isGiven : Entry → Bool
  | text t => !t.isEmpty
  | data j => j.isGiven

/-- The entry itself if it is given, and else the empty text. -/
def orEmpty (e : Entry) : Entry :=
  if e.isGiven then e else text []

/-- An entry as it stands in a line of text. -/
def shown : Entry → Text
  | text t => t
  | data j => j.shown

/-- Whether an entry is a blank text. Other data cannot be trimmed. -/
def isBlank : Entry → Except Fault Bool
  | text t => .ok t.blank
  | data j => .error (.lacks j.kind "strip")

/-- The length of an entry. -/
def length : Entry → Except Fault Nat
  | text t => .ok t.length
  | data (.arr items) => .ok items.length
  | data (.obj fields) => .ok fields.length
  | data (.str s) => .ok s.length
  | data j => .error (.noLength j.kind)

/-- The least width that does not fit into a machine word. -/
def widthLimit : Int := 9223372036854775808

/-- The least width of a text that cannot be held. -/
def memoryLimit : Int := 1099511627776

/-- Refuses a width that does not fit into a machine word, or of which no text can be held. -/
def checkWidth (width : Int) : Except Fault Unit :=
  if widthLimit ≤ width || width < -widthLimit then .error .tooLarge
  else if memoryLimit ≤ width then .error .outOfMemory
  else .ok ()

/-- An entry filled up with spaces to a width. -/
def padRight (width : Int) : Entry → Except Fault Text
  | text t => (checkWidth width).map fun _ => t.padRight width.toNat
  | data j => .error (.lacks j.kind "ljust")

/-- The text that an entry is, needed as the part of a joined text at this position. -/
def joinable (position : Nat) : Entry → Except Fault Text
  | text t => .ok t
  | data j => .error (.notJoinable position j.kind)

/-- The text that an entry is, needed for its code units. -/
def encodable : Entry → Except Fault Text
  | text t => .ok t
  | data j => .error (.lacks j.kind "encode")

@[simp] theorem toJson_text (t : Text) : (text t).toJson = .ofText t := rfl

@[simp] theorem shown_text (t : Text) : (text t).shown = t := rfl

@[simp] theorem ofJson_ofText (t : Text) : ofJson (.ofText t) = text t := by
  simp [ofJson, Json.ofText]

end Entry

end DocTemplate
