import DocTemplate.Document.Snapshot

/-!
# Anchors

Maps offsets of a linear text, cells and inserted tables to positions in the document.

An anchor is a document index together with the revision it belongs to. The index of a character
is read off its origin, so an offset without an origin has no anchor, and a text of another
revision than the snapshot's is refused.

Offsets, cells and indices that callers ask for may be any JSON data (`anchorAt`, `rangeAt`,
`Table.insertionIndex`, `insertedTable`). What is no number is refused where it is compared with
one, and not before.
-/

namespace DocTemplate

instance : MonadLift (Except EngineError) (Except Failure) where
  monadLift
    | .ok a => .ok a
    | .error e => .error (.engine e)

/-- A position in a document at some revision. -/
structure Anchor where
  index : Int
  revision : Json
  deriving Repr

/-- The position `distance` further on. -/
def Anchor.shifted (a : Anchor) (distance : Int) : Anchor :=
  { a with index := a.index + distance }

namespace LinearText

/-- The origin of the character at an offset, if every character has one. -/
def origin? (t : LinearText) (offset : Int) : Option Origin :=
  if t.hasOrigins && 0 ≤ offset then t.origins[offset.toNat]? else none

/-- The anchor of the character at an offset. -/
def anchor (t : LinearText) (offset : Number) : Except EngineError Anchor :=
  match t.origin? offset.value with
  | some o => .ok ⟨o.index, t.revision⟩
  | none => .error (.staleSnapshot t.revision t.revision offset.toJson)

/-- The anchors of the characters from `start` up to `stop`: the position of the first one and the
position behind the last one. An empty range is the position of its first character. -/
def range (t : LinearText) (start stop : Number) : Except EngineError (Anchor × Anchor) := do
  let first ← t.anchor start
  if stop.value ≤ start.value then return (first, first)
  let last ← t.anchor (.int (stop.value - 1))
  return (first, last.shifted (Text.units (t.text.slice (stop.value - 1).toNat stop.value.toNat)))

/-- The number that an offset is. In a text without origins no offset is looked at. -/
def offset (t : LinearText) (offset : Json) : Except Failure Number :=
  match offset.number? with
  | some n => .ok n
  | none =>
    if t.hasOrigins then .error (.fault (.incomparable "<=" .int offset.kind))
    else .error (.engine (.staleSnapshot t.revision t.revision offset))

end LinearText

/-! ## Cells -/

/-- The item of a list at a position. There is none at a negative position. -/
def itemAt? {α : Type} (items : List α) (position : Int) : Option α :=
  if 0 ≤ position then items[position.toNat]? else none

/-- The item of a list at a position that a caller asks for. A negative position counts from the
end of the list. -/
def pickItem {α : Type} (items : List α) (position : Json) : Except Fault α :=
  match position.number? with
  | none => .error (.badSubscript .arr position.kind)
  | some n =>
    match itemAt? items (if n.value < 0 then n.value + items.length else n.value) with
    | some a => .ok a
    | none => .error .outOfRange

/-- The number that the position of a row or column is. -/
def cellPlace (j : Json) : Except Fault Int :=
  match j.number? with
  | some n => .ok n.value
  | none => .error (.incomparable "<=" .int j.kind)

/-- The document index at which text is inserted into a cell: inside the first paragraph of the
cell, or just inside the cell if it holds none. -/
def Table.insertionIndex (t : Table) (row column : Json) : Except Failure Int := do
  let some r := itemAt? t.rows (← cellPlace row)
    | throw (.engine (.cellNotFound row column (.int t.rowCount) (.int t.columnCount)))
  let some c := itemAt? r.cells (← cellPlace column)
    | throw (.engine (.cellNotFound row column (.int t.rowCount) (.int r.cells.length)))
  match c.paragraphs with
  | p :: _ => p.start.plus 1
  | [] => c.start.plus 1

/-! ## Inserted tables -/

/-- The position of the first item for which `p` holds. Nothing behind it is looked at. -/
def firstWhere? {α : Type} (p : α → Except Fault Bool) : List α → Except Fault (Option Nat)
  | [] => .ok none
  | a :: rest => do
    if ← p a then return some 0 else return (← firstWhere? p rest).map (· + 1)

/-- Whether a table that starts at `start` stands from five before to fifty after an index. -/
def isNear (index : Int) (start : Json) : Except Fault Bool := do
  if ← Json.atMost (.int (index - 5)) start then start.atMost (.int (index + 50)) else return false

/-- Which of the tables that start at the given indices was inserted at `index`: one that starts
exactly there, else the first one from five before to fifty after it, else the first one behind
it. -/
def insertedTable (starts : List Json) (index : Json) : Except Fault (Option Nat) := do
  match starts.findIdx? (·.same index) with
  | some found => return some found
  | none =>
    let place ← index.minus (.int 0)
    match ← firstWhere? (isNear place) starts with
    | some found => return some found
    | none => firstWhere? (·.atLeast (.int place)) starts

namespace Snapshot

/-- The text that positions are looked up in: the one given, unless it is empty, or the text of the
snapshot. -/
def source (s : Snapshot) (linear : Option LinearText) : LinearText :=
  match linear with
  | some t => if t.text.isEmpty then s.linear else t
  | none => s.linear

/-- Refuses a text of another revision. -/
def checkRevision (s : Snapshot) (t : LinearText) (offset : Json) : Except EngineError Unit :=
  if t.revision.same s.revision then .ok ()
  else .error (.staleSnapshot s.revision t.revision offset)

/-- The anchor of the character at an offset. -/
def anchor (s : Snapshot) (offset : Number) (linear : Option LinearText := none) :
    Except EngineError Anchor := do
  let t := s.source linear
  s.checkRevision t offset.toJson
  t.anchor offset

/-- The anchors of the characters from `start` up to `stop`. -/
def range (s : Snapshot) (start stop : Number) (linear : Option LinearText := none) :
    Except EngineError (Anchor × Anchor) := do
  let t := s.source linear
  s.checkRevision t start.toJson
  t.range start stop

/-- The anchor of the character at an offset that a caller asks for. -/
def anchorAt (s : Snapshot) (offset : Json) (linear : Option LinearText := none) :
    Except Failure Anchor := do
  s.checkRevision (s.source linear) offset
  let n ← (s.source linear).offset offset
  s.anchor n linear

/-- The anchors of the characters from `start` up to `stop`, both as a caller asks for them. -/
def rangeAt (s : Snapshot) (start stop : Json) (linear : Option LinearText := none) :
    Except Failure (Anchor × Anchor) := do
  let _ ← s.anchorAt start linear
  match start.number?, stop.number? with
  | some m, some n => s.range m n linear
  | _, _ => throw (.fault (.incomparable "<=" stop.kind start.kind))

/-- The anchor at which text is inserted into a cell of a table of the snapshot. -/
def cellAnchor (s : Snapshot) (t : Table) (row column : Json) : Except Failure Anchor :=
  return ⟨← t.insertionIndex row column, s.revision⟩

/-- The table of the snapshot that was inserted at an index. -/
def tableAt (s : Snapshot) (index : Json) : Except Fault (Option Table) :=
  return (← insertedTable (s.body.tables.map (·.start)) index).bind (s.body.tables[·]?)

end Snapshot

end DocTemplate
