import DocTemplate.Marker.TemplateScan
import DocTemplate.OrderedMap
import DocTemplate.Plan.TableFill

/-!
# Section tables

Plans a table for every section marker of a document as one batch of edits. The markers are taken
from the last one to the first, so the edits for one of them move none of those still to come.
Markers without usable data stay where they are and are listed with the reason.
-/

namespace DocTemplate

/-- Why a marker gets no table. -/
inductive SkipReason where
  /-- There is no data under its name, but there is under these. -/
  | noData (available : List Text)
  /-- The data has no title or no complete pair. -/
  | incomplete
  deriving Repr

/-- A marker that gets no table. -/
structure SkippedSection where
  name : Text
  reason : SkipReason
  deriving Repr

namespace SkippedSection

/-- The error that a skipped marker stands for, if it is one. -/
def error? (s : SkippedSection) : Option EngineError :=
  match s.reason with
  | .noData available => some (.noData s.name available)
  | .incomplete => none

/-- The reason in words. -/
def message (s : SkippedSection) : String :=
  match s.reason with
  | .noData _ => "no data supplied"
  | .incomplete => "missing title or empty key/value pairs"

/-- The record of a skipped marker. -/
def toJson (s : SkippedSection) : Json :=
  .obj ([("name", .ofText s.name), ("reason", .str s.message)] ++
    (s.error?.map fun e => ("error", e.toJson)).toList)

end SkippedSection

/-- The data of sections by name; a name can stand without data. -/
abbrev SectionData := OrderedMap (Option Section)

/-- The data for a marker, or why it gets no table. -/
def selectSection (marker : SectionMarker) (sections : SectionData) :
    Except Fault (Except SkippedSection Section) := do
  match (sections.get? marker.name).join with
  | none => return .error ⟨marker.name, .noData sections.keys⟩
  | some s =>
    if ← s.hasContent then return .ok s else return .error ⟨marker.name, .incomplete⟩

/-- The edits for all section markers of a document, and what becomes of each of them. -/
structure SectionTablePlan where
  edits : List Edit := []
  rendered : List Text := []
  skipped : List SkippedSection := []

/-- Plans tables for markers that are listed from the last one to the first. -/
def planMarkers (sections : SectionData) (snapshot : Snapshot) :
    List SectionMarker → Except Failure SectionTablePlan
  | [] => .ok {}
  | marker :: rest => do
    match ← selectSection marker sections with
    | .error skipped =>
      let plan ← planMarkers sections snapshot rest
      return { plan with skipped := plan.skipped ++ [skipped] }
    | .ok s =>
      let (start, stop) ← snapshot.range (.int marker.start) (.int marker.stop)
      let edits ← planMarkerTable (.int start.index) (.int stop.index) s.layout
      let plan ← planMarkers sections snapshot rest
      return { plan with
        edits := edits ++ plan.edits, rendered := plan.rendered ++ [marker.name] }

/-- Plans tables for all section markers of a document. -/
def planSectionTables (sections : SectionData) (snapshot : Snapshot) :
    Except Failure SectionTablePlan :=
  planMarkers sections snapshot (TemplateScan.ofLinear snapshot.linear).sectionMarkers.reverse

end DocTemplate
