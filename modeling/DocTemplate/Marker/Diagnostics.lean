import DocTemplate.Error
import DocTemplate.Marker.Scan

/-!
# Malformed markers

The tags of asset sections that are not part of a block. They stay in the document as plain text;
the reports say where they stand and stop nothing.
-/

namespace DocTemplate

/-- What is wrong with a tag. -/
inductive TagIssue where
  | unterminated
  | unopened
  deriving DecidableEq, Repr

/-- The issue in words. -/
def TagIssue.message : TagIssue → String
  | .unterminated => "unterminated"
  | .unopened => "a closing tag without a matching opening tag"

/-- A tag that is not part of a block. -/
structure MalformedTag where
  name : Text
  position : Nat
  issue : TagIssue
  deriving Repr

/-- A malformed tag as an error. -/
def MalformedTag.toError (m : MalformedTag) : EngineError :=
  .malformedMarker (.ofText m.name) (.int m.position) (.str m.issue.message)

/-- The tags with this opening in a part of a text. -/
def malformedTags (opening : Text) (issue : TagIssue) (t : Text) (start stop : Nat) :
    List MalformedTag :=
  (t.scanWithin (tag opening '\x7d') start stop).map fun found =>
    ⟨found.value.trim, found.start, issue⟩

/-- The tags of a text that are not part of a block, ordered by where they start. -/
def findMalformedTags (t : Text) : List MalformedTag :=
  ((gaps t.length (rangesOfBlocks (findAssetBlocks t))).flatMap fun (start, stop) =>
    malformedTags assetOpening .unterminated t start stop ++
      malformedTags assetClosing .unopened t start stop).mergeSort
    fun a b => a.position ≤ b.position

end DocTemplate
