import DocTemplate.Template.Batch
import DocTemplate.Plan.Substitution

/-!
# Filling variables

Fills the variables and asset sections of a document in one batch, planned from one fetch. Values
that could not be read stop the work where they are needed: once the document has been fetched and
the asset sections have been rendered.

Main fact: `planFill_ok` (values that were read are planned by `planSubstitution`).
-/

namespace DocTemplate.Template

/-- Values by name as they were read from what a caller sent. -/
abbrev ReadValues := Except Fault (OrderedMap Entry)

/-- Whether there are no values. Values that could not be read are some. -/
def ReadValues.isEmpty : ReadValues → Bool
  | .ok values => values.isEmpty
  | .error _ => false

/-- The edits that fill the asset sections and variables that a scan found. -/
def planFill (options : FillOptions) (values : ReadValues) (assets : List AssetSection)
    (scan : TemplateScan) : Except Failure (List Edit) := do
  let blocks ← planBlocks assets scan options.minPadding
  return blocks ++ planValues (← values) scan

/-- Fills the variables and asset sections of a document. -/
def fillVariables (options : FillOptions) (documentId : Json) (values : ReadValues)
    (assets : List AssetSection := []) : Action documentStore AppliedBatch :=
  Store.withDocument documentId do
    let snapshot ← fetchSnapshot options documentId
    let plan ← planFill options values assets (.ofLinear snapshot.linear)
    applyEdits documentId plan snapshot.revision

theorem planFill_ok (options : FillOptions) (values : OrderedMap Entry)
    (assets : List AssetSection) (scan : TemplateScan) :
    planFill options (.ok values) assets scan =
      (planSubstitution values assets scan options.minPadding).mapError .fault := by
  simp only [planFill, planSubstitution]
  cases planBlocks assets scan options.minPadding <;> rfl

end DocTemplate.Template
