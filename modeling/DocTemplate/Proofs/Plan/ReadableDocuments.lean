import DocTemplate.Proofs.Document.Passages
import DocTemplate.Proofs.Json.Equality
import DocTemplate.Proofs.Template.Outcomes

/-!
# Section tables for every document that can be read

If the body of a document can be read, so can the rest of a snapshot of it
(`exists_ofDocument_of_readBody`), and section tables can be planned for it in every form in which
it is handed over (`exists_plan_of_readBody`). Three things could go wrong on the way and do not:
each section marker stands in the text of the snapshot itself, whose characters all have their
origins; the revisions that are compared are one and the same value; and the cells of a layout are
those of the table that is laid out for it.
-/

namespace DocTemplate

/-- A document whose body can be read has a snapshot, with this body and the revision that stands in
the document. -/
theorem exists_ofDocument_of_readBody {document tabId : Json} {b : Body}
    (h : readBody document tabId = .ok b) (documentId : Json) :
    ∃ s, Snapshot.ofDocument document documentId tabId = .ok s ∧ s.body = b ∧
      s.revision = (document.get? "revisionId").getD .null := by
  obtain ⟨revision, hrevision⟩ := exists_fieldD_of_readBody h "revisionId" .null
  obtain ⟨ownId, hown⟩ := exists_fieldD_of_readBody h "documentId" (.str "")
  obtain ⟨title, htitle⟩ := exists_fieldD_of_readBody h "title" (.str "Untitled Document")
  simp only [Snapshot.ofDocument, bind_eq_ok_iff, liftM_fault_eq_ok_iff, pure_eq_ok_iff]
  exact ⟨_, ⟨revision, hrevision, b, h, ownId, hown, title, htitle, rfl⟩, rfl,
    Json.fieldD_eq_ok hrevision⟩

/-- The revision of a snapshot equals itself. -/
theorem same_revision_self {document : Json} (h : document.DistinctNames) :
    ((document.get? "revisionId").getD .null).same ((document.get? "revisionId").getD .null) =
      true := by
  cases hrevision : document.get? "revisionId" with
  | none => simp [Json.same]
  | some revision => exact Json.same_self (h.of_get? hrevision)

/-- **Section tables can be planned for every document that can be read**, from its JSON or a
snapshot of any of its tabs, whatever id it is asked for by, and from its body alone: if the
sections are made of texts, there is a plan, and no error can arise. -/
theorem exists_plan_of_readBody {document tabId : Json} {b : Body} (hnames : document.DistinctNames)
    (hread : readBody document tabId = .ok b) {sections : SectionData}
    (htyped : ∀ name data, sections.get? name = some (some data) → data.Typed) :
    (∀ documentId, ∃ s plan, Snapshot.ofDocument document documentId tabId = .ok s ∧ s.body = b ∧
      planSectionTables sections s = .ok plan) ∧
    ∃ plan, planSectionTables sections (.ofBody b) = .ok plan := by
  constructor
  · intro documentId
    obtain ⟨s, hs, hbody, hrevision⟩ := exists_ofDocument_of_readBody hread documentId
    have hsame : s.revision.same s.revision = true := by
      rw [hrevision]
      exact same_revision_self hnames
    obtain ⟨plan, hplan⟩ := Template.exists_planSectionTables (Snapshot.linear_ofDocument hs) htyped
      fun _ => hsame
    exact ⟨s, plan, hs, hbody, hplan⟩
  · exact Template.exists_planSectionTables rfl htyped fun _ => by simp [Snapshot.ofBody, Json.same]

/-- A document with two tabs, of which the second one has a section marker behind a character of two
code units. -/
def twoTabs : Json :=
  let tab (id : String) (content : List Json) : Json :=
    .obj [("tabProperties", .obj [("tabId", .str id)]),
      ("documentTab", .obj [("body", .obj [("content", .arr content)])])]
  .obj [("revisionId", .str "rev-1"),
    ("tabs", .arr [tab "first" [Template.lineData 1 3 "a\n"],
      tab "second" [Template.lineData 1 17 "😀[[section:S]]\n"]])]

theorem exists_plan_twoTabs : ∃ b, twoTabs.DistinctNames ∧
    readBody twoTabs (.str "second") = .ok b ∧
    (∀ name data, Template.pairSection.get? name = some (some data) → data.Typed) ∧
    ∃ s plan, Snapshot.ofDocument twoTabs .null (.str "second") = .ok s ∧ s.body = b ∧
      planSectionTables Template.pairSection s = .ok plan ∧ plan.rendered = [['S']] := by
  have hnames : twoTabs.DistinctNames := by
    simp [twoTabs, Template.lineData, Template.elementData, Json.DistinctNames, Json.itemsDistinct,
      Json.fieldsDistinct]
  have htyped : ∀ name data, Template.pairSection.get? name = some (some data) → data.Typed :=
    fun _ _ => typed_of_singleton rfl ⟨⟨_, rfl⟩, by simp⟩
  have hreadable : (fun _ => ()) <$> readBody twoTabs (.str "second") = .ok () := by
    cbv
  obtain ⟨b, hb, -⟩ := map_eq_ok_iff.1 hreadable
  obtain ⟨s, plan, hs, hbody, hplan⟩ := (exists_plan_of_readBody hnames hb htyped).1 .null
  have hrendered : (do
      let s ← Snapshot.ofDocument twoTabs .null (.str "second")
      SectionTablePlan.rendered <$> planSectionTables Template.pairSection s) = .ok [['S']] := by
    cbv
  rw [hs] at hrendered
  obtain ⟨plan', hplan', hnames'⟩ := map_eq_ok_iff.1 hrendered
  obtain rfl := Except.ok.inj (hplan.symm.trans hplan')
  exact ⟨b, hnames, hb, htyped, s, plan, hs, hbody, hplan, hnames'⟩

end DocTemplate
