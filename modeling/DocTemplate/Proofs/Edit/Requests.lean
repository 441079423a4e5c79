import DocTemplate.Edit.Request
import DocTemplate.Proofs.Failure

/-!
# Edits read back from requests

Every part of an edit stands somewhere in its request, so the edit can be read back from the request
alone (`Edit.ofRequest`). There are three exceptions. An edit of no kind has no request, a change of
style that sets nothing has the request null, and data in the place of a text is sent as it is, so
it cannot be told from the text that it looks like. Edits without these are definite
(`Edit.IsDefinite`): each has a request that is not null, from which it is read back as a whole
(`Edit.IsDefinite.exists_toRequest`), and a list of them is sent without loss
(`exists_sentAs`, `SentAs.inj`).
-/

namespace DocTemplate

/-- What stands in a value behind some field names, one inside the other. -/
def Json.under (j : Json) : List String → Option Json
  | [] => some j
  | name :: rest => (j.get? name).bind (·.under rest)

namespace Edit

/-! ## The edit of a request -/

/-- Where a request for a range of cells says at which table it is. -/
def tablePath : List String :=
  ["tableRange", "tableCellLocation", "tableStartLocation", "index"]

/-- The edit that a request of some kind stands for. -/
def ofBody (kind : String) (body : Json) : Option Edit :=
  match kind with
  | "deleteContentRange" => do
    return .deleteRange (← body.under ["range", "startIndex"]) (← body.under ["range", "endIndex"])
  | "insertText" => do
    return .insertText (← body.under ["location", "index"]) (.ofJson (← body.under ["text"]))
  | "insertTable" => do
    return .insertTable (← body.under ["location", "index"]) (← body.under ["rows"])
      (← body.under ["columns"])
  | "mergeTableCells" => do
    return .mergeCells (← body.under tablePath)
      (← body.under ["tableRange", "tableCellLocation", "rowIndex"])
      (← body.under ["tableRange", "tableCellLocation", "columnIndex"])
      (← body.under ["tableRange", "rowSpan"]) (← body.under ["tableRange", "columnSpan"])
  | "updateTextStyle" => do
    return .setTextStyle (← body.under ["range", "startIndex"]) (← body.under ["range", "endIndex"])
      ((body.under ["textStyle", "bold"]).getD .null)
      ((body.under ["textStyle", "fontSize", "magnitude"]).getD .null)
  | "updateParagraphStyle" => do
    return .setAlignment (← body.under ["range", "startIndex"]) (← body.under ["range", "endIndex"])
      (← body.under ["paragraphStyle", "alignment"])
  | "updateTableCellStyle" => do
    return .removeBorders (← body.under tablePath) (← body.under ["tableRange", "rowSpan"])
      (← body.under ["tableRange", "columnSpan"])
  | "updateTableColumnProperties" => do
    let .arr columns ← body.under ["columnIndices"] | none
    return .setColumnWidth (← body.under ["tableStartLocation", "index"]) columns
      (← body.under ["tableColumnProperties", "width", "magnitude"])
  | "replaceAllText" => do
    return .replaceText (.ofJson (← body.under ["containsText", "text"]))
      (.ofJson (← body.under ["replaceText"])) (← body.under ["containsText", "matchCase"])
  | _ => none

/-- The edit that a request stands for. -/
def ofRequest : Json → Option Edit
  | .obj [(kind, body)] => ofBody kind body
  | _ => none

/-! ## Edits that are definite -/

/-- The edit is of some kind, holds texts where texts are expected, and sets something if it sets a
style. -/
def IsDefinite : Edit → Prop
  | unspecified => False
  | insertText _ text => ∃ t, text = .text t
  | setTextStyle _ _ bold fontSize => bold ≠ .null ∨ fontSize ≠ .null
  | replaceText find replacement _ => (∃ t, find = .text t) ∧ ∃ t, replacement = .text t
  | _ => True

/-- The request that a change of style has if it sets something. -/
theorem toRequest_setTextStyle {bold fontSize : Json} (h : bold ≠ .null ∨ fontSize ≠ .null)
    (start stop : Json) : (setTextStyle start stop bold fontSize).toRequest =
      .ok (.obj [("updateTextStyle",
        .obj [("range", .range start stop), ("textStyle", .obj (textStyleFields bold fontSize)),
          ("fields", .str (",".intercalate ((textStyleFields bold fontSize).map (·.1))))])]) := by
  have hne : ¬ (textStyleFields bold fontSize).isEmpty = true := by
    cases bold <;> cases fontSize <;> simp_all [textStyleFields, styleField]
  rw [toRequest]
  exact if_neg hne

theorem under_bold (bold fontSize : Json) :
    ((Json.obj (textStyleFields bold fontSize)).under ["bold"]).getD .null = bold := by
  cases bold <;> cases fontSize <;> rfl

theorem under_fontSize (bold fontSize : Json) :
    ((Json.obj (textStyleFields bold fontSize)).under ["fontSize", "magnitude"]).getD .null =
      fontSize := by
  cases bold <;> cases fontSize <;> rfl

/-- The request of a definite edit is not null, and the edit is read back from it. -/
theorem IsDefinite.exists_toRequest {e : Edit} (h : e.IsDefinite) :
    ∃ request, e.toRequest = .ok request ∧ request ≠ .null ∧ ofRequest request = some e := by
  cases e with
  | unspecified => exact h.elim
  | deleteRange start stop => exact ⟨_, rfl, Json.noConfusion, rfl⟩
  | insertText index text =>
    obtain ⟨t, rfl⟩ := h
    refine ⟨_, rfl, Json.noConfusion, ?_⟩
    show some (insertText index (.ofJson (.ofText t))) = _
    rw [Entry.ofJson_ofText]
  | insertTable index rows columns => exact ⟨_, rfl, Json.noConfusion, rfl⟩
  | mergeCells table row column rowSpan columnSpan => exact ⟨_, rfl, Json.noConfusion, rfl⟩
  | setTextStyle start stop bold fontSize =>
    refine ⟨_, toRequest_setTextStyle h start stop, Json.noConfusion, ?_⟩
    show some (setTextStyle start stop (((Json.obj (textStyleFields bold fontSize)).under
      ["bold"]).getD .null) (((Json.obj (textStyleFields bold fontSize)).under
        ["fontSize", "magnitude"]).getD .null)) = _
    rw [under_bold, under_fontSize]
  | setAlignment start stop alignment => exact ⟨_, rfl, Json.noConfusion, rfl⟩
  | removeBorders table rowSpan columnSpan => exact ⟨_, rfl, Json.noConfusion, rfl⟩
  | setColumnWidth table columns width => exact ⟨_, rfl, Json.noConfusion, rfl⟩
  | replaceText find replacement matchCase =>
    obtain ⟨⟨t, rfl⟩, ⟨t', rfl⟩⟩ := h
    refine ⟨_, rfl, Json.noConfusion, ?_⟩
    show some (replaceText (.ofJson (.ofText t)) (.ofJson (.ofText t')) matchCase) = _
    rw [Entry.ofJson_ofText, Entry.ofJson_ofText]

end Edit

/-! ## Lists of edits -/

/-- The requests that are sent for some edits are one for each edit, in order; none of them is null,
and every edit is read back from its request. -/
structure SentAs (edits : List Edit) (requests : List Json) : Prop where
  toRequests_eq : Edit.toRequests edits = .ok requests
  ne_null : ∀ request ∈ requests, request ≠ .null
  ofRequest_eq : requests.map Edit.ofRequest = edits.map some

theorem exists_sentAs {edits : List Edit} (h : ∀ e ∈ edits, e.IsDefinite) :
    ∃ requests, SentAs edits requests := by
  induction edits with
  | nil => exact ⟨[], rfl, by simp, rfl⟩
  | cons e rest ih =>
    obtain ⟨he, hrest⟩ := List.forall_mem_cons.1 h
    obtain ⟨request, hrequest, hne, hread⟩ := he.exists_toRequest
    obtain ⟨requests, hsent⟩ := ih hrest
    have hrequests : rest.mapM Edit.toRequest = .ok requests := hsent.toRequests_eq
    refine ⟨request :: requests, ?_, List.forall_mem_cons.2 ⟨hne, hsent.ne_null⟩, ?_⟩
    · rw [Edit.toRequests, List.mapM_cons, hrequest, hrequests]
      rfl
    · rw [List.map_cons, List.map_cons, hread, hsent.ofRequest_eq]

/-- Edits that are sent as the same requests are the same. -/
theorem SentAs.inj {edits others : List Edit} {requests : List Json} (h : SentAs edits requests)
    (hothers : SentAs others requests) : others = edits :=
  (List.map_inj_right fun _ _ => Option.some.inj).1 (hothers.ofRequest_eq.symm.trans h.ofRequest_eq)

end DocTemplate
