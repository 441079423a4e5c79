import DocTemplate.Edit.Basic
import DocTemplate.Marker.TemplateScan
import DocTemplate.OrderedMap
import DocTemplate.Section.Asset
import DocTemplate.Text.Replace

/-!
# Substitution plans

Filling variables and asset sections by replacing their literals wherever they stand. Nothing has
to be placed, so no positions are needed.

Each variable is looked for in every form in which it can be written and in every form in which it
was found. Asset sections come first: every block is replaced by the text of all the asset sections
that were entered, and blocks stay as they are if none was.

Both the forms of a variable and the carrying out of a plan have a second version for what callers
send as any JSON data; on texts it is the same (`spellingsOfData_ofText`, `applyEntryEdits_text`).
-/

namespace DocTemplate

/-- A text between double braces. -/
def braced (t : Text) : Text :=
  ['\x7b', '\x7b'] ++ t ++ ['\x7d', '\x7d']

/-- The forms in which the variable `name` is usually written: bare, with a space on either side,
and with each type. -/
def usualSpellings (name : Text) : List Text :=
  [braced name, braced ([' '] ++ name ++ [' '])] ++
    VariableType.all.map fun type => braced (name ++ [':'] ++ type.name)

/-- The forms in which the variable `name` is written: the usual ones and those among `found` that
are none of these. -/
def placeholderSpellings (name : Text) (found : List Text) : List Text :=
  usualSpellings name ++ distinctFrom (usualSpellings name) found

/-- The forms in which a variable is written, where its name and what was found may be any JSON
data. -/
def spellingsOfData (name : Json) (found : List Json) : List Json :=
  let usual := (usualSpellings name.shown).map .ofText
  usual ++ distinctBy Json.same usual found

theorem spellingsOfData_ofText (name : Text) (found : List Text) :
    spellingsOfData (.ofText name) (found.map .ofText) =
      (placeholderSpellings name found).map .ofText := by
  have hs : ∀ a b : Text, Json.same (.ofText a) (.ofText b) = (a == b) := by
    intro a b
    rw [Json.ofText, Json.ofText, Json.same_str, Bool.eq_iff_iff, beq_iff_eq, beq_iff_eq]
    exact ⟨fun h => by simpa using congrArg String.toList h, congrArg _⟩
  have hn : (Json.ofText name).shown = name := by simp [Json.ofText, Json.shown]
  simp only [spellingsOfData, placeholderSpellings, hn, distinctBy_map hs, distinctBy_eq,
    List.map_append]

/-- The edits that put `rendered` in the place of asset sections whose names are not in `seen`; one
for each name, for its first block. -/
def blockEdits (rendered : Text) (seen : List Text) : List AssetBlock → List Edit
  | [] => []
  | b :: rest =>
    if b.name ∈ seen then blockEdits rendered seen rest
    else .replaceText (.text b.raw) (.text rendered) (.bool true) ::
      blockEdits rendered (b.name :: seen) rest

/-- The edits that put a value in the place of the variable `name`. A value that is not given
stands for the empty text. -/
def variableEdits (occurrences : List Variable) (name : Text) (value : Entry) : List Edit :=
  let found := (occurrences.filter (·.name = name)).map (·.placeholder)
  (placeholderSpellings name found).map fun spelling =>
    .replaceText (.text spelling) value.orEmpty (.bool true)

/-- The edits that fill the asset sections that a scan found; none if no section was entered. -/
def planBlocks (sections : List AssetSection) (scan : TemplateScan) (minPadding : Json) :
    Except Fault (List Edit) :=
  if sections.isEmpty then .ok []
  else (blockEdits · [] scan.assetBlocks) <$> renderAssets sections minPadding

/-- The edits that fill the variables that a scan found. -/
def planValues (values : OrderedMap Entry) (scan : TemplateScan) : List Edit :=
  values.entries.flatMap fun (name, value) => variableEdits scan.variableTokens name value

/-- The edits that fill the asset sections and variables that a scan found. -/
def planSubstitution (values : OrderedMap Entry) (sections : List AssetSection)
    (scan : TemplateScan) (minPadding : Json := .int assetMinPadding) : Except Fault (List Edit) :=
  return (← planBlocks sections scan minPadding) ++ planValues values scan

/-! ## Carrying out a plan on a text -/

/-- The text that is looked for, needed for an operation that only texts have. -/
def findText (fault : JsonKind → Fault) : Entry → Except Fault Text
  | .text t => .ok t
  | .data j => .error (fault j.kind)

/-- A text with every occurrence of one entry replaced by another one. -/
def replaceExactly (t : Text) (find replacement : Entry) : Except Fault Text := do
  let find ← findText (.notReplaceable 1) find
  match replacement with
  | .text new => return t.replaceAll find new
  | .data j => throw (.notReplaceable 2 j.kind)

/-- A text with every occurrence of one entry in any case replaced by another one. A replacement
that is no text is refused only if there is an occurrence. -/
def replaceInAnyCase (t : Text) (find replacement : Entry) : Except Fault Text := do
  let find ← findText (.lacks · "lower") find
  match replacement with
  | .text new => return t.replaceAnyCase find new
  | .data j =>
    if (t.lower.offsetsOf find.lower find.length).isEmpty then return t
    else throw (.notJoinable 1 j.kind)

/-- Whether an edit looks for something in a text. -/
def Edit.searchesText : Edit → Bool
  | .replaceText find _ _ => find.isGiven
  | _ => false

/-- A text after one edit. Only the replacement of a text that is not empty changes it. -/
def Edit.applyText (t : Text) : Edit → Except Fault Text
  | .replaceText find replacement matchCase =>
    if find.isGiven then
      if matchCase.isGiven then replaceExactly t find replacement
      else replaceInAnyCase t find replacement
    else .ok t
  | _ => .ok t

/-- A text after some edits, in order. -/
def applyTextEdits (t : Text) (edits : List Edit) : Except Fault Text :=
  edits.foldlM Edit.applyText t

/-- What stands in the place of a text after one edit. Other data stays as it is, and an edit that
looks for something in it is refused. -/
def Edit.applyEntry : Entry → Edit → Except Fault Entry
  | .text t, e => .text <$> e.applyText t
  | .data j, e => if e.searchesText then .error (.lacks j.kind "replace") else .ok (.data j)

/-- What stands in the place of a text after some edits, in order. -/
def applyEntryEdits (entry : Entry) (edits : List Edit) : Except Fault Entry :=
  edits.foldlM Edit.applyEntry entry

theorem applyEntryEdits_text (t : Text) (edits : List Edit) :
    applyEntryEdits (.text t) edits = .text <$> applyTextEdits t edits := by
  induction edits generalizing t with
  | nil => rfl
  | cons e rest ih =>
    simp only [applyEntryEdits, applyTextEdits, List.foldlM_cons, Edit.applyEntry] at ih ⊢
    cases e.applyText t with
    | error f => rfl
    | ok t => exact ih t

end DocTemplate
