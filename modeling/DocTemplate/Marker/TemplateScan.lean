import DocTemplate.Document.Linear
import DocTemplate.Marker.Diagnostics

/-!
# Scanning a template

Everything that is found in one linear text: its variables, each name once; its asset sections and
section markers; and the tags that are malformed.
-/

namespace DocTemplate

/-- A variable of a template, with the literal and type of its first occurrence. -/
structure ResolvedVariable where
  name : Text
  placeholder : Text
  type : VariableType
  deriving Repr

/-- The record of a variable. -/
def ResolvedVariable.toJson (v : ResolvedVariable) : Json :=
  .obj [("name", .ofText v.name), ("placeholder", .ofText v.placeholder),
    ("type", .ofText v.type.name)]

/-- The variables whose names do not occur in `seen`, each name once, in the order of their first
occurrences. -/
def resolveFrom (seen : List Text) : List Variable → List ResolvedVariable
  | [] => []
  | v :: rest =>
    if v.name ∈ seen then resolveFrom seen rest
    else ⟨v.name, v.placeholder, v.type⟩ :: resolveFrom (v.name :: seen) rest

/-- The variables among some markers, each name once, in the order of their first occurrences. -/
def resolve (tokens : List Token) : List ResolvedVariable :=
  resolveFrom [] (tokens.filterMap Token.var?)

/-- What is found in a linear text. -/
structure TemplateScan where
  linear : LinearText
  resolved : List ResolvedVariable
  variableTokens : List Variable
  assetBlocks : List AssetBlock
  sectionMarkers : List SectionMarker
  diagnostics : List MalformedTag

namespace TemplateScan

/-- The scan of a linear text. -/
def ofLinear (linear : LinearText) : TemplateScan :=
  let tokens := tokenize linear.text
  { linear := linear
    resolved := resolve tokens
    variableTokens := tokens.filterMap Token.var?
    assetBlocks := tokens.filterMap Token.assetBlock?
    sectionMarkers := tokens.filterMap Token.sectionMarker?
    diagnostics := findMalformedTags linear.text }

/-- The record of a scan. `blockFields` adds fields to the record of an asset section. -/
def toJson (s : TemplateScan) (blockFields : AssetBlock → List (String × Json) := fun _ => []) :
    List (String × Json) :=
  [("variables", .arr (s.resolved.map ResolvedVariable.toJson)),
    ("asset_sections", .arr (s.assetBlocks.map fun b =>
      .obj ([("name", .ofText b.name), ("placeholder", .ofText b.raw),
        ("template", .ofText b.template)] ++ blockFields b))),
    ("section_markers", .arr (s.sectionMarkers.map fun m => .ofText m.name)),
    ("diagnostics", .arr (s.diagnostics.map fun d => d.toError.toJson))]

end TemplateScan

/-- The texts that do not occur in `seen`, each once, in the order of their first occurrences. -/
def distinctFrom (seen : List Text) : List Text → List Text
  | [] => []
  | t :: rest => if t ∈ seen then distinctFrom seen rest else t :: distinctFrom (t :: seen) rest

/-- The items that are the same as none of `seen`, each once, in the order of their first
occurrences. -/
def distinctBy {α : Type} (same : α → α → Bool) (seen : List α) : List α → List α
  | [] => []
  | a :: rest =>
    if seen.any (same a) then distinctBy same seen rest
    else a :: distinctBy same (a :: seen) rest

theorem mem_distinctFrom {s : Text} {seen found : List Text} :
    s ∈ distinctFrom seen found ↔ s ∈ found ∧ s ∉ seen := by
  induction found generalizing seen with
  | nil => simp [distinctFrom]
  | cons x rest ih =>
    rw [distinctFrom]
    by_cases hx : x ∈ seen
    · rw [if_pos hx, ih, List.mem_cons]
      constructor
      · exact fun h => ⟨.inr h.1, h.2⟩
      · rintro ⟨rfl | h, hs⟩
        · exact absurd hx hs
        · exact ⟨h, hs⟩
    · rw [if_neg hx, List.mem_cons, ih, List.mem_cons, List.mem_cons]
      by_cases hs : s = x
      · subst hs
        simp [hx]
      · simp [hs]

theorem nodup_distinctFrom (seen found : List Text) : (distinctFrom seen found).Nodup := by
  induction found generalizing seen with
  | nil => exact .nil
  | cons x rest ih =>
    rw [distinctFrom]
    split
    · exact ih seen
    · refine List.nodup_cons.2 ⟨fun hx => ?_, ih _⟩
      exact (mem_distinctFrom.1 hx).2 List.mem_cons_self

theorem distinctBy_eq (seen found : List Text) :
    distinctBy (· == ·) seen found = distinctFrom seen found := by
  induction found generalizing seen with
  | nil => rfl
  | cons t rest ih => by_cases h : t ∈ seen <;> simp [distinctBy, distinctFrom, h, ih]

theorem distinctBy_map {α β : Type} {same : α → α → Bool} {same' : β → β → Bool} {f : α → β}
    (h : ∀ a b, same' (f a) (f b) = same a b) (seen found : List α) :
    distinctBy same' (seen.map f) (found.map f) = (distinctBy same seen found).map f := by
  induction found generalizing seen with
  | nil => rfl
  | cons a rest ih =>
    have hs : (seen.map f).any (same' (f a)) = seen.any (same a) := by
      simp [List.any_map, Function.comp_def, h]
    by_cases ha : seen.any (same a) = true
    · simp only [List.map_cons, distinctBy, hs, ha, if_true, ih]
    · simp only [List.map_cons, distinctBy, hs, ha]
      simpa using ih (a :: seen)

/-- The names of the fields that the template of an asset section uses, each once, in the order of
their first occurrences. -/
def templateFields (template : Text) : List Text :=
  distinctFrom [] ((Text.scanFrom (tag variableOpening '\x7d') 0 0 template).map (·.value.trim))

end DocTemplate
