import DocTemplate.Proofs.Section.AlignedText
import Mathlib

/-!
# The preview of asset sections

A preview shows every asset section under its title, with each key filled up to a width. The width
is fixed: it does not depend on the keys, as that of the rendered text does. So a longer key pushes
its colon out of the column, and the preview is in line with the rendered text only as long as the
width has room for the longest key and its margin (`previewAssets_fixedWidth`).

That another width makes another preview is a matter of length: a preview is longer than one that is
not filled up by all the spaces behind its keys (`length_previewText`).
-/

namespace DocTemplate

/-! ## The text -/

/-- The title of an asset section in a preview, set off by empty lines. An empty one takes no
room. -/
def AssetText.heading (a : AssetText) : Text :=
  if a.title.isEmpty then [] else ['\n'] ++ a.title ++ ['\n', '\n']

/-- The lines of some fields, each ended by a newline. -/
def fieldLines (width : Nat) (fields : List (Text × Text)) : Text :=
  (fields.map (fieldLine width)).flatMap (· ++ ['\n'])

/-- An asset section in a preview. -/
def AssetText.preview (width : Nat) (a : AssetText) : Text :=
  a.heading ++ fieldLines width a.fields ++ ['\n']

/-- Asset sections in a preview, their keys filled up to a width. -/
def previewText (width : Nat) (assets : List AssetText) : Text :=
  assets.flatMap (·.preview width)

/-! ## Previewing -/

section Previewing

variable {s : AssetSection} {sections : List AssetSection}

theorem AssetSection.heading_texts {title : Text} (h : s.title = .text title) :
    s.texts.heading =
      if s.title.isGiven then ['\n'] ++ s.title.shown ++ ['\n', '\n'] else [] := by
  rw [AssetText.heading, AssetSection.texts, h]
  cases title <;> rfl

theorem AssetSection.fieldLines_texts (s : AssetSection) (width : Nat) :
    fieldLines width s.texts.fields =
      (s.fields.map fun f => fieldLine width (f.key.shown, f.value.shown) ++ ['\n']).flatten := by
  simp only [fieldLines, AssetSection.texts, List.map_map, List.flatMap_def, Function.comp_def]

theorem AssetSection.Typed.preview_eq (h : s.Typed) : s.preview = .ok (s.texts.preview 25) := by
  obtain ⟨title, htitle⟩ := h.title
  have hlines : (s.fields.mapM fun f => do return (← f.line previewPadding) ++ ['\n']) =
      .ok (s.fields.map fun f => fieldLine 25 (f.key.shown, f.value.shown) ++ ['\n']) := by
    refine mapM_eq_ok_map fun f hf => ?_
    rw [show previewPadding = (25 : Nat) from rfl, AssetField.line_eq (h.fields f hf).1]
    rfl
  rw [AssetSection.preview, hlines, AssetText.preview, AssetSection.heading_texts htitle,
    AssetSection.fieldLines_texts]
  rfl

/-- Asset sections of texts are previewed with their keys filled up to the width of a preview. -/
theorem previewAssets_eq (h : ∀ s ∈ sections, s.Typed) :
    previewAssets sections = .ok (previewText 25 (assetTexts sections)) := by
  rw [previewAssets, mapM_eq_ok_map fun s hs => (h s hs).preview_eq, previewText, assetTexts,
    List.flatMap_def, List.map_map]
  rfl

end Previewing

/-! ## Where the colons stand -/

/-- What stands in a preview in front of the line of a field: the asset sections before that of the
field, and what its own section has above the line. -/
def previewBefore (width : Nat) (before : List AssetText) (above : AssetText) : Text :=
  previewText width before ++ (above.heading ++ fieldLines width above.fields)

/-- What stands in a preview behind the line of a field: the end of this line, the fields below it,
and the asset sections that follow. -/
def previewBehind (width : Nat) (below : List (Text × Text)) (after : List AssetText) : Text :=
  ['\n'] ++ (fieldLines width below ++ ['\n'] ++ previewText width after)

/-- In a preview with keys filled up to a width, the colon behind every key without a newline stands
in one column. -/
def ColonsIn (column width : Nat) (assets : List AssetText) : Prop :=
  ∀ before title above f below after, assets = before ++ ⟨title, above ++ f :: below⟩ :: after →
    '\n' ∉ f.1 →
    (previewBefore width before ⟨title, above⟩ ++
      (f.1 ++ List.replicate (width - f.1.length) ' ')).column = column

section Colons

variable {column width : Nat} {assets : List AssetText}

theorem fieldLines_append (fields others : List (Text × Text)) :
    fieldLines width (fields ++ others) = fieldLines width fields ++ fieldLines width others := by
  simp only [fieldLines, List.map_append, List.flatMap_append]

theorem fieldLines_cons (f : Text × Text) (fields : List (Text × Text)) :
    fieldLines width (f :: fields) = fieldLine width f ++ (['\n'] ++ fieldLines width fields) := by
  simp only [fieldLines, List.map_cons, List.flatMap_cons, List.append_assoc]

theorem previewText_cons (a : AssetText) (rest : List AssetText) :
    previewText width (a :: rest) = a.preview width ++ previewText width rest := rfl

theorem previewText_field (before after : List AssetText) (title : Text)
    (above : List (Text × Text)) (f : Text × Text) (below : List (Text × Text)) :
    previewText width (before ++ ⟨title, above ++ f :: below⟩ :: after) =
      previewBefore width before ⟨title, above⟩ ++ fieldLine width f ++
        previewBehind width below after := by
  have hbefore : previewText width (before ++ ⟨title, above ++ f :: below⟩ :: after) =
      previewText width before ++ previewText width (⟨title, above ++ f :: below⟩ :: after) :=
    List.flatMap_append
  rw [hbefore, previewText_cons, AssetText.preview, fieldLines_append, fieldLines_cons]
  simp only [previewBefore, previewBehind, AssetText.heading, List.append_assoc]

theorem endsLine_heading (a : AssetText) : Text.EndsLine a.heading := by
  unfold AssetText.heading
  split
  · exact .inl rfl
  · exact .inr ⟨['\n'] ++ a.title ++ ['\n'], (List.append_assoc _ ['\n'] ['\n']).symm⟩

theorem endsLine_previewText (assets : List AssetText) :
    Text.EndsLine (previewText width assets) := by
  induction assets with
  | nil => exact .inl rfl
  | cons a rest ih => exact Text.EndsLine.append (.inr ⟨_, rfl⟩) ih

theorem endsLine_previewBefore (before : List AssetText) (above : AssetText) :
    Text.EndsLine (previewBefore width before above) :=
  (endsLine_previewText before).append
    ((endsLine_heading above).append (Text.endsLine_flatMap [] _))

theorem colonsIn_iff : ColonsIn column width assets ↔
    ∀ a ∈ assets, ∀ f ∈ a.fields, '\n' ∉ f.1 → max width f.1.length = column := by
  constructor
  · rintro h ⟨title, fields⟩ ha f hf hkey
    obtain ⟨before, after, rfl⟩ := List.append_of_mem ha
    obtain ⟨above, below, rfl⟩ := List.append_of_mem hf
    rw [← h before title above f below after rfl hkey,
      column_filledUp (endsLine_previewBefore before ⟨title, above⟩) hkey]
  · rintro h before title above f below after rfl hkey
    rw [column_filledUp (endsLine_previewBefore before ⟨title, above⟩) hkey]
    exact h _ (List.mem_append_right _ List.mem_cons_self) f
      (List.mem_append_right _ List.mem_cons_self) hkey

end Colons

/-! ## How long a preview is -/

section Length

variable {width width' : Nat} {assets : List AssetText}

theorem length_fieldLine (width : Nat) (f : Text × Text) :
    (fieldLine width f).length = (fieldLine 0 f).length + (width - f.1.length) := by
  simp only [fieldLine, List.length_append, List.length_replicate]
  omega

theorem length_fieldLines (width : Nat) (fields : List (Text × Text)) :
    (fieldLines width fields).length =
      (fieldLines 0 fields).length + (fields.map fun f => width - f.1.length).sum := by
  induction fields with
  | nil => rfl
  | cons f rest ih =>
    simp only [fieldLines_cons, List.length_append, List.map_cons, List.sum_cons,
      length_fieldLine width f, ih]
    omega

/-- A preview is longer than one that is not filled up by the spaces behind its keys. -/
theorem length_previewText (width : Nat) (assets : List AssetText) :
    (previewText width assets).length =
      (previewText 0 assets).length + ((keyLengths assets).map (width - ·)).sum := by
  induction assets with
  | nil => rfl
  | cons a rest ih =>
    have hkeys : keyLengths (a :: rest) = (a.fields.map fun f => f.1.length) ++ keyLengths rest :=
      List.flatMap_cons
    simp only [previewText_cons, AssetText.preview, List.length_append, ih, hkeys,
      length_fieldLines width a.fields, List.map_append, List.sum_append, List.map_map,
      Function.comp_def]
    omega

/-- A preview with keys filled up further is another one, unless all keys are that long already. -/
theorem previewText_ne (h : width < width') {n : Nat} (hn : n ∈ keyLengths assets)
    (hlt : n < width') : previewText width assets ≠ previewText width' assets := by
  intro hsame
  have hspaces : ((keyLengths assets).map (width - ·)).sum <
      ((keyLengths assets).map (width' - ·)).sum :=
    List.sum_lt_sum _ _ (fun k _ => Nat.sub_le_sub_right h.le k) ⟨n, hn, by omega⟩
  have hlength := congrArg List.length hsame
  rw [length_previewText width, length_previewText width'] at hlength
  omega

end Length

/-! ## The width of a preview -/

/-- A preview is in line with the rendered text: its keys are filled up to the width that the
longest key of all sections and its margin need, which is at least that of a preview, and there all
colons stand. -/
def AlignsPreview (sections : List AssetSection) : Prop :=
  ∃ width : Nat, (width : Int) = keyPadding (keyLengths (assetTexts sections)) previewPadding ∧
    previewAssets sections = .ok (previewText width (assetTexts sections)) ∧
    ColonsIn width width (assetTexts sections)

section AlignsPreview

variable {sections : List AssetSection}

theorem length_le_longest {assets : List AssetText} {a : AssetText} (ha : a ∈ assets)
    {f : Text × Text} (hf : f ∈ a.fields) : f.1.length ≤ longest (keyLengths assets) :=
  le_foldl_max_of_mem (List.mem_flatMap.2 ⟨a, ha, List.mem_map_of_mem hf⟩) 0

theorem alignsPreview_iff (h : ∀ s ∈ sections, s.Typed) :
    AlignsPreview sections ↔ longest (keyLengths (assetTexts sections)) + 2 ≤ 25 := by
  have hwidth : keyPadding (keyLengths (assetTexts sections)) previewPadding =
      (max 25 (longest (keyLengths (assetTexts sections)) + 2) : Nat) := by
    rw [keyPadding, previewPadding, keyMargin]
    omega
  constructor
  · rintro ⟨width, hcolumn, htext, -⟩
    rw [hwidth, Int.ofNat_inj] at hcolumn
    rw [previewAssets_eq h, Except.ok.injEq] at htext
    by_contra hlong
    -- a key makes the width greater, so there is one, and it is not filled up that far
    have hsome : keyLengths (assetTexts sections) ≠ [] := by
      intro hnone
      rw [hnone] at hlong
      exact hlong (by decide)
    obtain ⟨n, hn⟩ := List.exists_mem_of_ne_nil _ hsome
    have hle : n ≤ longest (keyLengths (assetTexts sections)) := le_foldl_max_of_mem hn 0
    exact previewText_ne (by omega) hn (by omega) htext
  · intro hshort
    refine ⟨25, ?_, previewAssets_eq h, colonsIn_iff.2 fun a ha f hf _ => ?_⟩
    · rw [hwidth]
      omega
    · have := length_le_longest ha hf
      omega

end AlignsPreview

/-- **A preview has one fixed width.** All keys are filled up to it, and longer ones stand as they
are: the line of each field stands at its own place, with the colon of a key without a newline in
the column of the width, or behind the key if that is longer. So the colons stand in one column
exactly if this is the same for all keys; and the preview is in line with the rendered text exactly
if the margin behind the longest key fits into the width. -/
theorem previewAssets_fixedWidth (sections : List AssetSection) (h : ∀ s ∈ sections, s.Typed) :
    previewAssets sections = .ok (previewText 25 (assetTexts sections)) ∧
    (∀ before title above f below after,
      assetTexts sections = before ++ ⟨title, above ++ f :: below⟩ :: after →
        previewText 25 (assetTexts sections) =
          previewBefore 25 before ⟨title, above⟩ ++ fieldLine 25 f ++
            previewBehind 25 below after ∧
        Text.EndsLine (previewBefore 25 before ⟨title, above⟩) ∧
        Text.BreaksLine (previewBehind 25 below after) ∧
        ('\n' ∉ f.1 →
          (previewBefore 25 before ⟨title, above⟩ ++
            (f.1 ++ List.replicate (25 - f.1.length) ' ')).column = max 25 f.1.length)) ∧
    (∀ column, ColonsIn column 25 (assetTexts sections) ↔
      ∀ a ∈ assetTexts sections, ∀ f ∈ a.fields, '\n' ∉ f.1 → max 25 f.1.length = column) ∧
    (AlignsPreview sections ↔ longest (keyLengths (assetTexts sections)) + 2 ≤ 25) := by
  refine ⟨previewAssets_eq h, ?_, fun column => colonsIn_iff, alignsPreview_iff h⟩
  intro before title above f below after hsplit
  have hends : Text.EndsLine (previewBefore 25 before ⟨title, above⟩) :=
    endsLine_previewBefore before _
  refine ⟨?_, hends, .inr ⟨_, rfl⟩, fun hkey => column_filledUp hends hkey 25⟩
  rw [hsplit]
  exact previewText_field before after title above f below

theorem previewAssets_fixedWidth_houseAndCar :
    previewAssets houseAndCar = .ok (("\nH\n\nk                        : a: b\n" ++
      "key                      : \n\n\nC\n\n                         : k\n\n").toList) ∧
    AlignsPreview houseAndCar ∧ ColonsIn 25 25 (assetTexts houseAndCar) := by
  have htyped : ∀ s ∈ houseAndCar, s.Typed := by
    simp [houseAndCar, AssetSection.typed_iff]
  obtain ⟨htext, -, hcolons, haligns⟩ := previewAssets_fixedWidth houseAndCar htyped
  exact ⟨htext.trans (congrArg Except.ok (by decide)), haligns.2 (by decide),
    (hcolons 25).2 (by decide)⟩

/-- A key that is longer than a preview is wide, above a short one. -/
def longAndShortKey : List AssetSection :=
  [⟨.text ['T'], [⟨.text (List.replicate 26 'k'), .text ['v'], .fresh⟩,
    ⟨.text ['k'], .text ['v'], .fresh⟩], .fresh⟩]

/-- The long key pushes its colon out of the column, and the short one is not filled up to it. -/
theorem not_alignsPreview_longAndShortKey :
    (∀ s ∈ longAndShortKey, s.Typed) ∧
    previewAssets longAndShortKey = .ok (("\nT\n\nkkkkkkkkkkkkkkkkkkkkkkkkkk: v\n" ++
      "k                        : v\n\n").toList) ∧
    ¬ AlignsPreview longAndShortKey ∧
    ∀ column, ¬ ColonsIn column 25 (assetTexts longAndShortKey) := by
  have htyped : ∀ s ∈ longAndShortKey, s.Typed := by
    simp [longAndShortKey, AssetSection.typed_iff]
  have htext := previewAssets_eq htyped
  refine ⟨htyped, htext.trans (congrArg Except.ok (by decide)), ?_, fun column hcolons => ?_⟩
  · rintro ⟨width, hwidth, haligned, -⟩
    obtain rfl : width = 28 := Int.ofNat_inj.1 (hwidth.trans (by decide))
    exact absurd (Except.ok.inj (htext.symm.trans haligned)) (by decide)
  · have hboth := colonsIn_iff.1 hcolons _ List.mem_cons_self
    have hlong := hboth _ List.mem_cons_self (by decide)
    have hshort := hboth _ (List.mem_cons_of_mem _ List.mem_cons_self) (by decide)
    exact absurd (hlong.trans hshort.symm) (by decide)

end DocTemplate
