import DocTemplate.Proofs.Failure
import DocTemplate.Proofs.Text.Lines
import DocTemplate.Section.Asset
import Mathlib.Data.List.DropRight

/-!
# Asset sections as aligned text

Asset sections are texts with a column: the keys of all of them are filled up to one width, which
is found before the first line is written. `fieldLine` is the line of a field under such a width and
`alignedText` the whole text. What is rendered is that text (`renderAssets_eq`), unless it is too
wide to be held, which only the filling of a key can notice.

A line that is cut behind the column gives back the value whatever the value contains, so no colon
is searched for. The key in front of the cut has the spaces that it was filled up with behind it,
and loses them if it has none of its own at its end. With titles that are there and texts without
newlines the empty lines of the text stand between the sections only, and the text is cut there
(`readAligned`). Reading is the inverse of rendering (`readAligned_alignedText`), so rendering is
injective. Main result: `renderAssets_aligned`.
-/

namespace DocTemplate

/-- The texts of an asset section: its title, and the key and the value of each field. -/
structure AssetText where
  title : Text
  fields : List (Text × Text)
  deriving DecidableEq

namespace AssetSection

/-- An asset section whose title, keys and values are texts. -/
@[mk_iff typed_iff]
structure Typed (s : AssetSection) : Prop where
  title : ∃ t, s.title = .text t
  fields : ∀ f ∈ s.fields, (∃ t, f.key = .text t) ∧ ∃ t, f.value = .text t

/-- The texts of an asset section. Its ids are left out. -/
def texts (s : AssetSection) : AssetText :=
  ⟨s.title.shown, s.fields.map fun f => (f.key.shown, f.value.shown)⟩

end AssetSection

/-- The texts of asset sections. -/
def assetTexts (sections : List AssetSection) : List AssetText :=
  sections.map AssetSection.texts

/-! ## The text -/

/-- The line of a field: its key, spaces up to a column, a colon and its value. -/
def fieldLine (width : Nat) (f : Text × Text) : Text :=
  f.1 ++ List.replicate (width - f.1.length) ' ' ++ [':', ' '] ++ f.2

/-- The lines of an asset section: its title, unless that is empty, and its fields. -/
def AssetText.lines (width : Nat) (a : AssetText) : List Text :=
  (if a.title.isEmpty then [] else [a.title]) ++ a.fields.map (fieldLine width)

/-- An asset section as text, one line below the other. -/
def AssetText.block (width : Nat) (a : AssetText) : Text :=
  Text.join ['\n'] (a.lines width)

/-- Asset sections as text, an empty line between two of them. -/
def alignedText (width : Nat) (assets : List AssetText) : Text :=
  Text.join ['\n', '\n'] (assets.map (·.block width))

/-- The lengths of all keys of some asset sections. -/
def keyLengths (assets : List AssetText) : List Nat :=
  assets.flatMap fun a => a.fields.map fun f => f.1.length

/-- Whether there can be a text with keys filled up to this width. Where there are no fields no key
is filled up. -/
def checkColumn (width : Nat) (assets : List AssetText) : Except Fault Unit :=
  if assets.all (·.fields.isEmpty) then .ok () else Entry.checkWidth width

/-! ## Rendering -/

/-- A computation over items of which some are checked, all in the same way, is that check, made if
one of the items needs it. -/
theorem mapM_checked {ε α β : Type} {check : Except ε Unit} {free : α → Bool}
    {f : α → Except ε β} {g : α → β} {items : List α}
    (h : ∀ a ∈ items, f a = (if free a then .ok () else check).map fun _ => g a) :
    items.mapM f = (if items.all free then .ok () else check).map fun _ => items.map g := by
  induction items with
  | nil => rfl
  | cons a rest ih =>
    obtain ⟨ha, hrest⟩ := List.forall_mem_cons.1 h
    rw [List.mapM_cons, ha, ih hrest, List.all_cons]
    -- The check is a fixed outcome, so making it twice is making it once.
    cases check <;> cases free a <;> cases rest.all free <;> rfl

section Rendering

variable {s : AssetSection} {sections : List AssetSection}

theorem AssetField.line_eq {f : AssetField} (h : ∃ key, f.key = .text key) (width : Nat) :
    f.line width = (Entry.checkWidth width).map fun _ =>
      fieldLine width (f.key.shown, f.value.shown) := by
  obtain ⟨key, h⟩ := h
  rw [AssetField.line, h, Entry.padRight]
  cases Entry.checkWidth width <;> rfl

theorem AssetSection.lines_texts {title : Text} (h : s.title = .text title) (width : Nat) :
    s.texts.lines width = (if title.isEmpty then [] else [title]) ++
      s.fields.map fun f => fieldLine width (f.key.shown, f.value.shown) := by
  rw [AssetText.lines, AssetSection.texts, h, List.map_map]
  rfl

theorem AssetSection.Typed.lines_eq (h : s.Typed) (width : Nat) :
    s.lines width = (if s.fields.isEmpty then .ok () else Entry.checkWidth width).map fun _ =>
      s.texts.lines width := by
  obtain ⟨title, htitle⟩ := h.title
  have hfields : s.fields.mapM (AssetField.line width) =
      (if s.fields.all (fun _ => false) then .ok () else Entry.checkWidth width).map fun _ =>
        s.fields.map fun f => fieldLine width (f.key.shown, f.value.shown) :=
    mapM_checked fun f hf => AssetField.line_eq (h.fields f hf).1 width
  have hall : s.fields.all (fun _ => false) = s.fields.isEmpty := by
    cases s.fields <;> rfl
  rw [AssetSection.lines, hfields, hall, AssetSection.lines_texts htitle, htitle]
  generalize Entry.checkWidth width = check
  cases check <;> cases s.fields.isEmpty <;> cases title <;> rfl

theorem keyLengths_assetTexts (sections : List AssetSection) :
    keyLengths (assetTexts sections) =
      (sections.flatMap (·.fields)).map fun f => f.key.shown.length := by
  rw [keyLengths, assetTexts, List.flatMap_map, List.map_flatMap]
  refine List.flatMap_congr fun s _ => ?_
  rw [AssetSection.texts, List.map_map]
  rfl

theorem mapM_length (h : ∀ s ∈ sections, s.Typed) :
    (sections.flatMap (·.fields)).mapM (fun f => f.key.length) =
      .ok (keyLengths (assetTexts sections)) := by
  rw [keyLengths_assetTexts]
  refine mapM_eq_ok_map fun f hf => ?_
  obtain ⟨s, hs, hf⟩ := List.mem_flatMap.1 hf
  obtain ⟨key, hkey⟩ := ((h s hs).fields f hf).1
  rw [hkey]
  rfl

theorem AssetSection.Typed.block_eq (h : s.Typed) (width : Nat) :
    (do return Text.join ['\n'] (← s.lines width) : Except Fault Text) =
      (if s.fields.isEmpty then .ok () else Entry.checkWidth width).map fun _ =>
        s.texts.block width := by
  rw [h.lines_eq]
  cases (if s.fields.isEmpty then .ok () else Entry.checkWidth width) <;> rfl

theorem checkColumn_assetTexts (width : Nat) (sections : List AssetSection) :
    checkColumn width (assetTexts sections) =
      if sections.all (·.fields.isEmpty) then .ok () else Entry.checkWidth width := by
  have hempty (s : AssetSection) : s.texts.fields.isEmpty = s.fields.isEmpty :=
    List.isEmpty_map
  simp only [checkColumn, assetTexts, List.all_map, Function.comp_def, hempty]

theorem renderAssets_of_lengths {lengths : List Nat}
    (h : (sections.flatMap (·.fields)).mapM (fun f => f.key.length) = .ok lengths)
    (minPadding margin : Int) :
    renderAssets sections (.int minPadding) (.int margin) =
      Text.join ['\n', '\n'] <$> sections.mapM fun s => do
        return Text.join ['\n'] (← s.lines (keyPadding lengths minPadding margin)) := by
  rw [renderAssets, h]
  change (keyColumn lengths (.int minPadding) (.int margin) >>= _) = _
  rw [keyColumn_int]
  exact bind_pure_comp (m := Except Fault) _ _

theorem alignedText_assetTexts (width : Nat) (sections : List AssetSection) :
    alignedText width (assetTexts sections) =
      Text.join ['\n', '\n'] (sections.map fun s => s.texts.block width) := by
  rw [alignedText, assetTexts, List.map_map]
  rfl

/-- Asset sections of texts are rendered as their aligned text, if there can be one. -/
theorem renderAssets_eq (h : ∀ s ∈ sections, s.Typed) {minPadding margin : Int} {width : Nat}
    (hwidth : keyPadding (keyLengths (assetTexts sections)) minPadding margin = width) :
    renderAssets sections (.int minPadding) (.int margin) =
      (checkColumn width (assetTexts sections)).map fun _ =>
        alignedText width (assetTexts sections) := by
  rw [renderAssets_of_lengths (mapM_length h), hwidth,
    mapM_checked fun s hs => (h s hs).block_eq width, ← checkColumn_assetTexts,
    alignedText_assetTexts]
  cases checkColumn width (assetTexts sections) <;> rfl

end Rendering

/-! ## One column -/

/-- What stands in front of the line of a field: the asset sections before that of the field, and
what its own section has above the line. -/
def textBefore (width : Nat) (before : List AssetText) (above : AssetText) : Text :=
  (before.map (·.block width)).flatMap (· ++ ['\n', '\n']) ++
    (above.lines width).flatMap (· ++ ['\n'])

/-- What stands behind the line of a field: the fields below it, and the asset sections that
follow. -/
def textBehind (width : Nat) (below : List (Text × Text)) (after : List AssetText) : Text :=
  (below.map (fieldLine width)).flatMap (['\n'] ++ ·) ++
    (after.map (·.block width)).flatMap (['\n', '\n'] ++ ·)

/-- In a text made of a front, the line of a field and a back, the field has a line of its own, and
the colon of a key without a newline stands in a column that leaves this margin. -/
structure StandsAligned (width : Nat) (margin : Int) (front : Text) (f : Text × Text)
    (back : Text) : Prop where
  starts : Text.EndsLine front
  ends : Text.BreaksLine back
  room : margin ≤ (width - f.1.length : Nat)
  column : '\n' ∉ f.1 →
    (front ++ (f.1 ++ List.replicate (width - f.1.length) ' ')).column = width

section Column

variable {width : Nat}

theorem AssetText.lines_append_cons (title : Text) (above : List (Text × Text)) (f : Text × Text)
    (below : List (Text × Text)) :
    AssetText.lines width ⟨title, above ++ f :: below⟩ =
      AssetText.lines width ⟨title, above⟩ ++ fieldLine width f :: below.map (fieldLine width) := by
  simp only [AssetText.lines, List.map_append, List.map_cons, List.append_assoc]

theorem alignedText_field (before after : List AssetText) (title : Text)
    (above : List (Text × Text)) (f : Text × Text) (below : List (Text × Text)) :
    alignedText width (before ++ ⟨title, above ++ f :: below⟩ :: after) =
      textBefore width before ⟨title, above⟩ ++ fieldLine width f ++
        textBehind width below after := by
  rw [alignedText, List.map_append, List.map_cons, Text.join_append_cons, AssetText.block,
    AssetText.lines_append_cons, Text.join_append_cons]
  simp only [textBefore, textBehind, List.append_assoc]

theorem length_filledUp {key : Text} (h : key.length ≤ width) :
    (key ++ List.replicate (width - key.length) ' ').length = width := by
  rw [List.length_append, List.length_replicate]
  omega

theorem endsLine_textBefore (before : List AssetText) (above : AssetText) :
    Text.EndsLine (textBefore width before above) :=
  (Text.endsLine_flatMap ['\n'] _).append (Text.endsLine_flatMap [] _)

theorem breaksLine_textBehind (below : List (Text × Text)) (after : List AssetText) :
    Text.BreaksLine (textBehind width below after) :=
  (Text.breaksLine_flatMap [] _).append (Text.breaksLine_flatMap ['\n'] _)

/-- A key without a newline that is filled up in a line of its own ends in the column that it is
filled up to, or behind that if it is longer. -/
theorem column_filledUp {front key : Text} (hfront : Text.EndsLine front) (hkey : '\n' ∉ key)
    (width : Nat) :
    (front ++ (key ++ List.replicate (width - key.length) ' ')).column = max width key.length := by
  have hfilled : '\n' ∉ key ++ List.replicate (width - key.length) ' ' := by
    rw [List.mem_append, List.mem_replicate]
    rintro (h | ⟨-, h⟩)
    · exact hkey h
    · exact absurd h (by decide)
  rw [Text.column_append hfront hfilled, List.length_append, List.length_replicate]
  omega

theorem standsAligned {margin : Int} {f : Text × Text} (hmargin : 0 ≤ margin)
    (hwidth : f.1.length + margin ≤ width) (before after : List AssetText) (above : AssetText)
    (below : List (Text × Text)) :
    StandsAligned width margin (textBefore width before above) f
      (textBehind width below after) where
  starts := endsLine_textBefore before above
  ends := breaksLine_textBehind below after
  room := by omega
  column hkey := by
    rw [column_filledUp (endsLine_textBefore before above) hkey]
    omega

end Column

/-! ## Reading the text back -/

/-- The field of a line: the key stands in front of the column, and may be filled up there, the
value stands behind the colon and the space. -/
def readField (width : Nat) (line : Text) : Text × Text :=
  ((line.take width).rdropWhile (· == ' '), line.drop (width + 2))

/-- The asset section of a block of lines, the first of which is the title. -/
def AssetText.ofLines (width : Nat) : List Text → Option AssetText
  | [] => none
  | title :: lines => some ⟨title, lines.map (readField width)⟩

/-- The asset sections of a text, read with the column alone. -/
def readAligned (width : Nat) (t : Text) : List AssetText :=
  ((t.splitOn '\n').splitOn []).filterMap (AssetText.ofLines width)

/-- An asset section with a title, of texts in a single line, no key of which ends in a space. -/
structure AssetText.Plain (a : AssetText) : Prop where
  title : a.title ≠ [] ∧ '\n' ∉ a.title
  fields : ∀ f ∈ a.fields, '\n' ∉ f.1 ∧ '\n' ∉ f.2 ∧ f.1.getLast? ≠ some ' '

instance (a : AssetText) : Decidable a.Plain :=
  decidable_of_iff ((a.title ≠ [] ∧ '\n' ∉ a.title) ∧
      ∀ f ∈ a.fields, '\n' ∉ f.1 ∧ '\n' ∉ f.2 ∧ f.1.getLast? ≠ some ' ')
    ⟨fun h => ⟨h.1, h.2⟩, fun h => ⟨h.title, h.fields⟩⟩

section Reading

variable {width : Nat} {a : AssetText} {assets : List AssetText}

theorem rdropWhile_filledUp {key : Text} (h : key.getLast? ≠ some ' ') (n : Nat) :
    (key ++ List.replicate n ' ').rdropWhile (· == ' ') = key := by
  induction n with
  | zero =>
    rw [List.replicate_zero, List.append_nil, List.rdropWhile_eq_self_iff]
    intro hne hspace
    rw [List.getLast?_eq_some_getLast hne] at h
    exact h (congrArg some (beq_iff_eq.1 hspace))
  | succ n ih =>
    rw [List.replicate_succ', ← List.append_assoc, List.rdropWhile_concat_pos _ _ _ rfl, ih]

theorem readField_fieldLine {f : Text × Text} (hlast : f.1.getLast? ≠ some ' ')
    (hwidth : f.1.length ≤ width) : readField width (fieldLine width f) = f := by
  have hfilled := length_filledUp hwidth
  have hcolon : (f.1 ++ List.replicate (width - f.1.length) ' ' ++ [':', ' ']).length =
      width + 2 := by
    rw [List.length_append, hfilled]
    rfl
  refine Prod.ext ?_ (List.drop_left' hcolon)
  rw [readField, fieldLine, List.append_assoc (_ ++ _), List.take_left' hfilled]
  exact rdropWhile_filledUp hlast _

theorem AssetText.Plain.lines_eq (h : a.Plain) :
    a.lines width = a.title :: a.fields.map (fieldLine width) := by
  rw [AssetText.lines, if_neg (by simpa using h.title.1)]
  rfl

theorem AssetText.Plain.of_mem_lines (h : a.Plain) {t : Text} (ht : t ∈ a.lines width) :
    t ≠ [] ∧ '\n' ∉ t := by
  rw [h.lines_eq, List.mem_cons, List.mem_map] at ht
  rcases ht with rfl | ⟨f, hf, rfl⟩
  · exact h.title
  · obtain ⟨hkey, hvalue, -⟩ := h.fields f hf
    simp [fieldLine, hkey, hvalue]

theorem AssetText.Plain.ofLines_lines (h : a.Plain)
    (hwidth : ∀ f ∈ a.fields, f.1.length ≤ width) :
    AssetText.ofLines width (a.lines width) = some a := by
  have hfields : (a.fields.map (fieldLine width)).map (readField width) = a.fields := by
    rw [List.map_map, List.map_congr_left (g := id), List.map_id]
    exact fun f hf => readField_fieldLine (h.fields f hf).2.2 (hwidth f hf)
  rw [h.lines_eq, AssetText.ofLines, hfields]

/-- Plain asset sections are read back from their aligned text. -/
theorem readAligned_alignedText (h : ∀ a ∈ assets, a.Plain)
    (hwidth : ∀ a ∈ assets, ∀ f ∈ a.fields, f.1.length ≤ width) :
    readAligned width (alignedText width assets) = assets := by
  cases assets with
  | nil => rfl
  | cons a rest =>
    -- The title is what keeps a section from being read as none, and its lines from being empty.
    have hsome : ∀ b ∈ (a :: rest).map (·.lines width), b ≠ [] := by
      rw [List.forall_mem_map]
      intro a ha
      rw [(h a ha).lines_eq]
      exact List.cons_ne_nil _ _
    have hlines : ∀ b ∈ (a :: rest).map (·.lines width), ∀ t ∈ b, t ≠ [] ∧ '\n' ∉ t := by
      rw [List.forall_mem_map]
      exact fun a ha t ht => (h a ha).of_mem_lines ht
    have hblocks : ((alignedText width (a :: rest)).splitOn '\n').splitOn [] =
        (a :: rest).map (·.lines width) := by
      rw [← Text.splitOn_splitOn_join hsome hlines (List.cons_ne_nil _ _), List.map_map]
      rfl
    rw [readAligned, hblocks, List.filterMap_map, List.filterMap_congr (g := some),
      List.filterMap_some]
    exact fun a ha => (h a ha).ofLines_lines (hwidth a ha)

end Reading

/-! ## Alignment and recovery -/

theorem checkColumn_ok {width : Nat} (h : (width : Int) < Entry.memoryLimit)
    (assets : List AssetText) : checkColumn width assets = .ok () := by
  have hfits : Entry.checkWidth width = .ok () := by
    rw [Entry.memoryLimit] at h
    rw [Entry.checkWidth, if_neg, if_neg]
    · rw [Entry.memoryLimit]
      omega
    · rw [Bool.or_eq_true, decide_eq_true_eq, decide_eq_true_eq, Entry.widthLimit]
      omega
  rw [checkColumn, hfits, ite_self]

theorem length_add_margin_le {assets : List AssetText} {minPadding margin : Int} {width : Nat}
    (hwidth : keyPadding (keyLengths assets) minPadding margin = width) {a : AssetText}
    (ha : a ∈ assets) {f : Text × Text} (hf : f ∈ a.fields) : f.1.length + margin ≤ width := by
  have hmem : f.1.length ∈ keyLengths assets :=
    List.mem_flatMap.2 ⟨a, ha, List.mem_map_of_mem hf⟩
  exact hwidth ▸ keyPadding_ge hmem minPadding margin

theorem length_le_of_keyPadding {assets : List AssetText} {minPadding margin : Int} {width : Nat}
    (hmargin : 0 ≤ margin) (hwidth : keyPadding (keyLengths assets) minPadding margin = width) :
    ∀ a ∈ assets, ∀ f ∈ a.fields, f.1.length ≤ width := by
  intro a ha f hf
  have := length_add_margin_le hwidth ha hf
  omega

/-- Plain asset sections that have the same aligned text in a column that is wide enough for both
are the same. -/
theorem alignedText_injective {assets others : List AssetText} {width : Nat}
    (hassets : ∀ a ∈ assets, a.Plain) (hothers : ∀ a ∈ others, a.Plain)
    (hwidth : ∀ a ∈ assets, ∀ f ∈ a.fields, f.1.length ≤ width)
    (hwidth' : ∀ a ∈ others, ∀ f ∈ a.fields, f.1.length ≤ width)
    (h : alignedText width assets = alignedText width others) : assets = others :=
  calc assets = readAligned width (alignedText width assets) :=
        (readAligned_alignedText hassets hwidth).symm
    _ = readAligned width (alignedText width others) := by rw [h]
    _ = others := readAligned_alignedText hothers hwidth'

theorem eq_alignedText_of_renderAssets {sections : List AssetSection}
    (h : ∀ s ∈ sections, s.Typed) {minPadding margin : Int} {width : Nat}
    (hwidth : keyPadding (keyLengths (assetTexts sections)) minPadding margin = width) {t : Text}
    (ht : renderAssets sections (.int minPadding) (.int margin) = .ok t) :
    t = alignedText width (assetTexts sections) := by
  rw [renderAssets_eq h hwidth] at ht
  cases hcheck : checkColumn width (assetTexts sections) with
  | error fault =>
    rw [hcheck] at ht
    cases ht
  | ok =>
    rw [hcheck] at ht
    cases ht
    rfl

/-- **Asset sections are rendered in line and without loss.** The text has the line of each field at
its own place, with the colon in one column that leaves the margin behind the longest key. From a
text of plain sections that column is enough to read the sections back, all but their ids, so other
plain sections that are rendered with the same column have another text. -/
theorem renderAssets_aligned (sections : List AssetSection) (h : ∀ s ∈ sections, s.Typed)
    (minPadding margin : Int) (hmargin : 0 ≤ margin) :
    ∃ width : Nat,
      (width : Int) = max minPadding (longest (keyLengths (assetTexts sections)) + margin) ∧
      renderAssets sections (.int minPadding) (.int margin) =
        ((checkColumn width (assetTexts sections)).map fun _ =>
          alignedText width (assetTexts sections)) ∧
      ((width : Int) < Entry.memoryLimit →
        renderAssets sections (.int minPadding) (.int margin) =
          .ok (alignedText width (assetTexts sections))) ∧
      (∀ before title above f below after,
        assetTexts sections = before ++ ⟨title, above ++ f :: below⟩ :: after →
          alignedText width (assetTexts sections) =
            textBefore width before ⟨title, above⟩ ++ fieldLine width f ++
              textBehind width below after ∧
          StandsAligned width margin (textBefore width before ⟨title, above⟩) f
            (textBehind width below after)) ∧
      ((∀ a ∈ assetTexts sections, a.Plain) →
        readAligned width (alignedText width (assetTexts sections)) = assetTexts sections ∧
        ∀ (others : List AssetSection) (minPadding' margin' : Int) (t : Text),
          (∀ s ∈ others, s.Typed) → (∀ a ∈ assetTexts others, a.Plain) → 0 ≤ margin' →
          (width : Int) = max minPadding' (longest (keyLengths (assetTexts others)) + margin') →
          renderAssets sections (.int minPadding) (.int margin) = .ok t →
          renderAssets others (.int minPadding') (.int margin') = .ok t →
          assetTexts others = assetTexts sections) := by
  obtain ⟨width, hwidth⟩ : ∃ width : Nat,
      keyPadding (keyLengths (assetTexts sections)) minPadding margin = width :=
    Int.eq_ofNat_of_zero_le (by rw [keyPadding]; omega)
  have houtcome := renderAssets_eq h hwidth
  have hlength := length_le_of_keyPadding hmargin hwidth
  refine ⟨width, hwidth.symm, houtcome, fun hfits => ?_, ?_, fun hplain => ⟨?_, ?_⟩⟩
  · rw [houtcome, checkColumn_ok hfits]
    rfl
  · intro before title above f below after hsplit
    have hroom : f.1.length + margin ≤ width := by
      refine length_add_margin_le hwidth (a := ⟨title, above ++ f :: below⟩) ?_ ?_
      · rw [hsplit]
        exact List.mem_append_right _ List.mem_cons_self
      · exact List.mem_append_right _ List.mem_cons_self
    refine ⟨?_, standsAligned hmargin hroom before after ⟨title, above⟩ below⟩
    rw [hsplit]
    exact alignedText_field before after title above f below
  · exact readAligned_alignedText hplain hlength
  · intro others minPadding' margin' t hothers hplain' hmargin' hwidth' ht ht'
    have hlength' := length_le_of_keyPadding hmargin' hwidth'.symm
    refine alignedText_injective hplain' hplain hlength' hlength ?_
    calc alignedText width (assetTexts others) = t :=
          (eq_alignedText_of_renderAssets hothers hwidth'.symm ht').symm
      _ = alignedText width (assetTexts sections) := eq_alignedText_of_renderAssets h hwidth ht

/-- A house, with a key that is much shorter than the next, a value that looks like a field and a
value that is empty, and a car with an empty key. -/
def houseAndCar : List AssetSection :=
  [⟨.text ['H'], [⟨.text ['k'], .text ['a', ':', ' ', 'b'], .fresh⟩,
      ⟨.text ['k', 'e', 'y'], .text [], .fresh⟩], .fresh⟩,
    ⟨.text ['C'], [⟨.text [], .text ['k'], .fresh⟩], .given .null⟩]

/-- The same with the values of the house exchanged. -/
def exchangedValues : List AssetSection :=
  [⟨.text ['H'], [⟨.text ['k'], .text [], .fresh⟩,
      ⟨.text ['k', 'e', 'y'], .text ['a', ':', ' ', 'b'], .fresh⟩], .fresh⟩,
    ⟨.text ['C'], [⟨.text [], .text ['k'], .fresh⟩], .fresh⟩]

theorem renderAssets_aligned_houseAndCar :
    renderAssets houseAndCar (.int 0) (.int 2) =
      .ok "H\nk    : a: b\nkey  : \n\nC\n     : k".toList ∧
    readAligned 5 "H\nk    : a: b\nkey  : \n\nC\n     : k".toList = assetTexts houseAndCar ∧
    renderAssets exchangedValues (.int 5) (.int 0) ≠
      renderAssets houseAndCar (.int 0) (.int 2) := by
  have htyped : ∀ s ∈ houseAndCar, s.Typed := by
    simp [houseAndCar, AssetSection.typed_iff]
  have htyped' : ∀ s ∈ exchangedValues, s.Typed := by
    simp [exchangedValues, AssetSection.typed_iff]
  have htext : alignedText 5 (assetTexts houseAndCar) =
      "H\nk    : a: b\nkey  : \n\nC\n     : k".toList := by decide
  obtain ⟨width, hwidth, -, hfits, -, hlossless⟩ :=
    renderAssets_aligned houseAndCar htyped 0 2 (by decide)
  obtain rfl : width = 5 := Int.ofNat_inj.1 (hwidth.trans (by decide))
  obtain ⟨hread, hinjective⟩ := hlossless (by decide)
  have hrendered := hfits (by decide)
  rw [htext] at hread hrendered
  refine ⟨hrendered, hread, fun hsame => ?_⟩
  exact absurd (hinjective exchangedValues 5 0 _ htyped' (by decide) (by decide) (by decide)
    hrendered (hsame.trans hrendered)) (by decide)

end DocTemplate
