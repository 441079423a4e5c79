import DocTemplate.Proofs.Marker.Tokens
import DocTemplate.Proofs.Text.Replacing

/-!
# Literals of asset sections

The literal of an asset section is an asset section wherever it stands (`IsSection`), and no
occurrence of it reaches into another one (`IsSection.unbordered`): the closing tag of the first one
would be a closing tag inside the second one, or one of the tags would start inside the other.
-/

namespace DocTemplate

/-- The opening tag of an asset section. -/
def openingTag (name : Text) : Text :=
  assetOpening ++ name ++ ['\x7d', '\x7d']

/-- A text is an asset section as a whole: an opening tag, what stands inside, and the first closing
tag of the same name behind the opening one. -/
structure IsSection (name inner l : Text) : Prop where
  close_notMem : '\x7d' ∉ name
  name_ne_nil : name ≠ []
  eq_append : l = openingTag name ++ (inner ++ closingTag name)
  first : ∀ k < inner.length, ¬ closingTag name <+: (inner ++ closingTag name).drop k

theorem length_openingTag (name : Text) :
    (openingTag name).length = assetOpening.length + name.length + 2 := by
  rw [openingTag, List.length_append, List.length_append]
  rfl

theorem length_closingTag (name : Text) :
    (closingTag name).length = (openingTag name).length + 1 := by
  have hopening : assetClosing.length = assetOpening.length + 1 := rfl
  rw [closingTag, openingTag, List.length_append, List.length_append, List.length_append,
    List.length_append, hopening]
  omega

/-! ## Opening tags -/

theorem tag_append {w name r : Text} {size : Nat}
    (h : tag assetOpening '\x7d' w = some (name, size)) :
    tag assetOpening '\x7d' (w ++ r) = some (name, size) := by
  obtain ⟨hname, hsize, rest, rfl⟩ := tag_eq_some_iff.1 h
  exact tag_eq_some_iff.2 ⟨hname, hsize, rest ++ r, List.append_assoc _ _ _⟩

/-- Two braces that follow each other behind the start of a tag stand behind the whole tag. -/
theorem tag_of_braces {w name r : Text} {size : Nat}
    (h : tag assetOpening '\x7d' (w ++ '\x7b' :: '\x7b' :: r) = some (name, size))
    (hname : '\x7b' ∉ name) (hw : w ≠ []) : tag assetOpening '\x7d' w = some (name, size) := by
  obtain ⟨hc, hsize, rest, hrest⟩ := tag_eq_some_iff.1 h
  have hbody : '\x7b' ∉ assetOpenStart ++ name ++ ['\x7d', '\x7d'] := by
    simp [assetOpenStart, hname]
  match w with
  | [] => exact absurd rfl hw
  | [_] =>
    obtain ⟨-, hrest⟩ := List.cons.inj hrest
    obtain ⟨-, hrest⟩ := List.cons.inj hrest
    obtain ⟨hhead, -⟩ := List.cons.inj hrest
    exact absurd hhead (by decide)
  | x :: y :: w =>
    change x :: y :: (w ++ '\x7b' :: '\x7b' :: r) =
      '\x7b' :: '\x7b' :: (assetOpenStart ++ name ++ ['\x7d', '\x7d'] ++ rest) at hrest
    simp only [List.cons.injEq] at hrest
    obtain ⟨rfl, rfl, hrest⟩ := hrest
    refine tag_eq_some_iff.2 ⟨hc, hsize, ?_⟩
    rcases List.append_eq_append_iff.1 hrest with ⟨s, hs, hr⟩ | ⟨s, rfl, -⟩
    · -- the tag would go on with an opening brace
      cases s with
      | nil => exact ⟨[], by rw [List.append_nil] at hs ⊢; rw [← hs]; rfl⟩
      | cons d s =>
        obtain ⟨rfl, -⟩ := List.cons.inj hr
        exact absurd (hs ▸ List.mem_append_right w List.mem_cons_self) hbody
    · exact ⟨s, rfl⟩

/-! ## Sections as a whole -/

section IsSection

variable {name inner l t : Text}

/-- What is found at the start of a text is a section as a whole. -/
theorem isSection_of_assetSection {a : Text}
    (h : assetSection (a ++ t) = some ((name, inner), a.length)) : IsSection name inner a := by
  obtain ⟨size, htag, hbefore, hlength⟩ := assetSection_eq_some_iff.1 h
  obtain ⟨⟨hclose, hne⟩, rfl, rest, hrest⟩ := tag_eq_some_iff.1 htag
  rw [← length_openingTag] at hbefore hlength
  change a ++ t = openingTag name ++ rest at hrest
  rw [hrest, List.drop_left] at hbefore
  obtain ⟨⟨behind, rfl⟩, hfirst⟩ := before?_eq_some_iff.1 hbefore
  rw [← List.append_assoc] at hrest
  have hl := List.append_inj_left hrest (by simp only [hlength, List.length_append, Nat.add_assoc])
  refine ⟨hclose, hne, hl, fun k hk hstarts => hfirst k hk ?_⟩
  rw [List.drop_append_of_le_length (by rw [List.length_append]; omega)]
  exact hstarts.trans (List.prefix_append _ _)

namespace IsSection

variable (h : IsSection name inner l)

include h

/-- A section starts with two opening braces. -/
theorem exists_cons : ∃ r, l = '\x7b' :: '\x7b' :: r :=
  ⟨_, h.eq_append⟩

theorem ne_nil : l ≠ [] := by
  obtain ⟨r, rfl⟩ := h.exists_cons
  exact List.cons_ne_nil _ _

theorem tag_append (t : Text) :
    tag assetOpening '\x7d' (l ++ t) = some (name, (openingTag name).length) := by
  refine tag_eq_some_iff.2 ⟨⟨h.close_notMem, h.name_ne_nil⟩, length_openingTag name,
    inner ++ closingTag name ++ t, ?_⟩
  rw [h.eq_append, List.append_assoc]
  rfl

theorem length_eq :
    l.length = (openingTag name).length + inner.length + (closingTag name).length := by
  rw [h.eq_append, List.length_append, List.length_append, Nat.add_assoc]

theorem opens (s t : Text) : TagAt assetOpening '\x7d' (s ++ (l ++ t)) s.length
    (s.length + (openingTag name).length) name where
  name_ne_nil := h.name_ne_nil
  closing_notMem := h.close_notMem
  stands := by
    rw [List.drop_left, h.eq_append, List.append_assoc (openingTag name)]
    exact List.prefix_append _ _
  stop_eq := rfl

theorem closes (t : Text) : TagAt assetClosing '\x7d' (l ++ t)
    ((openingTag name).length + inner.length) l.length name where
  name_ne_nil := h.name_ne_nil
  closing_notMem := h.close_notMem
  stands := by
    rw [h.eq_append, List.append_assoc (openingTag name), List.append_assoc inner,
      ← List.drop_drop, List.drop_left, List.drop_left]
    exact List.prefix_append _ _
  stop_eq := h.length_eq

/-- Before its end, no closing tag stands in a section. -/
theorem not_closes {k : Nat} (t : Text) (hk : k < inner.length) :
    ¬ closingTag name <+: (l ++ t).drop ((openingTag name).length + k) := by
  intro hstarts
  refine h.first k hk ?_
  rw [h.eq_append, List.append_assoc, ← List.drop_drop, List.drop_left,
    List.drop_append_of_le_length (by rw [List.length_append]; omega)] at hstarts
  refine List.prefix_of_prefix_length_le hstarts (List.prefix_append _ _) ?_
  rw [List.length_drop, List.length_append]
  omega

/-- A section is found wherever it stands. -/
theorem assetSection_append (t : Text) :
    assetSection (l ++ t) = some ((name, inner), l.length) := by
  refine assetSection_eq_some_iff.2 ⟨_, h.tag_append t, before?_eq_some_iff.2 ⟨⟨t, ?_⟩, ?_⟩,
    h.length_eq⟩
  · rw [h.eq_append, List.append_assoc, List.drop_left]
  · intro k hk hstarts
    rw [List.drop_drop] at hstarts
    exact h.not_closes t hk hstarts

/-- A section starts in a text that is not empty with a brace. -/
theorem exists_cons_of_starts {y z q : Text} (hz : z ≠ []) (hocc : z ++ y = l ++ q) :
    ∃ s, z = '\x7b' :: s := by
  obtain ⟨x, z, rfl⟩ := List.exists_cons_of_ne_nil hz
  obtain ⟨r, rfl⟩ := h.exists_cons
  obtain ⟨rfl, -⟩ := List.cons.inj hocc
  exact ⟨z, rfl⟩

/-- A section that starts behind the start of a tag starts behind the whole tag. -/
theorem tag_of_starts {w y z q name' : Text} {size : Nat}
    (htag : tag assetOpening '\x7d' (w ++ (z ++ y)) = some (name', size)) (hocc : z ++ y = l ++ q)
    (hname : '\x7b' ∉ name') (hw : w ≠ []) :
    tag assetOpening '\x7d' w = some (name', size) := by
  obtain ⟨r, rfl⟩ := h.exists_cons
  rw [hocc] at htag
  exact tag_of_braces htag hname hw

/-- No occurrence of the literal of a section reaches into another one. -/
theorem unbordered : Text.Unbordered l := by
  intro s a b hocc
  by_contra hcon
  obtain ⟨hs, hlt⟩ : s ≠ [] ∧ s.length < l.length := by simpa using hcon
  have hpos := List.length_pos_iff.2 hs
  have hopening := length_openingTag name
  have hclosing := length_closingTag name
  have hlength := h.length_eq
  have hopen : '\x7d' ∉ assetOpening := by decide
  have hclose : '\x7d' ∉ assetClosing := by decide
  -- the end of the first occurrence and the start of the second one
  have hend := h.closes a
  have hstart := h.opens s b
  rw [← hocc] at hstart
  rcases Nat.lt_or_ge ((openingTag name).length + inner.length) s.length with hin | hbehind
  · -- the opening tag would start inside the closing one, at its second character
    have hstop := hstart.stop_eq_of_overlap hopen hclose hend hin.le hlt
    have hopens := hstart.getElem?_eq (i := 1) (by omega)
    have hcloses := hend.getElem?_eq (i := 2) (by omega)
    have hplace : s.length + 1 = (openingTag name).length + inner.length + 2 := by omega
    rw [hplace, hcloses] at hopens
    exact absurd hopens (by simp [assetOpening, assetClosing, variableOpening, assetCloseStart])
  · rcases Nat.lt_or_ge ((openingTag name).length + inner.length)
      (s.length + (openingTag name).length) with hin | hout
    · -- the closing tag would start inside the opening one
      have hstop := hend.stop_eq_of_overlap hclose hopen hstart hbehind hin
      omega
    · -- the second occurrence would hold the closing tag of the first one
      obtain ⟨k, hk⟩ := Nat.exists_eq_add_of_le hout
      refine h.not_closes (k := k) b (by omega) ?_
      have hstands := hend.stands
      rw [hocc, hk, Nat.add_assoc, ← List.drop_drop, List.drop_left] at hstands
      exact hstands

end IsSection

end IsSection

/-- The literal of an asset section of a text is a section as a whole. -/
theorem isSection_of_mem_findAssetBlocks {t : Text} {b : AssetBlock}
    (hb : b ∈ findAssetBlocks t) :
    ∃ name inner, IsSection name inner b.raw ∧ b.name = name.trim := by
  obtain ⟨⟨start, stop, name, inner⟩, hf, rfl⟩ := List.mem_map.1 hb
  obtain ⟨k, size, -, hstart, hstop, hfind⟩ := Text.find_of_mem_scanFrom hf
  obtain ⟨-, hle⟩ := fits_assetSection hfind
  rw [Nat.zero_add] at hstart
  obtain rfl : start = k := hstart
  obtain rfl : stop = start + size := hstop
  have hraw : t.slice start (start + size) = (t.drop start).take size := by
    rw [Text.slice, Nat.add_sub_cancel_left]
  refine ⟨name, inner, isSection_of_assetSection (t := (t.drop start).drop size) ?_, rfl⟩
  show assetSection (t.slice start (start + size) ++ _) =
    some ((name, inner), (t.slice start (start + size)).length)
  rw [hraw, List.take_append_drop, List.length_take_of_le hle, hfind]

end DocTemplate
