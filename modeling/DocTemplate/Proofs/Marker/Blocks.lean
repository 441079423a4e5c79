import DocTemplate.Proofs.Marker.Tokens
import Mathlib.Data.List.Sort

/-!
# Balanced asset sections

The asset sections of a text are its leftmost balanced blocks, and nothing else is
(`balancedBlocks_iff`): each runs from an opening tag to the first closing tag of the same name, and
an opening tag that stands outside of them has no closing tag at all behind it. The second part is
what makes the blocks the leftmost ones, and it leaves no choice. Two lists of such blocks hold the
same blocks, because the first block that only one of them holds would start at an opening tag
outside of the other one (`mem_of_balancedBlocks`).
-/

namespace DocTemplate

/-- From `start` on, a mark stands in a text at `k` first. -/
structure FirstAt (mark t : Text) (start k : Nat) : Prop where
  le : start ≤ k
  stands : mark <+: t.drop k
  first : ∀ i, start ≤ i → i < k → ¬ mark <+: t.drop i

/-- A block of a text runs from the opening tag of `name`, which ends at `inner`, to the first
closing tag of that name, which starts at `close`. It keeps the name and what stands between the
tags, both trimmed. -/
structure AssetBlock.IsBalanced (t name : Text) (inner close : Nat) (b : AssetBlock) : Prop where
  opens : TagAt assetOpening '\x7d' t b.start inner name
  closes : FirstAt (closingTag name) t inner close
  stop_eq : b.stop = close + (closingTag name).length
  name_eq : b.name = name.trim
  template_eq : b.template = (t.slice inner close).trim
  raw_eq : b.raw = t.slice b.start b.stop

/-- Blocks of a text that follow each other, are balanced, and leave no opening tag outside of them
that has a closing tag behind it. -/
structure BalancedBlocks (t : Text) (blocks : List AssetBlock) : Prop where
  disjoint : blocks.Pairwise fun a b => a.stop ≤ b.start
  balanced : ∀ b ∈ blocks, ∃ name inner close, b.IsBalanced t name inner close
  unclosed : ∀ p inner name, TagAt assetOpening '\x7d' t p inner name →
    (∀ b ∈ blocks, p < b.start ∨ b.stop ≤ p) →
      ∀ k, inner ≤ k → ¬ closingTag name <+: t.drop k

/-! ## Balanced blocks -/

section Balanced

variable {t name name' : Text} {inner inner' close close' : Nat} {b b' : AssetBlock}

theorem FirstAt.eq {mark : Text} {start k k' : Nat} (h : FirstAt mark t start k)
    (h' : FirstAt mark t start k') : k = k' := by
  rcases Nat.lt_trichotomy k k' with hlt | heq | hlt
  · exact absurd h.stands (h'.first k h.le hlt)
  · exact heq
  · exact absurd h'.stands (h.first k' h'.le hlt)

theorem AssetBlock.IsBalanced.start_lt_stop (h : b.IsBalanced t name inner close) :
    b.start < b.stop := by
  have := h.opens.bounds
  have := h.closes.le
  have := h.stop_eq
  omega

/-- A balanced block is known from where it starts. -/
theorem AssetBlock.IsBalanced.eq_of_start_eq (h : b.IsBalanced t name inner close)
    (h' : b'.IsBalanced t name' inner' close') (hstart : b.start = b'.start) : b = b' := by
  have hopens := h.opens
  rw [hstart] at hopens
  obtain ⟨rfl, rfl⟩ := hopens.eq_of_start_eq h'.opens
  obtain rfl := h.closes.eq h'.closes
  have hstop : b.stop = b'.stop := h.stop_eq.trans h'.stop_eq.symm
  have hname : b.name = b'.name := h.name_eq.trans h'.name_eq.symm
  have htemplate : b.template = b'.template := h.template_eq.trans h'.template_eq.symm
  have hraw : b.raw = b'.raw := by
    rw [h.raw_eq, h'.raw_eq, hstart, hstop]
  cases b
  cases b'
  simp_all

end Balanced

/-! ## What the search finds -/

theorem firstAt_of_before? {mark t inner : Text} {start : Nat}
    (h : before? mark (t.drop start) = some inner) :
    FirstAt mark t start (start + inner.length) ∧
      t.slice start (start + inner.length) = inner := by
  obtain ⟨⟨rest, hrest⟩, hfirst⟩ := before?_eq_some_iff.1 h
  refine ⟨⟨Nat.le_add_right _ _, ⟨rest, ?_⟩, fun i hle hlt => ?_⟩, ?_⟩
  · rw [← List.drop_drop, hrest, List.append_assoc, List.drop_left]
  · obtain ⟨k, rfl⟩ := Nat.exists_eq_add_of_le hle
    rw [← List.drop_drop]
    exact hfirst k (by omega)
  · rw [Text.slice, hrest, Nat.add_sub_cancel_left, List.append_assoc, List.take_left]

theorem isBalanced_of_mem_findAssetBlocks {t : Text} {b : AssetBlock}
    (h : b ∈ findAssetBlocks t) : ∃ name inner close, b.IsBalanced t name inner close := by
  obtain ⟨⟨start, stop, name, template⟩, hf, rfl⟩ := List.mem_map.1 h
  obtain ⟨k, size, -, hstart, hstop, hfind⟩ := Text.find_of_mem_scanFrom hf
  obtain ⟨openSize, htag, hinner, rfl⟩ := assetSection_eq_some_iff.1 hfind
  rw [Nat.zero_add] at hstart
  obtain rfl : start = k := hstart
  rw [List.drop_drop] at hinner
  obtain ⟨hcloses, hslice⟩ := firstAt_of_before? hinner
  exact ⟨name, start + openSize, start + openSize + template.length, {
    opens := tagAt_iff.2 ⟨openSize, htag, rfl⟩
    closes := hcloses
    stop_eq := hstop.trans (by
      show start + (openSize + template.length + (closingTag name).length) = _
      omega)
    name_eq := rfl
    template_eq := congrArg Text.trim hslice.symm
    raw_eq := rfl }⟩

/-- An opening tag with a closing tag of its name somewhere behind it stands in one of the blocks
that are found. -/
theorem exists_mem_findAssetBlocks {t name : Text} {p inner k : Nat}
    (hopens : TagAt assetOpening '\x7d' t p inner name) (hk : inner ≤ k)
    (hcloses : closingTag name <+: t.drop k) :
    ∃ b ∈ findAssetBlocks t, b.start ≤ p ∧ p < b.stop := by
  obtain ⟨openSize, htag, rfl⟩ := tagAt_iff.1 hopens
  have hsome : (assetSection (t.drop p)).isSome = true := by
    cases hbefore : before? (closingTag name) ((t.drop p).drop openSize) with
    | none =>
      refine absurd hcloses ?_
      have := before?_eq_none_iff.1 hbefore (k - (p + openSize))
      rwa [List.drop_drop, List.drop_drop, ← Nat.add_assoc, Nat.add_sub_cancel' hk] at this
    | some template =>
      rw [assetSection_eq_some_iff.2 ⟨openSize, htag, hbefore, rfl⟩]
      rfl
  have hlt : p < t.length := by
    have := hopens.bounds
    omega
  obtain ⟨f, hf, h1, h2⟩ :=
    Text.exists_mem_scanFrom fits_assetSection 0 (Nat.zero_le p) hlt hsome
  rw [Nat.zero_add] at h1 h2
  exact ⟨_, List.mem_map_of_mem hf, h1, h2⟩

theorem balancedBlocks_findAssetBlocks (t : Text) : BalancedBlocks t (findAssetBlocks t) where
  disjoint := pairwise_findAssetBlocks t
  balanced _ hb := isBalanced_of_mem_findAssetBlocks hb
  unclosed p inner name hopens houtside k hk hcloses := by
    obtain ⟨b, hb, h1, h2⟩ := exists_mem_findAssetBlocks hopens hk hcloses
    rcases houtside b hb with h | h <;> omega

/-! ## There is one such list -/

section Unique

variable {t : Text} {blocks others : List AssetBlock}

theorem BalancedBlocks.pairwise_start_lt (h : BalancedBlocks t blocks) :
    blocks.Pairwise fun a b => a.start < b.start := by
  refine h.disjoint.imp_of_mem fun {a b} ha _ hab => ?_
  obtain ⟨name, inner, close, hbal⟩ := h.balanced a ha
  have := hbal.start_lt_stop
  omega

/-- A block that one list holds is one of every other one. The induction is on where the block
starts: a block of the other list around its start would start earlier, hence be one of the first
list, in which blocks do not overlap. -/
theorem mem_of_balancedBlocks {b : AssetBlock} (h : BalancedBlocks t blocks)
    (h' : BalancedBlocks t others) (hb : b ∈ blocks) : b ∈ others := by
  induction hn : b.start using Nat.strong_induction_on generalizing b blocks others with
  | _ n ih =>
    obtain ⟨name, inner, close, hbal⟩ := h.balanced b hb
    by_contra hnot
    refine h'.unclosed b.start inner name hbal.opens (fun b' hb' => ?_) close hbal.closes.le
      hbal.closes.stands
    by_contra hin
    obtain ⟨name', inner', close', hbal'⟩ := h'.balanced b' hb'
    rcases Nat.lt_or_ge b'.start b.start with hlt | hge
    · have hmem : b' ∈ blocks := ih b'.start (by omega) h' h hb' rfl
      have heq : b' = b := Text.eq_of_overlap h.disjoint hmem hb (by omega)
        ⟨Nat.le_refl _, hbal.start_lt_stop⟩
      exact Nat.lt_irrefl b.start (heq ▸ hlt)
    · have hstart : b.start = b'.start := by omega
      exact hnot (hbal.eq_of_start_eq hbal' hstart ▸ hb')

/-- **The asset sections of a text are its leftmost balanced blocks**: they follow each other, each
of them runs from an opening tag to the first closing tag of the same name, and no opening tag
outside of them has a closing tag behind it. No other list of blocks is like that. -/
theorem balancedBlocks_iff : BalancedBlocks t blocks ↔ blocks = findAssetBlocks t := by
  constructor
  · intro h
    have hfound := balancedBlocks_findAssetBlocks t
    have : Std.Irrefl fun a b : AssetBlock => a.start < b.start := ⟨fun a => Nat.lt_irrefl a.start⟩
    have : Std.Antisymm fun a b : AssetBlock => a.start < b.start :=
      ⟨fun a b hab hba => absurd hab (Nat.lt_asymm hba)⟩
    exact h.pairwise_start_lt.eq_of_mem_iff hfound.pairwise_start_lt fun b =>
      ⟨mem_of_balancedBlocks h hfound, mem_of_balancedBlocks hfound h⟩
  · rintro rfl
    exact balancedBlocks_findAssetBlocks t

end Unique

end DocTemplate
