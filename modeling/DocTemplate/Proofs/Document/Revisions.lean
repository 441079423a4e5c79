import DocTemplate.Proofs.Document.Places

/-!
# Texts of other revisions

Anchors are looked up in a text that is passed along, which has to be of the revision of the
snapshot: an anchor that is found stands where a character of this text stands, and no anchor is
found in a text of another revision (`Snapshot.ChecksText`).

An empty text counts as none, and the text of the snapshot takes its place before any revision is
compared. So a text is checked if and only if it is not empty, unless nothing can be found in the
text of the snapshot either (`checksText_iff`).
-/

namespace DocTemplate

/-! ## What is looked up -/

/-- A computation stops because positions belong to another revision, or to none. -/
def IsStale {α : Type} (x : Except EngineError α) : Prop :=
  ∃ expected received index, x = .error (.staleSnapshot expected received index)

/-- The anchor stands where the character at an offset of the text stands. -/
def LinearText.StandsAt (t : LinearText) (offset : Int) (a : Anchor) : Prop :=
  ∃ o, t.origin? offset = some o ∧ a.index = o.index

/-- The anchor stands behind the character at an offset of the text. -/
def LinearText.EndsAt (t : LinearText) (offset : Int) (a : Anchor) : Prop :=
  ∃ o c, t.origin? offset = some o ∧ t.text[offset.toNat]? = some c ∧
    a.index = o.index + charUnits c

/-- The snapshot treats the text as positions of its own revision, or refuses it. -/
structure Snapshot.ChecksText (s : Snapshot) (t : LinearText) : Prop where
  /-- In a text of another revision no offset has an anchor. -/
  anchor_stale : t.revision.same s.revision = false →
    ∀ offset, IsStale (s.anchor offset (some t))
  /-- In a text of another revision no span has a range. -/
  range_stale : t.revision.same s.revision = false →
    ∀ start stop, IsStale (s.range start stop (some t))
  /-- The anchor of an offset is read off the origin of the character there. -/
  anchor_read : ∀ offset a, s.anchor offset (some t) = .ok a →
    t.StandsAt offset.value a ∧ a.revision.same s.revision = true
  /-- The range of a span goes from its first character to behind its last one. If it has none, it
  stands where the character at its start does. -/
  range_read : ∀ start stop a z, s.range start stop (some t) = .ok (a, z) →
    t.StandsAt start.value a ∧
      (if stop.value ≤ start.value then z = a else t.EndsAt (stop.value - 1) z) ∧
      a.revision.same s.revision = true ∧ z.revision.same s.revision = true

theorem IsStale.bind {α β : Type} {x : Except EngineError α} (h : IsStale x)
    (f : α → Except EngineError β) : IsStale (x >>= f) := by
  obtain ⟨expected, received, index, rfl⟩ := h
  exact ⟨expected, received, index, rfl⟩

theorem IsStale.ne_ok {α : Type} {x : Except EngineError α} (h : IsStale x) (a : α) :
    x ≠ .ok a := by
  obtain ⟨expected, received, index, rfl⟩ := h
  exact fun h => absurd h (by simp)

namespace LinearText

variable {t : LinearText}

theorem lt_length_of_origin? {offset : Int} {o : Origin} (h : t.origin? offset = some o) :
    0 ≤ offset ∧ offset.toNat < t.text.length := by
  unfold origin? at h
  split at h
  · next hcond =>
    rw [Bool.and_eq_true, decide_eq_true_eq] at hcond
    obtain ⟨horigins, hpos⟩ := hcond
    simp only [hasOrigins, Bool.and_eq_true, beq_iff_eq] at horigins
    obtain ⟨hlt, -⟩ := List.getElem?_eq_some_iff.1 h
    exact ⟨hpos, horigins.1 ▸ hlt⟩
  · exact absurd h (by simp)

theorem anchor_eq_ok_iff {offset : Number} {a : Anchor} :
    t.anchor offset = .ok a ↔ ∃ o, t.origin? offset.value = some o ∧ a = ⟨o.index, t.revision⟩ := by
  unfold anchor
  cases t.origin? offset.value with
  | none => simp
  | some o => simp [eq_comm]

theorem isStale_anchor (h : t.hasOrigins = false) (offset : Number) :
    IsStale (t.anchor offset) := by
  have hnone : t.origin? offset.value = none := by
    rw [origin?, h, Bool.false_and, if_neg Bool.false_ne_true]
  exact ⟨_, _, _, by rw [anchor, hnone]⟩

theorem exists_anchor_zero (h : t.hasOrigins = true) : ∃ a, t.anchor (.int 0) = .ok a := by
  obtain ⟨hlength, hne⟩ := Bool.and_eq_true_iff.1 h
  have hpos : 0 < t.origins.length := by
    rw [beq_iff_eq.1 hlength]
    exact List.length_pos_iff.2 (by simpa using hne)
  refine ⟨_, anchor_eq_ok_iff.2 ⟨t.origins[0], ?_, rfl⟩⟩
  rw [origin?, h]
  exact List.getElem?_eq_getElem hpos

theorem standsAt_of_anchor {offset : Number} {a : Anchor} (h : t.anchor offset = .ok a) :
    t.StandsAt offset.value a ∧ a.revision = t.revision := by
  obtain ⟨o, ho, rfl⟩ := anchor_eq_ok_iff.1 h
  exact ⟨⟨o, ho, rfl⟩, rfl⟩

theorem endsAt_of_range {start stop : Number} {a z : Anchor} (h : t.range start stop = .ok (a, z)) :
    t.StandsAt start.value a ∧
      (if stop.value ≤ start.value then z = a else t.EndsAt (stop.value - 1) z) ∧
      a.revision = t.revision ∧ z.revision = t.revision := by
  obtain ⟨first, hfirst, h⟩ := bind_eq_ok_iff.1 h
  obtain ⟨hstands, hrevision⟩ := standsAt_of_anchor hfirst
  split at h
  · next hle =>
    obtain ⟨rfl, rfl⟩ := Prod.mk.inj (pure_eq_ok_iff.1 h)
    refine ⟨hstands, ?_, hrevision, hrevision⟩
    rw [if_pos hle]
  · next hlt =>
    obtain ⟨last, hlast, h⟩ := bind_eq_ok_iff.1 h
    obtain ⟨rfl, rfl⟩ := Prod.mk.inj (pure_eq_ok_iff.1 h)
    obtain ⟨o, ho, rfl⟩ := anchor_eq_ok_iff.1 hlast
    rw [Number.value_int] at ho
    obtain ⟨hpos, hinside⟩ := lt_length_of_origin? ho
    have hchar := List.getElem?_eq_getElem hinside
    refine ⟨hstands, ?_, hrevision, rfl⟩
    rw [if_neg hlt]
    have hnext : stop.value.toNat = (stop.value - 1).toNat + 1 := by omega
    refine ⟨o, _, ho, hchar, ?_⟩
    rw [Anchor.shifted, hnext, units_slice_self hchar]

end LinearText

/-! ## When a text is checked -/

section Checks

variable {s : Snapshot} {t : LinearText}

theorem Snapshot.source_of_ne_nil (h : t.text ≠ []) : s.source (some t) = t := by
  simp [Snapshot.source, h]

theorem Snapshot.source_of_eq_nil (h : t.text = []) : s.source (some t) = s.linear := by
  simp [Snapshot.source, h]

theorem checkRevision_eq_ok_iff {offset : Json} :
    s.checkRevision t offset = .ok () ↔ t.revision.same s.revision = true := by
  unfold Snapshot.checkRevision
  split <;> simp_all

theorem isStale_checkRevision (h : t.revision.same s.revision = false) (offset : Json) :
    IsStale (s.checkRevision t offset) := by
  rw [Snapshot.checkRevision, h, if_neg Bool.false_ne_true]
  exact ⟨_, _, _, rfl⟩

theorem checksText_of_ne_nil (h : t.text ≠ []) : s.ChecksText t where
  anchor_stale := by
    intro hdiffers offset
    rw [Snapshot.anchor, Snapshot.source_of_ne_nil h]
    exact (isStale_checkRevision hdiffers _).bind _
  range_stale := by
    intro hdiffers start stop
    rw [Snapshot.range, Snapshot.source_of_ne_nil h]
    exact (isStale_checkRevision hdiffers _).bind _
  anchor_read := by
    intro offset a ha
    rw [Snapshot.anchor, Snapshot.source_of_ne_nil h] at ha
    obtain ⟨⟨⟩, hcheck, ha⟩ := bind_eq_ok_iff.1 ha
    obtain ⟨hstands, hrevision⟩ := LinearText.standsAt_of_anchor ha
    exact ⟨hstands, hrevision ▸ checkRevision_eq_ok_iff.1 hcheck⟩
  range_read := by
    intro start stop a z hrange
    rw [Snapshot.range, Snapshot.source_of_ne_nil h] at hrange
    obtain ⟨⟨⟩, hcheck, hrange⟩ := bind_eq_ok_iff.1 hrange
    obtain ⟨hstands, hends, ha, hz⟩ := LinearText.endsAt_of_range hrange
    have hsame := checkRevision_eq_ok_iff.1 hcheck
    exact ⟨hstands, hends, ha ▸ hsame, hz ▸ hsame⟩

/-- Where no anchor is ever found, none is found in the wrong text. -/
theorem checksText_of_stale (hanchor : ∀ offset, IsStale (s.anchor offset (some t)))
    (hrange : ∀ start stop, IsStale (s.range start stop (some t))) : s.ChecksText t where
  anchor_stale := fun _ => hanchor
  range_stale := fun _ => hrange
  anchor_read := fun offset a h => absurd h ((hanchor offset).ne_ok a)
  range_read := fun start stop a z h => absurd h ((hrange start stop).ne_ok (a, z))

theorem checksText_of_unreadable (h : t.text = [])
    (hown : s.linear.hasOrigins = false ∨ s.linear.revision.same s.revision = false) :
    s.ChecksText t := by
  have hstale : ∀ offset, IsStale (s.checkRevision s.linear (Number.toJson offset) >>= fun _ =>
      s.linear.anchor offset) := by
    intro offset
    by_cases hsame : s.linear.revision.same s.revision = true
    · have hnone : s.linear.hasOrigins = false := hown.resolve_right (by simp [hsame])
      rw [checkRevision_eq_ok_iff.2 hsame]
      exact LinearText.isStale_anchor hnone offset
    · exact (isStale_checkRevision (Bool.eq_false_iff.2 hsame) _).bind _
  refine checksText_of_stale (fun offset => ?_) fun start stop => ?_
  · rw [Snapshot.anchor, Snapshot.source_of_eq_nil h]
    exact hstale offset
  · rw [Snapshot.range, Snapshot.source_of_eq_nil h]
    have hfirst := (hstale start).bind fun first => do
      if stop.value ≤ start.value then return (first, first)
      let last ← s.linear.anchor (.int (stop.value - 1))
      return (first, last.shifted
        (Text.units (s.linear.text.slice (stop.value - 1).toNat stop.value.toNat)))
    rwa [bind_assoc] at hfirst

/-- **A text that is passed along is checked** exactly if it is not empty or no anchor can be found
in the text of the snapshot: positions of another revision are refused, and all that is found is
read off the origins of this text. -/
theorem checksText_iff (s : Snapshot) (t : LinearText) :
    s.ChecksText t ↔ t.text ≠ [] ∨ s.linear.hasOrigins = false ∨
      s.linear.revision.same s.revision = false := by
  constructor
  · intro hchecks
    by_contra hnot
    simp only [not_or, not_not, Bool.not_eq_false] at hnot
    obtain ⟨hempty, horigins, hsame⟩ := hnot
    obtain ⟨a, ha⟩ := LinearText.exists_anchor_zero horigins
    have hanchor : s.anchor (.int 0) (some t) = .ok a := by
      rw [Snapshot.anchor, Snapshot.source_of_eq_nil hempty]
      exact bind_eq_ok_iff.2 ⟨(), checkRevision_eq_ok_iff.2 hsame, ha⟩
    obtain ⟨⟨o, ho, -⟩, -⟩ := hchecks.anchor_read _ _ hanchor
    have hlt := (LinearText.lt_length_of_origin? ho).2
    rw [hempty] at hlt
    exact absurd hlt (Nat.not_lt_zero _)
  · rintro (hne | hown)
    · exact checksText_of_ne_nil hne
    · by_cases hempty : t.text = []
      · exact checksText_of_unreadable hempty hown
      · exact checksText_of_ne_nil hempty

/-- A snapshot of a document of one line, at a later revision. -/
def laterSnapshot : Snapshot :=
  let body : Body :=
    ⟨[.paragraph ⟨.int 1, .int 4, [.run ⟨.int 1, .int 4, ['H', 'i', '\n'], .obj []⟩], .obj []⟩]⟩
  { documentId := .str "doc", revision := .str "rev-2", title := .str "T", body := body
    linear := body.linear (.str "rev-2") }

/-- The empty text of an earlier revision is not refused. -/
theorem not_checksText_emptied : ¬ laterSnapshot.ChecksText ⟨[], [], .str "rev-1"⟩ := by
  intro h
  have hdiffers : (Json.str "rev-1").same laterSnapshot.revision = false := by decide
  have hfound : laterSnapshot.anchor (.int 0) (some ⟨[], [], .str "rev-1"⟩) =
      .ok ⟨1, .str "rev-2"⟩ := rfl
  exact (h.anchor_stale hdiffers (.int 0)).ne_ok _ hfound

end Checks

end DocTemplate
