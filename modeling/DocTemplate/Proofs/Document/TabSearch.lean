import DocTemplate.Proofs.Document.WellTyped
import Mathlib

/-!
# The search for a tab

A tab has a path: the positions of the tabs around it, from the outermost one inwards, and its own.
The lexicographic order of paths is the order of the search, a tab before the tabs inside it, and
those before its next sibling. So the tab that is found is the one with the id whose path is the
least (`FirstTab`).

A search among tabs comes to what the one inside the first of them finds, or else the one among its
siblings (`Finds.cons_of_ne`). Finding a tab is told from finding none by its path and not by its
body, which can be empty. In a well-typed document, that settles for every id which body is selected
(`selectBody_wellTyped`), and the body is well-typed again (`IsDocument.exists_selectBody`).
-/

namespace DocTemplate

namespace Json

/-! ## What is read off a tab -/

/-- The body that a record holds; an empty one if it has none. -/
def heldBody (j : Json) : Json :=
  j.getOr "body" (.obj [])

/-- The body of a tab; an empty one if it has none. -/
def bodyOfTab (tab : Json) : Json :=
  (tab.getOr "documentTab" (.obj [])).heldBody

/-- The id of a tab; null if it has none. -/
def idOfTab (tab : Json) : Json :=
  (tab.getOr "tabProperties" (.obj [])).getOr "tabId" .null

theorem HoldsBody.fieldD_body {j : Json} (h : j.HoldsBody) :
    j.fieldD "body" (.obj []) = .ok j.heldBody :=
  h.record.fieldD_eq _ _

theorem HoldsBody.isBody_heldBody {j : Json} (h : j.HoldsBody) : j.heldBody.IsBody :=
  h.body.getOr isBody_empty

theorem presentBody_of_isBody {body : Json} (h : body.IsBody) : presentBody body = some body := by
  obtain ⟨fields, rfl⟩ := h.record
  rfl

section Tab

variable {tab : Json} (h : tab.HasTabFields)
include h

theorem HasTabFields.holdsBody : (tab.getOr "documentTab" (.obj [])).HoldsBody :=
  h.document.getOr ⟨isRecord_obj [], by simp⟩

theorem HasTabFields.isBody_bodyOfTab : tab.bodyOfTab.IsBody :=
  h.holdsBody.isBody_heldBody

theorem HasTabFields.tabBody_eq : tabBody tab = .ok tab.bodyOfTab :=
  bind_eq_ok_iff.2 ⟨_, h.record.fieldD_eq _ _, h.holdsBody.fieldD_body⟩

theorem HasTabFields.hasTabId_eq (id : Json) : hasTabId id tab = .ok (tab.idOfTab.same id) := by
  have hproperties := h.properties.getOr (isRecord_obj [])
  simp only [hasTabId, bind_eq_ok_iff, pure_eq_ok_iff]
  exact ⟨_, h.record.fieldD_eq _ _, _, hproperties.fieldD_eq _ _, rfl⟩

/-! ## One step of the search -/

/-- A tab with the id ends the search. -/
theorem HasTabFields.findTab_of_eq {id : Json} (hid : tab.idOfTab.same id = true)
    (rest : List Json) : findTab id (tab :: rest) = .ok (some tab.bodyOfTab) := by
  rw [findTab]
  refine bind_eq_ok_iff.2 ⟨true, (h.hasTabId_eq id).trans (congrArg _ hid), ?_⟩
  refine bind_eq_ok_iff.2 ⟨_, h.tabBody_eq, ?_⟩
  rw [presentBody_of_isBody h.isBody_bodyOfTab]
  rfl

/-- Any other tab is searched before its siblings. -/
theorem HasTabFields.findTab_of_ne {id : Json} (hid : tab.idOfTab.same id = false)
    {rest : List Json} {inside later : Option Json}
    (hinside : findTab id (tab.itemsAt "childTabs") = .ok inside)
    (hlater : findTab id rest = .ok later) :
    findTab id (tab :: rest) = .ok (inside.or later) := by
  rw [findTab]
  refine bind_eq_ok_iff.2 ⟨false, (h.hasTabId_eq id).trans (congrArg _ hid), ?_⟩
  simp only [Bool.false_eq_true, if_false]
  split
  · next hfault => exact absurd hfault (h.record.recordsAt_ne_error h.listed _)
  · next children hchildren =>
    obtain rfl := recordsAt_eq_ok hchildren
    refine bind_eq_ok_iff.2 ⟨inside, hinside, ?_⟩
    cases inside with
    | none => exact hlater
    | some body => rfl

end Tab

end Json

/-! ## Paths of tabs -/

/-- A tab stands at a path among tabs and the tabs inside them. -/
inductive TabAt : List Json → List Nat → Json → Prop
  | here {tabs : List Json} {k : Nat} {tab : Json} :
      tabs[k]? = some tab → TabAt tabs [k] tab
  | inside {tabs : List Json} {k : Nat} {outer tab : Json} {path : List Nat} :
      tabs[k]? = some outer → TabAt (outer.itemsAt "childTabs") path tab →
      TabAt tabs (k :: path) tab

/-- None of the tabs has the id. -/
def LacksTab (id : Json) (tabs : List Json) : Prop :=
  ∀ path tab, TabAt tabs path tab → tab.idOfTab.same id = false

/-- The first of the tabs with an id: none of them stands at a lesser path. -/
structure FirstTab (id : Json) (tabs : List Json) (path : List Nat) (tab : Json) : Prop where
  stands : TabAt tabs path tab
  hasId : tab.idOfTab.same id = true
  least : ∀ path' other, path' < path → TabAt tabs path' other → other.idOfTab.same id = false

theorem not_tabAt_nil (path : List Nat) (tab : Json) : ¬ TabAt [] path tab := by
  rintro (h | ⟨h, -⟩) <;> exact absurd h (by simp)

theorem tabAt_cons_iff {first tab : Json} {rest : List Json} {path : List Nat} :
    TabAt (first :: rest) path tab ↔ (path = [0] ∧ tab = first) ∨
      (∃ inner, path = 0 :: inner ∧ TabAt (first.itemsAt "childTabs") inner tab) ∨
      ∃ k inner, path = (k + 1) :: inner ∧ TabAt rest (k :: inner) tab := by
  constructor
  · rintro (@⟨_, k, _, h⟩ | @⟨_, k, outer, _, inner, h, hinside⟩)
    · cases k with
      | zero => exact .inl ⟨rfl, (Option.some.inj h).symm⟩
      | succ k => exact .inr (.inr ⟨k, [], rfl, .here h⟩)
    · cases k with
      | zero =>
        obtain rfl := Option.some.inj h
        exact .inr (.inl ⟨inner, rfl, hinside⟩)
      | succ k => exact .inr (.inr ⟨k, inner, rfl, .inside h hinside⟩)
  · rintro (⟨rfl, rfl⟩ | ⟨inner, rfl, hinside⟩ | ⟨k, inner, rfl, hlater⟩)
    · exact .here rfl
    · exact .inside rfl hinside
    · cases hlater with
      | here h => exact .here h
      | inside h hinside => exact .inside h hinside

/-- One path leads to one tab. -/
theorem TabAt.unique {tabs : List Json} {path : List Nat} {tab other : Json}
    (h : TabAt tabs path tab) (hother : TabAt tabs path other) : tab = other := by
  induction h with
  | here h =>
    cases hother with
    | here h' => exact Option.some.inj (h.symm.trans h')
    | inside _ hinside => cases hinside
  | inside h hinside ih =>
    cases hother with
    | here _ => cases hinside
    | inside h' hinside' =>
      obtain rfl := Option.some.inj (h.symm.trans h')
      exact ih hinside'

theorem lacksTab_nil (id : Json) : LacksTab id [] :=
  fun path tab h => absurd h (not_tabAt_nil path tab)

theorem FirstTab.not_lacksTab {id : Json} {tabs : List Json} {path : List Nat} {tab : Json}
    (h : FirstTab id tabs path tab) : ¬ LacksTab id tabs := by
  intro hlacks
  exact absurd h.hasId (by simp [hlacks path tab h.stands])

theorem FirstTab.unique {id : Json} {tabs : List Json} {path path' : List Nat} {tab other : Json}
    (h : FirstTab id tabs path tab) (hother : FirstTab id tabs path' other) : tab = other := by
  rcases lt_trichotomy path path' with hlt | rfl | hgt
  · exact absurd h.hasId (by simp [hother.least path tab hlt h.stands])
  · exact h.stands.unique hother.stands
  · exact absurd hother.hasId (by simp [h.least path' other hgt hother.stands])

/-! ## What the search finds -/

/-- What a search comes to: the body of the first tab with the id, if there is such a tab. -/
inductive Finds (id : Json) (tabs : List Json) : Option Json → Prop
  | found {path : List Nat} {tab : Json} :
      FirstTab id tabs path tab → Finds id tabs (some tab.bodyOfTab)
  | missing : LacksTab id tabs → Finds id tabs none

theorem firstTab_cons_self {id tab : Json} (hid : tab.idOfTab.same id = true)
    (rest : List Json) : FirstTab id (tab :: rest) [0] tab where
  stands := .here rfl
  hasId := hid
  least := by
    intro path' other hlt hstands
    rcases tabAt_cons_iff.1 hstands with ⟨rfl, -⟩ | ⟨inner, rfl, -⟩ | ⟨k, inner, rfl, -⟩
    · exact absurd hlt (lt_irrefl _)
    · exact absurd hlt (by simp)
    · exact absurd hlt (by simp [List.cons_lt_cons_iff])

section Step

variable {id first tab : Json} {rest : List Json} (hid : first.idOfTab.same id = false)
include hid

theorem FirstTab.cons_inside {path : List Nat}
    (h : FirstTab id (first.itemsAt "childTabs") path tab) :
    FirstTab id (first :: rest) (0 :: path) tab where
  stands := .inside rfl h.stands
  hasId := h.hasId
  least := by
    intro path' other hlt hstands
    rcases tabAt_cons_iff.1 hstands with ⟨-, rfl⟩ | ⟨inner, rfl, hinside⟩ | ⟨k, inner, rfl, -⟩
    · exact hid
    · exact h.least inner other (by simpa [List.cons_lt_cons_iff] using hlt) hinside
    · exact absurd hlt (by simp [List.cons_lt_cons_iff])

theorem FirstTab.cons_later {path : List Nat} {k : Nat}
    (hinside : LacksTab id (first.itemsAt "childTabs"))
    (h : FirstTab id rest (k :: path) tab) : FirstTab id (first :: rest) ((k + 1) :: path) tab where
  stands := tabAt_cons_iff.2 (.inr (.inr ⟨k, path, rfl, h.stands⟩))
  hasId := h.hasId
  least := by
    intro path' other hlt hstands
    rcases tabAt_cons_iff.1 hstands with ⟨-, rfl⟩ | ⟨inner, -, hat⟩ | ⟨l, inner, rfl, hat⟩
    · exact hid
    · exact hinside inner other hat
    · exact h.least (l :: inner) other (by simpa [List.cons_lt_cons_iff] using hlt) hat

theorem LacksTab.cons (hinside : LacksTab id (first.itemsAt "childTabs"))
    (hlater : LacksTab id rest) : LacksTab id (first :: rest) := by
  intro path tab hstands
  rcases tabAt_cons_iff.1 hstands with ⟨-, rfl⟩ | ⟨inner, -, hat⟩ | ⟨k, inner, -, hat⟩
  · exact hid
  · exact hinside inner tab hat
  · exact hlater _ tab hat

/-- If the first tab does not have the id, the first one that has it is among the tabs inside it, or
else among its siblings. -/
theorem Finds.cons_of_ne {inside later : Option Json}
    (hinside : Finds id (first.itemsAt "childTabs") inside) (hlater : Finds id rest later) :
    Finds id (first :: rest) (inside.or later) := by
  cases hinside with
  | found h => exact .found (h.cons_inside hid)
  | missing hnone =>
    cases hlater with
    | @found path tab h =>
      -- no tab stands at the empty path, so there is a position to count on from
      cases path with
      | nil => nomatch h.stands
      | cons k path => exact .found (h.cons_later hid hnone)
    | missing hlater => exact .missing (hnone.cons hid hlater)

end Step

/-- A search comes to an end if those among the tabs inside each tab do. -/
theorem exists_findTab_of_children {id : Json} {tabs : List Json}
    (htabs : ∀ tab ∈ tabs, tab.HasTabFields)
    (hchildren : ∀ tab ∈ tabs, ∃ found, findTab id (tab.itemsAt "childTabs") = .ok found ∧
      Finds id (tab.itemsAt "childTabs") found) :
    ∃ found, findTab id tabs = .ok found ∧ Finds id tabs found := by
  induction tabs with
  | nil => exact ⟨none, by rw [findTab], .missing (lacksTab_nil id)⟩
  | cons tab rest ih =>
    obtain ⟨htab, hrest⟩ := List.forall_mem_cons.1 htabs
    obtain ⟨⟨inside, hinside, hfinds⟩, hothers⟩ := List.forall_mem_cons.1 hchildren
    cases hid : tab.idOfTab.same id with
    | true => exact ⟨_, htab.findTab_of_eq hid rest, .found (firstTab_cons_self hid rest)⟩
    | false =>
      obtain ⟨later, hlater, hfindsLater⟩ := ih hrest hothers
      exact ⟨_, htab.findTab_of_ne hid hinside hlater, hfinds.cons_of_ne hid hfindsLater⟩

theorem Json.IsTab.exists_findTab {tab : Json} (h : tab.IsTab) (id : Json) :
    ∃ found, findTab id (tab.itemsAt "childTabs") = .ok found ∧
      Finds id (tab.itemsAt "childTabs") found := by
  induction h with
  | mk _ children ih =>
    exact exists_findTab_of_children (fun tab htab => (children tab htab).fields) ih

theorem Json.IsDocument.exists_findTab {document : Json} (h : document.IsDocument) (id : Json) :
    ∃ found, findTab id (document.itemsAt "tabs") = .ok found ∧
      Finds id (document.itemsAt "tabs") found :=
  exists_findTab_of_children (fun tab htab => (h.tabs tab htab).fields)
    fun tab htab => (h.tabs tab htab).exists_findTab id

/-! ## Selecting a body -/

/-- The document already is a body. -/
def Json.IsBare (document : Json) : Prop :=
  (document.get? "content").isSome ∧ document.get? "body" = none

/-- The body that a document is read from, by the id of the tab that is asked for: a null id asks
for none. -/
inductive PicksBody (document tabId : Json) : Json → Prop
  /-- What already is a body is taken as it is. -/
  | bare : document.IsBare → PicksBody document tabId document
  /-- The first tab with the id. -/
  | asked {path : List Nat} {tab : Json} : ¬ document.IsBare → tabId ≠ .null →
      FirstTab tabId (document.itemsAt "tabs") path tab → PicksBody document tabId tab.bodyOfTab
  /-- The first tab of all, if no tab is asked for or none has the id. -/
  | first {tab : Json} {rest : List Json} : ¬ document.IsBare →
      document.itemsAt "tabs" = tab :: rest →
      (tabId ≠ .null → LacksTab tabId (document.itemsAt "tabs")) →
      PicksBody document tabId tab.bodyOfTab
  /-- The body at the root of a document without tabs. -/
  | root : ¬ document.IsBare → document.itemsAt "tabs" = [] →
      PicksBody document tabId document.heldBody

theorem PicksBody.unique {document tabId body other : Json} (h : PicksBody document tabId body)
    (hother : PicksBody document tabId other) : body = other := by
  cases h with
  | bare hbare =>
    cases hother with
    | bare => rfl
    | _ => contradiction
  | asked hbare hgiven hfirst =>
    cases hother with
    | bare => contradiction
    | asked _ _ hfirst' => rw [hfirst.unique hfirst']
    | first _ _ hnone => exact absurd (hnone hgiven) hfirst.not_lacksTab
    | root _ htabs => exact absurd (htabs ▸ lacksTab_nil tabId) hfirst.not_lacksTab
  | first hbare htabs hnone =>
    cases hother with
    | bare => contradiction
    | asked _ hgiven hfirst => exact absurd (hnone hgiven) hfirst.not_lacksTab
    | first _ htabs' _ => rw [(List.cons.inj (htabs.symm.trans htabs')).1]
    | root _ htabs' => exact absurd (htabs.symm.trans htabs') (by simp)
  | root hbare htabs =>
    cases hother with
    | bare => contradiction
    | asked _ _ hfirst => exact absurd (htabs ▸ lacksTab_nil tabId) hfirst.not_lacksTab
    | first _ htabs' _ => exact absurd (htabs.symm.trans htabs') (by simp)
    | root => rfl

theorem Json.IsDocument.defaultBody_eq {document : Json} (h : document.IsDocument) :
    defaultBody document (.arr (document.itemsAt "tabs")) =
      .ok ((document.itemsAt "tabs").head?.elim document.heldBody Json.bodyOfTab) := by
  cases htabs : document.itemsAt "tabs" with
  | nil => exact h.fieldD_body
  | cons tab rest => exact (h.tabs tab (by simp [htabs])).fields.tabBody_eq

/-- Without a tab to take the body of, it is that of the first tab or the one at the root. -/
theorem picksBody_default {document tabId : Json} (hbare : ¬ document.IsBare)
    (hnone : tabId ≠ .null → LacksTab tabId (document.itemsAt "tabs")) :
    PicksBody document tabId
      ((document.itemsAt "tabs").head?.elim document.heldBody Json.bodyOfTab) := by
  cases htabs : document.itemsAt "tabs" with
  | nil => exact .root hbare htabs
  | cons tab rest => exact .first hbare htabs hnone

theorem Json.IsDocument.exists_picksBody {document : Json} (h : document.IsDocument)
    (tabId : Json) :
    ∃ body, selectBody document tabId = .ok body ∧ PicksBody document tabId body := by
  have hcontent := h.record.hasMember_eq "content"
  have hbody := h.record.hasMember_eq "body"
  have htabs := (h.record.fieldD_eq "tabs" (.arr [])).trans (congrArg _ h.listed.getOr_eq_arr)
  simp only [selectBody, hcontent, hbody, bind_eq_ok_iff, Except.ok.injEq, exists_eq_left']
  split
  · next hbare =>
    exact ⟨document, rfl, .bare (by simpa [Json.IsBare] using hbare)⟩
  · next hbare =>
    replace hbare : ¬ document.IsBare := by simpa [Json.IsBare] using hbare
    simp only [htabs, bind_eq_ok_iff, Except.ok.injEq, exists_eq_left']
    split
    · exact ⟨_, h.defaultBody_eq, picksBody_default hbare fun hgiven => absurd rfl hgiven⟩
    · next hgiven =>
      obtain ⟨found, hfound, hfinds⟩ := h.exists_findTab tabId
      split
      · simp only [Json.records, hfound, bind_eq_ok_iff, Except.ok.injEq, exists_eq_left']
        cases hfinds with
        | found hfirst => exact ⟨_, rfl, .asked hbare hgiven hfirst⟩
        | missing hnone => exact ⟨_, h.defaultBody_eq, picksBody_default hbare fun _ => hnone⟩
      · next hempty =>
        have htabs : document.itemsAt "tabs" = [] := by simpa [Json.isGiven] using hempty
        exact ⟨_, h.defaultBody_eq, picksBody_default hbare fun _ => htabs ▸ lacksTab_nil tabId⟩

/-- **Selecting a body is a search in order with something to fall back on.** In every well-typed
document and for every id of a tab, a body is selected, and it is the one that `PicksBody` names. -/
theorem selectBody_wellTyped {document : Json} (h : document.IsDocument) (tabId : Json) :
    ∃ body, selectBody document tabId = .ok body ∧
      ∀ other, PicksBody document tabId other ↔ other = body := by
  obtain ⟨body, hselected, hpicks⟩ := h.exists_picksBody tabId
  refine ⟨body, hselected, fun other => ⟨fun hother => hother.unique hpicks, ?_⟩⟩
  rintro rfl
  exact hpicks

/-- A tab with all its fields. -/
def fullTab (id : String) (body : Json) (children : List Json) : Json :=
  .obj [("tabProperties", .obj [("tabId", .str id)]), ("documentTab", .obj [("body", body)]),
    ("childTabs", .arr children)]

theorem isTab_fullTab {id : String} {body : Json} {children : List Json} (hbody : body.IsBody)
    (hchildren : ∀ child ∈ children, child.IsTab) : (fullTab id body children).IsTab := by
  refine .mk ⟨Json.isRecord_obj _, ?_, ?_, ?_⟩ ?_
  · simp [fullTab, List.lookup]
  · simp [fullTab, List.lookup, Json.holdsBody_iff, hbody]
  · simp [fullTab, List.lookup]
  · simpa [fullTab, List.lookup, Json.items] using hchildren

/-- A body that lists no blocks. -/
def blankBody : Json :=
  .obj [("content", .arr [])]

/-- A document in which two tabs have one id. The first of them is three levels deep, and its body
is an empty record. -/
def sharedTabId : Json :=
  .obj [("tabs", .arr [
    fullTab "a" blankBody [fullTab "b" blankBody [fullTab "x" (.obj []) []]],
    fullTab "x" blankBody []])]

theorem isDocument_sharedTabId : sharedTabId.IsDocument := by
  have hblank : blankBody.IsBody := by
    simp [blankBody, Json.isBody_iff, Json.hasContent_iff, List.lookup, Json.items]
  have hinner : (fullTab "b" blankBody [fullTab "x" (.obj []) []]).IsTab :=
    isTab_fullTab hblank (by simp [isTab_fullTab, Json.isBody_empty])
  have houter : (fullTab "a" blankBody [fullTab "b" blankBody [fullTab "x" (.obj []) []]]).IsTab :=
    isTab_fullTab hblank (by simp [hinner])
  have hlast : (fullTab "x" blankBody []).IsTab := isTab_fullTab hblank (by simp)
  simp [sharedTabId, Json.isDocument_iff, Json.holdsBody_iff, Json.isBody_iff,
    Json.hasContent_iff, Json.get?, List.lookup, Json.items, houter, hlast]

theorem selectBody_sharedTabId : sharedTabId.IsDocument ∧
    FirstTab (.str "x") (sharedTabId.itemsAt "tabs") [0, 0, 0] (fullTab "x" (.obj []) []) ∧
    selectBody sharedTabId (.str "x") = .ok (.obj []) := by
  have hfirst : FirstTab (.str "x") (sharedTabId.itemsAt "tabs") [0, 0, 0]
      (fullTab "x" (.obj []) []) :=
    ((firstTab_cons_self (by cbv) []).cons_inside (by cbv)).cons_inside (by cbv)
  obtain ⟨body, hselected, hpicks⟩ := selectBody_wellTyped isDocument_sharedTabId (.str "x")
  have hbare : ¬ sharedTabId.IsBare := by simp [Json.IsBare, sharedTabId, Json.get?, List.lookup]
  obtain rfl := (hpicks _).1 (.asked hbare (by simp) hfirst)
  exact ⟨isDocument_sharedTabId, hfirst, hselected⟩

end DocTemplate
