import DocTemplate.Json.Number
import DocTemplate.Json.Shape

/-!
# Tabs

A document keeps its body either at its root or, if it has tabs, once per tab. `selectBody` picks
one: the body of the tab that was asked for, else that of the first tab, else the one at the root.
Tabs are searched in order, the tabs inside a tab before its next sibling. What already is a body
is taken as it is.
-/

namespace DocTemplate

/-- The body of a tab; an empty record if it has none. -/
def tabBody (tab : Json) : Except Fault Json := do
  (← tab.fieldD "documentTab" (.obj [])).fieldD "body" (.obj [])

/-- Whether a tab has this id. -/
def hasTabId (id : Json) (tab : Json) : Except Fault Bool := do
  let tabId ← (← tab.fieldD "tabProperties" (.obj [])).fieldD "tabId" .null
  return tabId.same id

/-- A body that is there. -/
def presentBody : Json → Option Json
  | .null => none
  | body => some body

/-- The body of the first tab with this id among `tabs` and the tabs inside them. -/
def findTab (id : Json) (tabs : List Json) : Except Fault (Option Json) :=
  match tabs with
  | [] => .ok none
  | tab :: rest => do
    if ← hasTabId id tab then return presentBody (← tabBody tab)
    match _children : tab.recordsAt "childTabs" with
    | .error f => throw f
    | .ok children =>
      match ← findTab id children with
      | some body => return some body
      | none => findTab id rest
termination_by sizeOf tabs
decreasing_by
  · have := Json.sizeOf_lt_of_recordsAt _children
    simp only [List.cons.sizeOf_spec]
    omega
  · simp only [List.cons.sizeOf_spec]
    omega

/-- The first tab that a value lists. -/
def firstTab : Json → Except Fault Json
  | .arr (tab :: _) => .ok tab
  | .str s => .ok (.str s)
  | .obj _ => .error (.missingKey (.int 0))
  | other => .error (.notSubscriptable other.kind)

/-- The body that is taken if no tab is asked for, or none with its id is found. -/
def defaultBody (document tabs : Json) : Except Fault Json := do
  if tabs.isGiven then tabBody (← firstTab tabs) else document.fieldD "body" (.obj [])

/-- The body of a document, in the tab with id `tabId` if there is one. A null id asks for none. -/
def selectBody (document tabId : Json) : Except Fault Json := do
  if (← document.hasMember "content") && !(← document.hasMember "body") then return document
  let tabs ← document.fieldD "tabs" (.arr [])
  match tabId with
  | .null => defaultBody document tabs
  | id =>
    if tabs.isGiven then
      match ← findTab id (← tabs.records) with
      | some body => return body
      | none => defaultBody document tabs
    else defaultBody document tabs

end DocTemplate
