import DocTemplate.Section.Entry

/-!
# Sections

The data of a table: a title and pairs of a key and a value, in the order in which they were given.
-/

namespace DocTemplate

/-- A key with its value. -/
structure KeyValue where
  key : Entry
  value : Entry

/-- A title with its pairs. -/
structure Section where
  title : Entry
  pairs : List KeyValue

/-- A section whose title, keys and values are texts. -/
structure Section.Typed (data : Section) : Prop where
  title : ∃ t, data.title = .text t
  pairs : ∀ p ∈ data.pairs, (∃ t, p.key = .text t) ∧ ∃ t, p.value = .text t

/-- Reads a pair. A key or value that is absent is empty. -/
def KeyValue.ofJson (j : Json) : Except Fault KeyValue :=
  return ⟨.ofJson (← j.fieldD "key" (.str "")), .ofJson (← j.fieldD "value" (.str ""))⟩

namespace Section

/-- Reads a section. Its pairs stand under either of two names; the first one wins. -/
def ofJson (j : Json) : Except Fault Section := do
  let listed ← match ← j.field? "key_value_pairs" with
    | some pairs => pure pairs
    | none => j.fieldD "keyValuePairs" (.arr [])
  let title ← j.fieldD "title" (.str "")
  return ⟨.ofJson title, ← (← listed.records).mapM KeyValue.ofJson⟩

/-- Whether one of the pairs has a key and a value that are not blank. -/
def hasCompletePair : List KeyValue → Except Fault Bool
  | [] => .ok false
  | p :: rest => do
    if ← p.key.isBlank then hasCompletePair rest
    else if ← p.value.isBlank then hasCompletePair rest
    else return true

/-- Whether a section has a title that is not blank and at least one complete pair. -/
def hasContent (s : Section) : Except Fault Bool := do
  if ← s.title.isBlank then return false else hasCompletePair s.pairs

end Section

end DocTemplate
