import DocTemplate.Error
import DocTemplate.Proofs.Json.Reading

/-!
# Records of errors

What the record of an error holds: which of its fields are there, under which names, and what the
context keeps (`Report.RecordedBy`). Both the record and its context list the parts that are there
out of a fixed list of names (`present`), so what is found under a name is settled once for both.

The text of a record is a JSON text for the record and for nothing else, whatever the error quotes
and however the text is indented (`Report.render_denotes_iff`).
-/

namespace DocTemplate

/-! ## Fields that are there -/

/-- The fields of an object some of whose parts are there, in the order of the parts. -/
def present (parts : List (String × Option Json)) : List (String × Json) :=
  parts.filterMap fun (key, v) => v.map (key, ·)

section Present

variable {parts : List (String × Option Json)}

theorem names_present_sublist (parts : List (String × Option Json)) :
    ((present parts).map Prod.fst).Sublist (parts.map Prod.fst) := by
  induction parts with
  | nil => exact List.Sublist.slnil
  | cons part rest ih =>
    obtain ⟨key, _ | v⟩ := part
    · exact ih.cons key
    · exact ih.cons_cons key

theorem present_append (parts others : List (String × Option Json)) :
    present (parts ++ others) = present parts ++ present others :=
  List.filterMap_append

theorem present_if (key : String) (v : Json) (given : Bool) :
    present [(key, if given then some v else none)] = if given then [(key, v)] else [] := by
  cases given with
  | false => rfl
  | true => rfl

/-- Under each name stands the part of this name, if it is there. -/
theorem lookup_present (h : (parts.map Prod.fst).Nodup) (name : String) :
    (present parts).lookup name = (parts.lookup name).join := by
  induction parts with
  | nil => rfl
  | cons part rest ih =>
    obtain ⟨key, v⟩ := part
    obtain ⟨hnew, hrest⟩ := List.nodup_cons.1 h
    by_cases hname : name = key
    · subst hname
      rw [List.lookup_cons_self]
      cases v with
      | some v => exact List.lookup_cons_self
      | none =>
        refine List.lookup_eq_none_iff.2 fun field hfield => ?_
        have hmem := (names_present_sublist rest).subset (List.mem_map_of_mem hfield)
        exact bne_iff_ne.2 fun heq => hnew (heq ▸ hmem)
    · have hne : (name == key) = false := beq_false_of_ne hname
      rw [List.lookup_cons, hne]
      cases v with
      | none => exact ih hrest
      | some v =>
        show ((key, v) :: present rest).lookup name = _
        rw [List.lookup_cons, hne]
        exact ih hrest

end Present

/-! ## Contexts -/

namespace ReportContext

/-- The part of a context under a name. -/
def part? (c : ReportContext) : String → Option Json
  | "received" => c.received
  | "expected" => c.expected
  | "available_sections" => c.availableSections
  | "possible_causes" => c.possibleCauses
  | _ => none

/-- The names of the parts of a context. -/
def names : List String :=
  ["received", "expected", "available_sections", "possible_causes"]

/-- The value is an object that holds the parts of the context that are there, each under its name,
and nothing else. -/
structure HeldBy (c : ReportContext) (v : Json) : Prop where
  fields : ∃ fields, v = .obj fields ∧ (fields.map Prod.fst).Sublist names
  part : ∀ name, v.get? name = c.part? name

theorem lookup_fields (c : ReportContext) (name : String) :
    c.fields.lookup name = c.part? name := by
  let parts := [("received", c.received), ("expected", c.expected),
    ("available_sections", c.availableSections), ("possible_causes", c.possibleCauses)]
  have hnames : (parts.map Prod.fst).Nodup := show names.Nodup by decide
  refine (lookup_present hnames name).trans ?_
  unfold part?
  split
  · rfl
  · rfl
  · rfl
  · rfl
  · next hreceived hexpected havailable hcauses =>
    simp only [parts, List.lookup_cons, beq_false_of_ne hreceived, beq_false_of_ne hexpected,
      beq_false_of_ne havailable, beq_false_of_ne hcauses]
    rfl

theorem heldBy_fields (c : ReportContext) : c.HeldBy (.obj c.fields) where
  fields := ⟨_, rfl, names_present_sublist _⟩
  part := c.lookup_fields

theorem fields_ne_nil_iff (c : ReportContext) : c.fields ≠ [] ↔ ∃ name, (c.part? name).isSome := by
  constructor
  · intro hne
    obtain ⟨field, rest, heq⟩ := List.exists_cons_of_ne_nil hne
    refine ⟨field.1, ?_⟩
    rw [← lookup_fields, heq, List.lookup_cons_self]
    rfl
  · rintro ⟨name, hname⟩ heq
    rw [← lookup_fields, heq] at hname
    exact Bool.false_ne_true hname

end ReportContext

/-! ## Records -/

namespace Report

/-- The names of the fields of a record. -/
def names : List String :=
  ["error", "code", "message", "fatal", "reason", "suggestion", "context"]

/-- The value is a record of the error: an object with the four fields that every record has, the
reason and the suggestion if they are not empty, and the context if one of its parts is there. -/
structure RecordedBy (r : Report) (record : Json) : Prop where
  fields : ∃ fields, record = .obj fields ∧ (fields.map Prod.fst).Sublist names
  error : record.get? "error" = some r.error
  code : record.get? "code" = some r.code
  message : record.get? "message" = some r.message
  fatal : record.get? "fatal" = some r.fatal
  reason : record.get? "reason" = if r.reason.isGiven then some r.reason else none
  suggestion : record.get? "suggestion" = if r.suggestion.isGiven then some r.suggestion else none
  hasContext : (record.get? "context").isSome ↔
    ∃ c name, r.context = some c ∧ (c.part? name).isSome
  context : ∀ v, record.get? "context" = some v → ∃ c, r.context = some c ∧ c.HeldBy v

/-- The context of an error as a value, if one of its parts is there. -/
def heldContext (r : Report) : Option Json :=
  r.context.bind fun c => if c.fields = [] then none else some (.obj c.fields)

theorem heldContext_eq_some_iff (r : Report) (v : Json) :
    r.heldContext = some v ↔ ∃ c, r.context = some c ∧ c.fields ≠ [] ∧ .obj c.fields = v := by
  rw [heldContext, Option.bind_eq_some_iff]
  refine exists_congr fun c => and_congr_right fun _ => ?_
  rw [Option.ite_none_left_eq_some, Option.some_inj]

/-- The parts of a record, in their order. -/
def parts (r : Report) : List (String × Option Json) :=
  [("error", some r.error), ("code", some r.code), ("message", some r.message),
    ("fatal", some r.fatal), ("reason", if r.reason.isGiven then some r.reason else none),
    ("suggestion", if r.suggestion.isGiven then some r.suggestion else none),
    ("context", r.heldContext)]

theorem present_heldContext (r : Report) : present [("context", r.heldContext)] =
    if ((r.context.map ReportContext.fields).getD []).isEmpty then []
    else [("context", .obj ((r.context.map ReportContext.fields).getD []))] := by
  rw [heldContext]
  cases r.context with
  | none => rfl
  | some c =>
    show present [(_, if c.fields = [] then none else some (.obj c.fields))] =
      if c.fields.isEmpty then [] else [(_, .obj c.fields)]
    cases c.fields with
    | nil => rfl
    | cons field rest => rfl

theorem toJson_eq (r : Report) : r.toJson = .obj (present r.parts) := by
  have hparts : r.parts = [("error", some r.error), ("code", some r.code),
        ("message", some r.message), ("fatal", some r.fatal)] ++
      [("reason", if r.reason.isGiven then some r.reason else none)] ++
      [("suggestion", if r.suggestion.isGiven then some r.suggestion else none)] ++
      [("context", r.heldContext)] := rfl
  rw [hparts, present_append, present_append, present_append, present_if, present_if,
    present_heldContext]
  rfl

theorem get?_toJson (r : Report) (name : String) :
    r.toJson.get? name = (r.parts.lookup name).join := by
  have hnames : (r.parts.map Prod.fst).Nodup := show names.Nodup by decide
  rw [toJson_eq]
  exact lookup_present hnames name

theorem recordedBy_toJson (r : Report) : r.RecordedBy r.toJson where
  fields := ⟨_, r.toJson_eq, names_present_sublist _⟩
  error := r.get?_toJson "error"
  code := r.get?_toJson "code"
  message := r.get?_toJson "message"
  fatal := r.get?_toJson "fatal"
  reason := r.get?_toJson "reason"
  suggestion := r.get?_toJson "suggestion"
  hasContext := by
    have hcontext : r.toJson.get? "context" = r.heldContext := r.get?_toJson "context"
    rw [hcontext, Option.isSome_iff_exists]
    constructor
    · rintro ⟨v, hv⟩
      obtain ⟨c, hc, hne, -⟩ := (r.heldContext_eq_some_iff v).1 hv
      obtain ⟨name, hname⟩ := c.fields_ne_nil_iff.1 hne
      exact ⟨c, name, hc, hname⟩
    · rintro ⟨c, name, hc, hname⟩
      exact ⟨_, (r.heldContext_eq_some_iff _).2 ⟨c, hc, c.fields_ne_nil_iff.2 ⟨name, hname⟩, rfl⟩⟩
  context := fun v hv => by
    have hcontext : r.toJson.get? "context" = r.heldContext := r.get?_toJson "context"
    obtain ⟨c, hc, -, rfl⟩ := (r.heldContext_eq_some_iff v).1 (hcontext ▸ hv)
    exact ⟨c, hc, c.heldBy_fields⟩

/-- **The text of an error says what its record holds and nothing else**: on one line or with any
number of spaces for each level, it is a JSON text for the record and for no other value, and it is
read as the record. -/
theorem render_denotes_iff (r : Report) (indent : Option Nat) :
    (∀ j, Json.Denotes (r.toJson.render indent).toList j ↔ j = r.toJson) ∧
      Json.read? (r.toJson.render indent).toList = some r.toJson ∧ r.RecordedBy r.toJson := by
  have htext := Json.denotes_render indent r.toJson
  refine ⟨fun j => ⟨fun h => h.eq htext, fun h => h ▸ htext⟩, Json.read?_of_denotes htext,
    r.recordedBy_toJson⟩

end Report

end DocTemplate
