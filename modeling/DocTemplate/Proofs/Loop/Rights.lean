import DocTemplate.Proofs.Template.Generation

/-!
# What a task may ask for

A task may work on a document only while it holds the document's lock, may take a lock only while it
holds none, and sends a batch only after it has read the document under this lock. What it may do at
a time depends on what it has done before, which is kept in its rights (`Rights`). A program that
never asks for more than its rights allow, whatever it is answered, is permitted (`Permits`); the
rights of a composition are those that its first part leaves (`Permits.bind`).

Main fact: `permits_program` (all calls that change documents are permitted). Applying a batch that
a caller planned is the only one that does not read the document.
-/

namespace DocTemplate

/-- What a task has done so far, as far as its further requests depend on it: which document it
holds the lock of and whether it has read it since, and how often it may take a lock from now on. -/
inductive Rights where
  | free (turns : Nat)
  | holding (documentId : Json) (read : Bool) (turns : Nat)

namespace Rights

/-- The rights after a request. -/
def after : Rights → StoreRequest → Rights
  | free turns, .acquire documentId => holding documentId false (turns - 1)
  | holding _ _ turns, .release _ => free turns
  | holding documentId _ turns, .fetch _ => holding documentId true turns
  | rights, _ => rights

/-- The requests that are within the rights. Where `reads` is set, batches are sent only for a
document that was read before; otherwise documents are not read at all. -/
def Permit (reads : Bool) : Rights → StoreRequest → Prop
  | free turns, .acquire _ => 0 < turns
  | holding documentId _ _, .release documentId' => documentId' = documentId
  | holding documentId _ _, .fetch documentId' => documentId' = documentId ∧ reads = true
  | holding documentId read _, .apply documentId' _ _ =>
    documentId' = documentId ∧ (reads = true → read = true)
  | _, .copy _ _ => True
  | _, _ => False

end Rights

/-- The program asks only for what is within its rights, whatever it is answered, and leaves rights
of which `post` holds. -/
inductive Permits {α : Type} (reads : Bool) (post : Rights → Prop) :
    Rights → Program documentStore α → Prop where
  | done {rights : Rights} {a : α} (hpost : post rights) : Permits reads post rights (.done a)
  | ask {rights : Rights} {request : StoreRequest}
      {next : request.Answer → Program documentStore α} (hpermit : rights.Permit reads request)
      (hnext : ∀ answer, Permits reads post (rights.after request) (next answer)) :
      Permits reads post rights (.ask request next)

section Permits

variable {α β : Type} {reads : Bool} {mid post : Rights → Prop} {rights : Rights}

theorem permits_ask {request : StoreRequest} {next : request.Answer → Program documentStore α}
    (h : Permits reads post rights (.ask request next)) :
    rights.Permit reads request ∧
      ∀ answer, Permits reads post (rights.after request) (next answer) := by
  cases h with
  | ask hpermit hnext => exact ⟨hpermit, hnext⟩

theorem Permits.bind {p : Program documentStore α} {f : α → Program documentStore β}
    (hp : Permits reads mid rights p)
    (hf : ∀ a rights, mid rights → Permits reads post rights (f a)) :
    Permits reads post rights (p >>= f) := by
  induction hp with
  | done hmid => exact hf _ _ hmid
  | ask hpermit _ ih => exact .ask hpermit ih

theorem Permits.imp {p : Program documentStore α} (h : Permits reads mid rights p)
    (himp : ∀ rights, mid rights → post rights) : Permits reads post rights p := by
  induction h with
  | done hmid => exact .done (himp _ hmid)
  | ask hpermit _ ih => exact .ask hpermit ih

theorem permits_request {request : StoreRequest} (h : rights.Permit reads request) :
    Permits reads (· = rights.after request) rights
      (Program.request (I := documentStore) request) :=
  .ask h fun _ => .done rfl

/-- An action that fails leaves the rights that it has then. -/
theorem Permits.action_bind {x : Action documentStore α} {f : α → Action documentStore β}
    (hx : Permits reads mid rights (ExceptT.run x))
    (hf : ∀ a rights, mid rights → Permits reads post rights (ExceptT.run (f a)))
    (herror : ∀ rights, mid rights → post rights) :
    Permits reads post rights (ExceptT.run (x >>= f)) := by
  rw [ExceptT.run_bind]
  refine hx.bind fun result rights hmid => ?_
  cases result with
  | error e => exact .done (herror rights hmid)
  | ok a => exact hf a rights hmid

/-- What does not ask for anything leaves the rights as they are. -/
theorem permits_lift_bind {x : Except Failure α} {f : α → Action documentStore β}
    (hf : ∀ a, Permits reads post rights (ExceptT.run (f a))) (herror : post rights) :
    Permits reads post rights (ExceptT.run ((liftM x : Action documentStore α) >>= f)) := by
  have hx : Permits reads (· = rights) rights (ExceptT.run (liftM x : Action documentStore α)) :=
    .done rfl
  exact hx.action_bind (fun a left hleft => hleft ▸ hf a) fun left hleft => hleft ▸ herror

end Permits

namespace Template

/-! ## Work on a document -/

section Work

variable {reads : Bool} {documentId : Json} {read : Bool} {turns : Nat}

theorem permits_fetchSnapshot (options : FillOptions) :
    Permits true (· = .holding documentId true turns) (.holding documentId read turns)
      (ExceptT.run (fetchSnapshot options documentId)) := by
  have hfetch : Permits true (· = .holding documentId true turns)
      (.holding documentId read turns) (ExceptT.run (Store.fetch documentId)) :=
    .ask ⟨rfl, rfl⟩ fun answer => .done rfl
  refine hfetch.action_bind (fun document rights hrights => ?_) fun _ => id
  exact .done hrights

/-- A batch is permitted if it need not be planned from what was read, or was. -/
theorem permits_applyEdits (hread : reads = true → read = true) (edits : List Edit)
    (revision : Json) :
    Permits reads (· = .holding documentId read turns) (.holding documentId read turns)
      (ExceptT.run (applyEdits documentId edits revision)) := by
  unfold applyEdits
  split
  · exact .done rfl
  have happly : Permits reads (· = .holding documentId read turns)
      (.holding documentId read turns) (ExceptT.run (Store.apply documentId edits revision)) :=
    .ask ⟨rfl, hread⟩ fun answer => .done rfl
  refine happly.action_bind (fun reply rights hrights => ?_) fun _ => id
  exact permits_lift_bind (fun shift => .done hrights) hrights

theorem permits_renderMarker (options : FillOptions) (ordinal : Nat) (name : Text)
    (layout : TableLayout) (s : Snapshot) :
    Permits true (· = .holding documentId true turns) (.holding documentId true turns)
      (ExceptT.run (renderMarker options documentId ordinal name layout s)) := by
  refine permits_lift_bind (fun range => ?_) rfl
  refine (permits_applyEdits (fun _ => rfl) _ _).action_bind ?_ fun _ => id
  rintro inserted _ rfl
  refine (permits_fetchSnapshot options).action_bind ?_ fun _ => id
  rintro after _ rfl
  refine permits_lift_bind (fun fill => ?_) rfl
  refine (permits_applyEdits (fun _ => rfl) _ _).action_bind ?_ fun _ => id
  rintro filled _ rfl
  exact .done rfl

theorem permits_renderMarkers (options : FillOptions) (sections : SectionData)
    (fresh : Option Snapshot) (markers : List (SectionMarker × Nat)) :
    Permits true (· = .holding documentId true turns) (.holding documentId true turns)
      (ExceptT.run (renderMarkers options documentId sections fresh markers)) := by
  induction markers generalizing fresh with
  | nil => exact .done rfl
  | cons entry rest ih =>
    rw [renderMarkers]
    refine permits_lift_bind (fun selected => ?_) rfl
    cases selected with
    | error skipped =>
      refine (ih fresh).action_bind ?_ fun _ => id
      rintro r _ rfl
      exact .done rfl
    | ok data =>
      have hcurrent : Permits true (· = .holding documentId true turns)
          (.holding documentId true turns)
          (ExceptT.run (currentSnapshot options documentId fresh)) := by
        cases fresh with
        | none => exact permits_fetchSnapshot options
        | some s => exact .done rfl
      refine hcurrent.action_bind ?_ fun _ => id
      rintro s _ rfl
      refine (permits_renderMarker options _ _ _ s).action_bind ?_ fun _ => id
      rintro batches _ rfl
      refine (ih none).action_bind ?_ fun _ => id
      rintro r _ rfl
      exact .done rfl

/-- Work that is permitted under the lock of a document takes one turn. -/
theorem permits_withDocument {α : Type} {work : Action documentStore α}
    (hwork : Permits reads (fun rights => ∃ read, rights = .holding documentId read turns)
      (.holding documentId false turns) (ExceptT.run work)) :
    Permits reads (fun rights => ∃ left, rights = .free left ∧ turns ≤ left) (.free (turns + 1))
      (ExceptT.run (Store.withDocument documentId work)) := by
  unfold Store.withDocument
  split
  · exact .done ⟨turns + 1, rfl, Nat.le_succ turns⟩
  have hacquire : Rights.Permit reads (.free (turns + 1)) (.acquire documentId) :=
    Nat.succ_pos turns
  refine (permits_request hacquire).bind ?_
  rintro _ _ rfl
  refine Permits.bind hwork ?_
  rintro result _ ⟨read, rfl⟩
  have hrelease : Rights.Permit reads (.holding documentId read turns) (.release documentId) := rfl
  refine (permits_request hrelease).bind ?_
  rintro _ _ rfl
  exact .done ⟨turns, rfl, Nat.le_refl turns⟩

theorem permits_fillVariables (options : FillOptions) (values : ReadValues)
    (assets : List AssetSection) :
    Permits true (fun rights => ∃ left, rights = .free left ∧ turns ≤ left) (.free (turns + 1))
      (ExceptT.run (fillVariables options documentId values assets)) := by
  refine permits_withDocument ?_
  have hread : ∀ rights, rights = Rights.holding documentId true turns →
      ∃ read, rights = .holding documentId read turns := fun _ h => ⟨true, h⟩
  refine (permits_fetchSnapshot options).action_bind ?_ hread
  rintro s _ rfl
  refine permits_lift_bind (fun edits => ?_) ⟨true, rfl⟩
  exact (permits_applyEdits (fun _ => rfl) _ _).imp hread

theorem permits_renderSections (options : FillOptions) (sections : SectionData) :
    Permits true (fun rights => ∃ left, rights = .free left ∧ turns ≤ left) (.free (turns + 1))
      (ExceptT.run (renderSections options documentId sections)) := by
  refine permits_withDocument ?_
  have hread : ∀ rights, rights = Rights.holding documentId true turns →
      ∃ read, rights = .holding documentId read turns := fun _ h => ⟨true, h⟩
  refine (permits_fetchSnapshot options).action_bind ?_ hread
  rintro s _ rfl
  exact (permits_renderMarkers options sections _ _).imp hread

/-- A stage that is left out takes no turn. -/
theorem permits_stage {α : Type} {work : Action documentStore α} {leftOut : Bool}
    (hwork : Permits reads (fun rights => ∃ left, rights = .free left ∧ turns ≤ left)
      (.free (turns + 1)) (ExceptT.run work)) :
    Permits reads (fun rights => ∃ left, rights = .free left ∧ turns ≤ left) (.free (turns + 1))
      (ExceptT.run (if leftOut then pure none else some <$> work)) := by
  cases leftOut with
  | true => exact .done ⟨turns + 1, rfl, Nat.le_succ turns⟩
  | false =>
    rw [if_neg Bool.false_ne_true, map_eq_pure_bind]
    exact hwork.action_bind (fun _ _ hrights => .done hrights) fun _ => id

end Work

/-! ## Calls -/

/-- A call that can change documents. Each call has options of its own. -/
inductive Call where
  | applyBatch (documentId : Json) (edits : List Edit) (revision : Json)
  | fillVariables (options : FillOptions) (documentId : Json) (values : ReadValues)
      (assets : List AssetSection)
  | renderSections (options : FillOptions) (documentId : Json) (sections : SectionData)
  | generateDocument (options : FillOptions) (templateId title : Json) (values : ReadValues)
      (assets : List AssetSection) (sections : SectionData)

namespace Call

/-- The program of a call. What it ends with is left out. -/
def program : Call → Program documentStore Unit
  | applyBatch documentId edits revision =>
    (fun _ => ()) <$> ExceptT.run (Template.applyBatch documentId edits revision)
  | fillVariables options documentId values assets =>
    (fun _ => ()) <$> ExceptT.run (Template.fillVariables options documentId values assets)
  | renderSections options documentId sections =>
    (fun _ => ()) <$> ExceptT.run (Template.renderSections options documentId sections)
  | generateDocument options templateId title values assets sections =>
    (fun _ => ()) <$> ExceptT.run
      (Template.generateDocument options templateId title values assets sections)

/-- Whether a call plans its batches from what it reads. -/
def reads : Call → Bool
  | applyBatch .. => false
  | _ => true

/-- How often a call takes a lock at most. -/
def turns : Call → Nat
  | generateDocument .. => 2
  | _ => 1

end Call

theorem permits_generateDocument (options : FillOptions) (templateId title : Json)
    (values : ReadValues) (assets : List AssetSection) (sections : SectionData) :
    Permits true (fun _ => True) (.free 2)
      (ExceptT.run (generateDocument options templateId title values assets sections)) := by
  have hcopy : Permits true (· = .free 2) (.free 2)
      (ExceptT.run (Store.copy templateId title)) := .ask trivial fun answer => .done rfl
  rw [generateDocument_eq]
  refine hcopy.action_bind ?_ fun _ _ => trivial
  rintro documentId _ rfl
  refine (permits_stage (permits_fillVariables options values assets)).action_bind ?_
    fun _ _ => trivial
  rintro filled _ ⟨left, rfl, hleft⟩
  obtain ⟨turns, rfl⟩ := Nat.exists_eq_add_of_le' hleft
  refine (permits_stage (permits_renderSections options sections)).action_bind ?_ fun _ _ => trivial
  rintro rendered rights -
  exact .done trivial

/-- **Calls keep within their rights**: each call that can change documents works on a document only
while it holds the document's lock, takes a lock only while it holds none, and sends a batch only if
it was planned by the caller or from what the call has read under this lock. -/
theorem permits_program (call : Call) :
    Permits call.reads (fun _ => True) (.free call.turns) call.program := by
  have hdiscard : ∀ {α : Type} {reads : Bool} {rights : Rights} {post : Rights → Prop}
      {p : Program documentStore α}, Permits reads post rights p →
      Permits reads (fun _ => True) rights ((fun _ => ()) <$> p) := by
    intro α reads rights post p hp
    rw [map_eq_pure_bind]
    exact hp.bind fun _ _ _ => .done trivial
  cases call with
  | applyBatch documentId edits revision =>
    refine hdiscard (permits_withDocument ?_)
    exact (permits_applyEdits (fun h => h) edits revision).imp fun _ h => ⟨false, h⟩
  | fillVariables options documentId values assets =>
    exact hdiscard (permits_fillVariables options values assets)
  | renderSections options documentId sections =>
    exact hdiscard (permits_renderSections options sections)
  | generateDocument options templateId title values assets sections =>
    exact hdiscard (permits_generateDocument options templateId title values assets sections)

end Template

end DocTemplate
