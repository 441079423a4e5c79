import DocTemplate.Proofs.Error.Causes
import DocTemplate.Tool.Call
import Mathlib.Order.Bounds.Defs

/-!
# What a guarded tool does with the outcomes of its invocations

A guard sees of a tool the outcomes of its invocations, one after another, and nothing else
(`attempt_eq_interpret`). A tool that changes documents is invoked once. A tool that only reads is
invoked until an outcome is no broken connection, three times at most. What the caller gets to see
depends on the number of invocations and on the last outcome alone (`playedOn_called`).

What there is to see for each outcome is `Sees`. It says of an answer what its record tells the
caller and of a message what it contains, and leaves open in which words it does so.

The induction is along the retries that are left: an attempt whose connection breaks leaves the rest
to the attempts behind it, and any other one is the last (`playedFrom_eq`).
-/

namespace DocTemplate

/-! ## Trials -/

/-- What a guard asks for: that the tool is invoked, or that some seconds pass. -/
inductive TrialRequest where
  | invoke
  | pause (seconds : Nat)

/-- The interface between a guard and a tool. An invocation is answered with its outcome. -/
abbrev trials (α : Type) : Interface where
  Request := TrialRequest
  Answer
    | .invoke => Except Failure α
    | .pause _ => Unit

variable {α : Type}

/-- Invokes the tool. -/
def Trial.invoke : Action (trials α) α :=
  Action.request (I := trials α) .invoke rfl

/-- Lets some seconds pass. -/
def Trial.pause (seconds : Nat) : Program (trials α) Unit :=
  Program.request (I := trials α) (.pause seconds)

/-- Carries out what a guard asks for: `work` is the tool, and `pause` waits. -/
def Trial.carryOut {I : Interface} (pause : Nat → Program I Unit) (work : Action I α) :
    (r : TrialRequest) → Program I ((trials α).Answer r)
  | .invoke => work.run
  | .pause seconds => pause seconds

/-- Answers the invocations with these outcomes, one after another, and counts them. -/
def Trial.answer (outcomes : Nat → Except Failure α) :
    (r : TrialRequest) → StateM Nat ((trials α).Answer r)
  | .invoke => fun n => (outcomes n, n + 1)
  | .pause _ => fun n => ((), n)

/-- The connection broke. -/
def IsBroken (outcome : Except Failure α) : Prop :=
  ∃ text, outcome = .error (.connection text)

namespace GuardedTool

/-- A guarded tool as a program over the outcomes of its invocations. -/
def trial (tool : GuardedTool) (ofReport : String → α) :
    Program (trials α) (Except ToolFailure α) :=
  tool.run ofReport Trial.pause Trial.invoke

/-- The answer of a guarded tool whose invocations have these outcomes, and the number of its
invocations. -/
def playedOn (tool : GuardedTool) (ofReport : String → α) (outcomes : Nat → Except Failure α) :
    Except ToolFailure α × Nat :=
  ((tool.trial ofReport).interpret (Trial.answer outcomes)).run 0

/-- What the caller gets to see of the last of `n` outcomes. -/
def answerTo (tool : GuardedTool) (ofReport : String → α) (n : Nat) :
    Except Failure α → Except ToolFailure α
  | .ok a => .ok a
  | .error failure => tool.settle ofReport n failure

variable {m : Type → Type} [Monad m] {β : Type}

theorem interpret_invoke (answer : (r : TrialRequest) → m ((trials α).Answer r))
    (f : Except Failure α → Program (trials α) β) :
    (Trial.invoke.run >>= f).interpret answer =
      answer .invoke >>= fun outcome => (f outcome).interpret answer := rfl

theorem interpret_pause (answer : (r : TrialRequest) → m ((trials α).Answer r)) (seconds : Nat)
    (f : Unit → Program (trials α) β) :
    (Trial.pause seconds >>= f).interpret answer =
      answer (.pause seconds) >>= fun u => (f u).interpret answer := rfl

theorem attempt_eq_interpret (tool : GuardedTool) {I : Interface} (ofReport : String → α)
    (pause : Nat → Program I Unit) (work : Action I α) (done left : Nat) :
    tool.attempt ofReport pause work done left =
      (tool.attempt ofReport Trial.pause Trial.invoke done left).interpret
        (Trial.carryOut pause work) := by
  induction left generalizing done with
  | zero =>
    rw [attempt, attempt, interpret_invoke]
    refine bind_congr fun outcome => ?_
    cases outcome <;> rfl
  | succ left ih =>
    rw [attempt, attempt, interpret_invoke]
    refine bind_congr fun outcome => ?_
    cases outcome with
    | ok a => rfl
    | error failure =>
      simp only
      split
      · rw [interpret_pause]
        exact bind_congr fun _ => ih (done + 1)
      · rfl

theorem isBroken_iff {failure : Failure} :
    isBroken failure = true ↔ IsBroken (.error failure : Except Failure α) := by
  cases failure <;> simp [isBroken, IsBroken]

/-- What a guard makes of these outcomes from the attempt behind `done` on, with so many retries
left, and the number of the last attempt. -/
def playedFrom (tool : GuardedTool) (ofReport : String → α) (outcomes : Nat → Except Failure α)
    (done left : Nat) : Except ToolFailure α × Nat :=
  ((tool.attempt ofReport Trial.pause Trial.invoke done left).interpret
    (Trial.answer outcomes)).run done

section PlayedFrom

variable {tool : GuardedTool} {ofReport : String → α} {outcomes : Nat → Except Failure α}

theorem run_interpret_invoke (f : Except Failure α → Program (trials α) β) (n : Nat) :
    ((Trial.invoke.run >>= f).interpret (Trial.answer outcomes)).run n =
      ((f (outcomes n)).interpret (Trial.answer outcomes)).run (n + 1) := rfl

theorem playedFrom_zero (done : Nat) :
    tool.playedFrom ofReport outcomes done 0 =
      (tool.answerTo ofReport (done + 1) (outcomes done), done + 1) := by
  rw [playedFrom, attempt, run_interpret_invoke]
  cases outcomes done <;> rfl

theorem playedFrom_of_broken {done : Nat} (h : IsBroken (outcomes done)) (left : Nat) :
    tool.playedFrom ofReport outcomes done (left + 1) =
      tool.playedFrom ofReport outcomes (done + 1) left := by
  obtain ⟨text, h⟩ := h
  rw [playedFrom, attempt, run_interpret_invoke, h]
  rfl

theorem playedFrom_of_not_broken {done : Nat} (h : ¬ IsBroken (outcomes done)) (left : Nat) :
    tool.playedFrom ofReport outcomes done (left + 1) =
      (tool.answerTo ofReport (done + 1) (outcomes done), done + 1) := by
  rw [playedFrom, attempt, run_interpret_invoke]
  cases houtcome : outcomes done with
  | ok a => rfl
  | error failure =>
    rw [houtcome, ← isBroken_iff] at h
    simp only [if_neg h]
    rfl

variable (tool ofReport outcomes) in
/-- The attempts from the one behind `done` on: they go on as long as the connection breaks and
retries are left. -/
theorem playedFrom_eq (done left : Nat) :
    ∃ n, done < n ∧ n ≤ done + left + 1 ∧
      (∀ k, done ≤ k → k + 1 < n → IsBroken (outcomes k)) ∧
      (n = done + left + 1 ∨ ¬ IsBroken (outcomes (n - 1))) ∧
      tool.playedFrom ofReport outcomes done left =
        (tool.answerTo ofReport n (outcomes (n - 1)), n) := by
  induction left generalizing done with
  | zero => exact ⟨done + 1, by omega, by omega, by omega, .inl rfl, playedFrom_zero done⟩
  | succ left ih =>
    by_cases hbroken : IsBroken (outcomes done)
    · obtain ⟨n, hlt, hle, hbefore, hlast, hplayed⟩ := ih (done + 1)
      rw [Nat.add_right_comm done 1] at hle hlast
      refine ⟨n, by omega, hle, fun k hk hkn => ?_, hlast, ?_⟩
      · rcases Nat.eq_or_lt_of_le hk with rfl | hk
        · exact hbroken
        · exact hbefore k hk hkn
      · rw [playedFrom_of_broken hbroken, hplayed]
    · exact ⟨done + 1, by omega, by omega, by omega, .inr hbroken,
        playedFrom_of_not_broken hbroken left⟩

/-- A tool that can be tried again is tried until an outcome is no broken connection, three times at
most. Any other tool is tried once. -/
theorem exists_playedOn_eq (tool : GuardedTool) (ofReport : String → α)
    (outcomes : Nat → Except Failure α) :
    ∃ n, (if tool.readOnly then
        IsLeast (insert 3 {i | ∃ k, i = k + 1 ∧ ¬ IsBroken (outcomes k)}) n else n = 1) ∧
      tool.playedOn ofReport outcomes = (tool.answerTo ofReport n (outcomes (n - 1)), n) := by
  obtain ⟨n, hpos, hle, hbefore, hlast, hplayed⟩ :=
    playedFrom_eq tool ofReport outcomes 0 (if tool.readOnly then maxRetries else 0)
  refine ⟨n, ?_, hplayed⟩
  by_cases hread : tool.readOnly
  · rw [if_pos hread, maxRetries] at hle hlast
    rw [if_pos hread]
    constructor
    · rcases hlast with rfl | hlast
      · exact .inl rfl
      · exact .inr ⟨n - 1, by omega, hlast⟩
    · rintro i (rfl | ⟨k, rfl, hk⟩)
      · exact hle
      · exact Nat.le_of_not_lt fun hlt => hk (hbefore k (Nat.zero_le k) hlt)
  · rw [if_neg hread] at hle ⊢
    omega

end PlayedFrom

/-! ## What the caller sees -/

/-- The tool of this name, called with these arguments. -/
def called (name : String) (readOnly : Bool) (arguments : List (String × Json)) : GuardedTool :=
  { name, readOnly
    subject := subjectOf (arguments.lookup "document_id") (arguments.lookup "template_id") }

example (call : ToolCall) :
    call.guarded = called call.tool.name call.tool.readOnly call.arguments := rfl

end GuardedTool

/-- The document that arguments speak of: a document id that is given and not empty, else the
template id, else it is unknown. -/
inductive SpeaksOf (arguments : List (String × Json)) : Json → Prop
  | document {id : Json} (h : arguments.lookup "document_id" = some id) (hid : id.isGiven = true) :
      SpeaksOf arguments id
  | template {id : Json}
      (h : ∀ id', arguments.lookup "document_id" = some id' → id'.isGiven = false)
      (hid : arguments.lookup "template_id" = some id) : SpeaksOf arguments id
  | unknown (h : ∀ id', arguments.lookup "document_id" = some id' → id'.isGiven = false)
      (hid : arguments.lookup "template_id" = none) : SpeaksOf arguments (.str "unknown")

/-- What a failure that reaches the caller is taken for. -/
inductive SeenAs where
  /-- A connection that was given up. -/
  | transient
  /-- A failure of the credentials. -/
  | credentials
  /-- A failure of no kind of its own. -/
  | plain
  /-- The failure that the tool stopped with. -/
  | itself (failure : Failure)

/-- What a failure of a guarded tool is taken for. -/
def ToolFailure.seenAs : ToolFailure → SeenAs
  | .passed (.transient _) => .transient
  | .passed (.credentials _) => .credentials
  | .passed failure => .itself failure
  | .gaveUp .. => .transient
  | .reported .. => .plain

/-- A failure that has no answer of its own, and the words in which it came: neither an error of the
engine, nor a document that the service does not know, nor a failure of the connection or of the
credentials. -/
inductive Failure.Unforeseen : Failure → String → Prop
  | refused {status : Int} (text : String) (h : status ≠ 404) : Unforeseen (.http status text) text
  | fault (f : Fault) : Unforeseen (.fault f) f.message
  | undecodable (e : Utf8Error) : Unforeseen (.undecodable e) e.message
  | unwritable (path : String) (e : PathError) : Unforeseen (.unwritable path e) (e.message path)
  | other (kind text : String) : Unforeseen (.other kind text) text

/-- The cause of an error about a document that the service does not know. -/
def missingDocument (subject : Json) : Cause :=
  ⟨"DOCUMENT_NOT_FOUND", [String.ofList subject.shown],
    [("received", .obj [("document_id", subject)])]⟩

/-- What the caller of a tool gets to see if this is the outcome of the last of `n` invocations. -/
inductive Sees (arguments : List (String × Json)) (ofReport : String → α) (n : Nat) :
    Except Failure α → Except ToolFailure α → Prop
  | value (a : α) : Sees arguments ofReport n (.ok a) (.ok a)
  | report (e : EngineError) {text : String} (h : e.cause.ToldIn text)
      (hrecord : ∀ record, Json.Denotes text.toList record → e.report.RecordedBy record) :
      Sees arguments ofReport n (.error (.engine e)) (.ok (ofReport text))
  | unknownDocument (message : String) {subject : Json} {text : String}
      (h : SpeaksOf arguments subject) (htold : (missingDocument subject).ToldIn text) :
      Sees arguments ofReport n (.error (.http 404 message)) (.ok (ofReport text))
  | gaveUp (text : String) {failure : ToolFailure} (h : failure.seenAs = .transient)
      (hmessage : Mentions failure.message s!"after {n} attempt(s)") :
      Sees arguments ofReport n (.error (.connection text)) (.error failure)
  | transient (text : String) :
      Sees arguments ofReport n (.error (.transient text)) (.error (.passed (.transient text)))
  | credentials (text : String) :
      Sees arguments ofReport n (.error (.credentials text)) (.error (.passed (.credentials text)))
  | reported {failure : Failure} {words : String} {seen : ToolFailure}
      (h : failure.Unforeseen words) (hseen : seen.seenAs = .plain)
      (hmessage : Mentions seen.message words) :
      Sees arguments ofReport n (.error failure) (.error seen)

/-- This failure of a tool reaches the caller as it is, and is none of those that pass through. -/
def Escapes (seen : Except ToolFailure α) (failure : Failure) : Prop :=
  ∃ f, seen = .error f ∧ f.seenAs = .itself failure

theorem Sees.not_escapes {arguments : List (String × Json)} {ofReport : String → α} {n : Nat}
    {outcome : Except Failure α} {seen : Except ToolFailure α}
    (h : Sees arguments ofReport n outcome seen) (failure : Failure) : ¬ Escapes seen failure := by
  rintro ⟨f, hf, hescapes⟩
  cases h with
  | value => cases hf
  | report => cases hf
  | unknownDocument => cases hf
  | gaveUp text hseen =>
    obtain rfl := Except.error.inj hf
    exact absurd (hseen.symm.trans hescapes) (by simp)
  | transient => obtain rfl := Except.error.inj hf; cases hescapes
  | credentials => obtain rfl := Except.error.inj hf; cases hescapes
  | reported hother hseen =>
    obtain rfl := Except.error.inj hf
    exact absurd (hseen.symm.trans hescapes) (by simp)

theorem speaksOf_subjectOf (arguments : List (String × Json)) :
    SpeaksOf arguments
      (subjectOf (arguments.lookup "document_id") (arguments.lookup "template_id")) := by
  unfold subjectOf
  split
  · next id h =>
    obtain ⟨hlookup, hid⟩ := Option.filter_eq_some_iff.1 h
    exact .document hlookup hid
  · next h =>
    have hempty := fun id' hlookup =>
      Bool.eq_false_iff.2 (Option.filter_eq_none_iff.1 h id' hlookup)
    cases htemplate : arguments.lookup "template_id" with
    | some id => exact .template hempty htemplate
    | none => exact .unknown hempty htemplate

theorem mentions_gaveUp (tool : String) (n : Nat) (failure : Failure) :
    Mentions (ToolFailure.gaveUp tool n failure).message s!"after {n} attempt(s)" := by
  show Mentions _ ("after " ++ toString n ++ " attempt(s)")
  have hafter : "' after " = "' " ++ "after " := by decide
  have hattempts : " attempt(s). " = " attempt(s)" ++ ". " := by decide
  have hmessage : (ToolFailure.gaveUp tool n failure).message =
      "A transient SSL error occurred in '" ++ tool ++ "' after " ++ toString n ++
        " attempt(s). " ++
        "This is likely a temporary network or certificate issue. Please try again shortly." := rfl
  refine ⟨"A transient SSL error occurred in '" ++ tool ++ "' ", ". " ++
    "This is likely a temporary network or certificate issue. Please try again shortly.", ?_⟩
  rw [hmessage, hafter, hattempts]
  simp only [String.append_assoc]

theorem mentions_reported (tool : String) {failure : Failure} {words : String}
    (h : failure.Unforeseen words) :
    Mentions (ToolFailure.reported tool failure).message words := by
  cases h with
  | refused => exact .left (.right (.self _))
  | _ => exact .right (.self _)

/-- The report on a document that the service does not know tells which one it is. -/
theorem toldBy_unknownDocument (subject : Json) :
    (missingDocument subject).ToldBy (DocTemplate.unknownDocument subject) where
  error := rfl
  code := rfl
  message := ⟨_, rfl, List.forall_mem_singleton.2 (.left (.right (.self _)))⟩
  reason := ⟨_, rfl, by decide⟩
  suggestion := ⟨_, rfl, by decide⟩
  context := ⟨_, rfl, List.forall_mem_singleton.2 rfl⟩

namespace GuardedTool

theorem sees_answerTo (name : String) (readOnly : Bool) (arguments : List (String × Json))
    (ofReport : String → α) (n : Nat) (outcome : Except Failure α) :
    Sees arguments ofReport n outcome
      ((called name readOnly arguments).answerTo ofReport n outcome) := by
  have hreported : ∀ {failure : Failure} {words : String}, failure.Unforeseen words →
      Sees arguments ofReport n (.error failure) (.error (.reported name failure)) :=
    fun h => .reported h rfl (mentions_reported name h)
  cases outcome with
  | ok a => exact .value a
  | error failure =>
    cases failure with
    | engine e => exact .report e e.toldBy_toJson.toldIn fun _ => e.recordedBy_of_denotes
    | http status text =>
      rw [answerTo, settle]
      split
      · next h =>
        obtain rfl := eq_of_beq h
        exact .unknownDocument text (speaksOf_subjectOf arguments)
          (toldBy_unknownDocument _).toldIn
      · next h => exact hreported (.refused text fun heq => h (beq_iff_eq.2 heq))
    | connection text => exact .gaveUp text rfl (mentions_gaveUp _ _ _)
    | transient text => exact .transient text
    | credentials text => exact .credentials text
    | fault f => exact hreported (.fault f)
    | undecodable e => exact hreported (.undecodable e)
    | unwritable path e => exact hreported (.unwritable path e)
    | other kind text => exact hreported (.other kind text)

/-- **A guarded tool in terms of its outcomes**: how often it is invoked, and that what the caller
gets to see depends on the number of invocations and the last outcome alone. No failure that a tool
stops with reaches the caller as it is, unless it is one that passes through. Whatever the tool is,
guarding it is invoking it and waiting, as the guard asks for it. -/
theorem playedOn_called (name : String) (arguments : List (String × Json))
    (ofReport : String → α) :
    ∃ answer : Nat → Except Failure α → Except ToolFailure α,
      (∀ n outcome, Sees arguments ofReport n outcome (answer n outcome)) ∧
      (∀ n outcome failure, ¬ Escapes (answer n outcome) failure) ∧
      (∀ readOnly outcomes, ∃ n,
        (if readOnly then
          IsLeast (insert 3 {i | ∃ k, i = k + 1 ∧ ¬ IsBroken (outcomes k)}) n else n = 1) ∧
        (called name readOnly arguments).playedOn ofReport outcomes =
          (answer n (outcomes (n - 1)), n)) ∧
      ∀ readOnly (I : Interface) (pause : Nat → Program I Unit) (work : Action I α),
        (called name readOnly arguments).run ofReport pause work =
          ((called name readOnly arguments).trial ofReport).interpret
            (Trial.carryOut pause work) := by
  have hsees := sees_answerTo name true arguments ofReport
  refine ⟨(called name true arguments).answerTo ofReport, hsees,
    fun n outcome => (hsees n outcome).not_escapes, fun readOnly outcomes => ?_,
    fun readOnly I pause work => attempt_eq_interpret _ ofReport pause work _ _⟩
  obtain ⟨n, hn, hplayed⟩ := exists_playedOn_eq (called name readOnly arguments) ofReport outcomes
  refine ⟨n, hn, hplayed.trans ?_⟩
  cases outcomes (n - 1) <;> rfl

/-- Arguments that name a document and a template. -/
def missingArguments : List (String × Json) :=
  [("document_id", .str "doc-1"), ("template_id", .str "doc-2")]

/-- The connection breaks once, and then the service does not know the document. -/
def brokenThenMissing : Nat → Except Failure String
  | 0 => .error (.connection "handshake")
  | _ => .error (.http 404 "File not found")

/-- The record of the answer to this. -/
def missingRecord : Json :=
  .obj [("error", .bool true),
    ("code", .str "DOCUMENT_NOT_FOUND"),
    ("message", .str "Document 'doc-1' was not found"),
    ("reason",
      .str "The document ID may be incorrect or you may not have access to this document."),
    ("suggestion",
      .str ("Verify the document ID is correct. You can find the ID in the document's URL: " ++
        "docs.google.com/document/d/\x7bdocument_id\x7d/edit")),
    ("context",
      .obj [("received", .obj [("document_id", .str "doc-1")]),
        ("possible_causes",
          .arr [.str "Document ID is incorrect", .str "Document was deleted",
            .str "You don't have permission to access this document"])])]

theorem playedOn_called_missing :
    (called "scan_template" true missingArguments).playedOn id brokenThenMissing =
        (.ok (missingRecord.render (some 2)), 2) ∧
      Sees missingArguments id 2 (brokenThenMissing 1) (.ok (missingRecord.render (some 2))) := by
  have hmessage : "Document '" ++ String.ofList (Json.str "doc-1").shown ++ "' was not found" =
      "Document 'doc-1' was not found" := by decide
  have hrecord : DocTemplate.unknownDocument (.str "doc-1") = missingRecord := by
    rw [missingRecord, ← hmessage]
    rfl
  have hplayed : (called "scan_template" true missingArguments).playedOn id brokenThenMissing =
      (.ok (missingRecord.render (some 2)), 2) := hrecord ▸ rfl
  obtain ⟨answer, hsees, -, hruns, -⟩ := playedOn_called "scan_template" missingArguments id
  obtain ⟨n, -, hn⟩ := hruns true brokenThenMissing
  obtain ⟨hanswer, rfl⟩ := Prod.mk.inj (hplayed.symm.trans hn)
  exact ⟨hplayed, hanswer ▸ hsees 2 (brokenThenMissing 1)⟩

/-- A tool that only reads is tried three times while its connection breaks. -/
example : ((called "scan_template" true []).playedOn id fun _ =>
    .error (.connection "handshake")).2 = 3 := rfl

end GuardedTool

end DocTemplate
