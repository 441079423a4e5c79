import DocTemplate.Text.CaseTable

/-!
# Lower case

Lower-casing a whole text. Every character has one lower-case partner or none, with two
exceptions. A dotted capital I becomes an i and a combining dot. A capital sigma becomes a final
sigma at the end of a word and a plain one elsewhere: it ends a word if, passing over the
characters that are ignorable for case, a cased character stands before it and none stands after.
-/

namespace DocTemplate

/-- Whether a character is cased and is not passed over. -/
def isCased (c : Char) : Bool :=
  inRanges c.toNat casedRanges

/-- Whether a character is passed over when the neighbours of a sigma are looked for. -/
def isCaseIgnorable (c : Char) : Bool :=
  inRanges c.toNat caseIgnorableRanges

/-- The lower-case partner of a character, or the character itself. -/
def lowerChar (c : Char) : Char :=
  match findRun c.toNat caseRuns with
  | some r => Char.ofNat (c.toNat + r.distance).toNat
  | none => c

namespace Text

/-- Whether the first character that is not passed over is cased. -/
def startsCased (t : Text) : Bool :=
  match t.dropWhile isCaseIgnorable with
  | c :: _ => isCased c
  | [] => false

/-- The lower-case form of a text; `afterCased` says whether the last character before it that is
not passed over is cased. -/
def lowerFrom (afterCased : Bool) : Text → Text
  | [] => []
  | c :: rest =>
    let after := if isCaseIgnorable c then afterCased else isCased c
    if c = '\u03a3' then
      (if afterCased && !startsCased rest then '\u03c2' else '\u03c3') :: lowerFrom after rest
    else if c = '\u0130' then 'i' :: '\u0307' :: lowerFrom after rest
    else lowerChar c :: lowerFrom after rest

/-- The lower-case form of a text. -/
def lower (t : Text) : Text :=
  lowerFrom false t

example : lower ['A', '\u03a3'] = ['a', '\u03c2'] := by decide +kernel

example : lower ['A', '\u03a3', '.', 'b'] = ['a', '\u03c3', '.', 'b'] := by decide +kernel

end Text

end DocTemplate
