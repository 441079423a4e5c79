import DocTemplate.Marker.Basic
import DocTemplate.Marker.Gaps

/-!
# Finding markers

Finds the markers in a text. Asset sections come first, then section markers, then variables; each
later search covers only the gaps that the earlier ones leave, so a variable inside an asset section
is no variable of the document, and no two markers overlap.

Within a gap the leftmost matches that do not overlap are taken. A tag is its opening literal, a
name of at least one character that does not hold the closing character, and the closing character
twice. An asset section runs from an opening tag to the first closing tag of exactly the same name.
-/

namespace DocTemplate

/-! ## Tags -/

/-- What a variable starts with. -/
def variableOpening : Text :=
  ['\x7b', '\x7b']

/-- What a section marker starts with. -/
def sectionOpening : Text :=
  ['[', '[', 's', 'e', 'c', 't', 'i', 'o', 'n', ':']

/-- What the name in the opening tag of an asset section starts with. -/
def assetOpenStart : Text :=
  ['#', 'A', 'S', 'S', 'E', 'T', '_', 'S', 'E', 'C', 'T', 'I', 'O', 'N', ':']

/-- What the name in the closing tag of an asset section starts with. -/
def assetCloseStart : Text :=
  '/' :: assetOpenStart

/-- What the opening tag of an asset section starts with. -/
def assetOpening : Text :=
  variableOpening ++ assetOpenStart

/-- What the closing tag of an asset section starts with. -/
def assetClosing : Text :=
  variableOpening ++ assetCloseStart

/-- The tag at the start of a text: the name between `opening` and a double `closing`, and the
length of the whole tag. -/
def tag (opening : Text) (closing : Char) (t : Text) : Option (Text × Nat) := do
  let body ← Text.stripStart opening t
  let _ ← Text.stripStart [closing, closing] (body.dropWhile (· ≠ closing))
  let name := body.takeWhile (· ≠ closing)
  if name.isEmpty then none else some (name, opening.length + name.length + 2)

/-- What stands in a text before the first occurrence of `mark`. -/
def before? (mark : Text) (t : Text) : Option Text :=
  match Text.stripStart mark t with
  | some _ => some []
  | none =>
    match t with
    | [] => none
    | c :: rest => (before? mark rest).map (c :: ·)

/-- The closing tag of the asset section whose opening tag holds `name`. -/
def closingTag (name : Text) : Text :=
  assetClosing ++ name ++ ['\x7d', '\x7d']

/-- The asset section at the start of a text: its name, what stands inside it, and its length. -/
def assetSection (t : Text) : Option ((Text × Text) × Nat) := do
  let (name, size) ← tag assetOpening '\x7d' t
  let inner ← before? (closingTag name) (t.drop size)
  return ((name, inner), size + inner.length + (closingTag name).length)

/-! ## The three searches -/

/-- The asset sections of a text. -/
def findAssetBlocks (t : Text) : List AssetBlock :=
  (Text.scanFrom assetSection 0 0 t).map fun found =>
    { name := found.value.1.trim
      template := found.value.2.trim
      raw := t.slice found.start found.stop
      start := found.start
      stop := found.stop }

/-- The matches of a search in the gaps that `taken` leaves. -/
def findInGaps {α : Type} (find : Text → Option (α × Nat)) (t : Text) (taken : List (Int × Int)) :
    List (Text.Found α) :=
  (gaps t.length taken).flatMap fun (start, stop) => t.scanWithin find start stop

/-- The section markers in the gaps that `taken` leaves. -/
def findSectionMarkers (t : Text) (taken : List (Int × Int)) : List SectionMarker :=
  (findInGaps (tag sectionOpening ']') t taken).map fun found =>
    { name := found.value.trim
      raw := t.slice found.start found.stop
      start := found.start
      stop := found.stop }

/-- Whether the content of a variable is that of a tag left over from an asset section. -/
def isAssetTag (content : Text) : Bool :=
  (Text.stripStart assetOpenStart content).isSome ||
    (Text.stripStart assetCloseStart content).isSome

/-- The variable that a match stands for. Left-over tags of asset sections and matches without a
name are none. -/
def variableOf (t : Text) (found : Text.Found Text) : Option Variable :=
  let content := found.value.trim
  let (name, declared) := splitContent content
  if isAssetTag content || name.isEmpty then none
  else some
    { name := name
      placeholder := t.slice found.start found.stop
      type := .ofDeclared declared
      start := found.start
      stop := found.stop
      declaredType := declared }

/-- The variables in the gaps that `taken` leaves. -/
def findVariables (t : Text) (taken : List (Int × Int)) : List Variable :=
  (findInGaps (tag variableOpening '\x7d') t taken).filterMap (variableOf t)

/-! ## All markers -/

/-- The ranges of asset sections. -/
def rangesOfBlocks (blocks : List AssetBlock) : List (Int × Int) :=
  blocks.map fun b => ((b.start : Int), (b.stop : Int))

/-- The ranges of section markers. -/
def rangesOfMarkers (markers : List SectionMarker) : List (Int × Int) :=
  markers.map fun m => ((m.start : Int), (m.stop : Int))

/-- The markers of a text, ordered by where they start. -/
def tokenize (t : Text) : List Token :=
  let blocks := findAssetBlocks t
  let markers := findSectionMarkers t (rangesOfBlocks blocks)
  let vars := findVariables t (rangesOfBlocks blocks ++ rangesOfMarkers markers)
  (blocks.map Token.assetBlock ++ markers.map Token.sectionMarker ++
    vars.map Token.var).mergeSort fun a b => a.start ≤ b.start

end DocTemplate
