import DocTemplate.Text.Blank
import DocTemplate.Text.Lowercase

/-!
# Markers

The three kinds of markers that a template can hold, as they are found in its linear text:

* a variable, `name` or `name:type` between double braces;
* an asset section, a block between an opening and a closing tag of the same name;
* a section marker, which a table takes the place of.

Every marker keeps the literal it was written as and the range of offsets where it stands.
-/

namespace DocTemplate

/-- The types that a variable can be declared with. -/
inductive VariableType where
  | text | number | date | email
  deriving DecidableEq, Repr

namespace VariableType

/-- The name of a type. -/
def name : VariableType → Text
  | text => ['t', 'e', 'x', 't']
  | number => ['n', 'u', 'm', 'b', 'e', 'r']
  | date => ['d', 'a', 't', 'e']
  | email => ['e', 'm', 'a', 'i', 'l']

/-- All types, in the order in which they are listed. -/
def all : List VariableType :=
  [text, number, date, email]

/-- The type that a declaration names in any case; text if there is none, or none of that name. -/
def ofDeclared : Option Text → VariableType
  | none => text
  | some declared => (all.find? (·.name == declared.lower)).getD text

end VariableType

/-- A variable. -/
structure Variable where
  name : Text
  placeholder : Text
  type : VariableType
  start : Nat
  stop : Nat
  declaredType : Option Text

/-- An asset section: a block with the template inside it. -/
structure AssetBlock where
  name : Text
  template : Text
  raw : Text
  start : Nat
  stop : Nat

/-- A marker whose place a table takes. -/
structure SectionMarker where
  name : Text
  raw : Text
  start : Nat
  stop : Nat

/-- A marker of one of the three kinds. -/
inductive Token where
  | var (v : Variable)
  | assetBlock (b : AssetBlock)
  | sectionMarker (m : SectionMarker)

namespace Token

/-- Where a marker starts. -/
def start : Token → Nat
  | var v => v.start
  | assetBlock b => b.start
  | sectionMarker m => m.start

/-- Where a marker stops. -/
def stop : Token → Nat
  | var v => v.stop
  | assetBlock b => b.stop
  | sectionMarker m => m.stop

/-- The literal of a marker. -/
def literal : Token → Text
  | var v => v.placeholder
  | assetBlock b => b.raw
  | sectionMarker m => m.raw

/-- The variable that a marker is, if it is one. -/
def var? : Token → Option Variable
  | var v => some v
  | _ => none

/-- The asset section that a marker is, if it is one. -/
def assetBlock? : Token → Option AssetBlock
  | assetBlock b => some b
  | _ => none

/-- The section marker that a marker is, if it is one. -/
def sectionMarker? : Token → Option SectionMarker
  | sectionMarker m => some m
  | _ => none

end Token

/-- The name and the declared type that the content of a variable stands for. They are parted by the
first colon and trimmed; nothing behind the colon is no declaration. -/
def splitContent (content : Text) : Text × Option Text :=
  let trimmed := content.trim
  let name := Text.trim (trimmed.takeWhile (· ≠ ':'))
  let declared := Text.trim ((trimmed.dropWhile (· ≠ ':')).drop 1)
  (name, if declared.isEmpty then none else some declared)

end DocTemplate
