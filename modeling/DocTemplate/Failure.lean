import DocTemplate.Error
import DocTemplate.Folder
import DocTemplate.Text.Utf8

/-!
# Failures

Everything that can stop a piece of work: an error of the engine, data of the wrong shape, or a
failure that a service answered with.
-/

namespace DocTemplate

/-- Why a piece of work stopped. -/
inductive Failure where
  /-- An error of the engine. -/
  | engine (e : EngineError)
  /-- Data of the wrong shape. -/
  | fault (f : Fault)
  /-- The service refused the request with this status. -/
  | http (status : Int) (text : String)
  /-- The secure connection broke. -/
  | connection (text : String)
  /-- The connection kept breaking, and the work was given up. -/
  | transient (text : String)
  /-- There are no usable credentials. -/
  | credentials (text : String)
  /-- Exported bytes are not the UTF-8 form of a text. -/
  | undecodable (e : Utf8Error)
  /-- A file could not be written at this path. -/
  | unwritable (path : String) (e : PathError)
  /-- Any other failure, under the name that the service gave it. -/
  | other (kind text : String)
  deriving Repr

/-- The failure in words. -/
def Failure.message : Failure → String
  | engine e => e.message
  | fault f => f.message
  | http _ text => text
  | connection text => text
  | transient text => text
  | credentials text => text
  | undecodable e => e.message
  | unwritable path e => e.message path
  | other _ text => text

end DocTemplate
