import Swactor.Namespace.Directory

/-!
# Logical paths and what a session may do with them

A path is an absolute text without empty and dot segments. A session has its own execution id,
which stands for `self` in the paths under `/runs`, and lists of paths below which it may read
and write.

The directory only compares paths and has numbers for them; `DataPath.number` numbers the texts.
-/
namespace Swactor.Paths

inductive DataPathError
  | notAbsolute
  | emptySegment
  | dotSegment
  | nul
  | rootNotData
  | invalidExecutionId
deriving DecidableEq, Repr

def DataPathError.display : DataPathError → String
  | .notAbsolute => "data path must be absolute"
  | .emptySegment => "data path contains an empty segment"
  | .dotSegment => "data path contains a dot segment"
  | .nul => "data path contains NUL"
  | .rootNotData => "the root path does not name data"
  | .invalidExecutionId => "execution id must be one non-dot path segment"

/-- The first fault of a segment. -/
def segmentFault (segment : List Char) : Option DataPathError :=
  if segment = [] then some .emptySegment
  else if segment = ['.'] ∨ segment = ['.', '.'] then some .dotSegment
  else none

/-- Why a text is no path. -/
def fault (text : List Char) : Option DataPathError :=
  if text.head? ≠ some '/' then some .notAbsolute
  else if text = ['/'] then some .rootNotData
  else if Char.ofNat 0 ∈ text then some .nul
  else (text.tail.splitOn '/').findSome? segmentFault

structure DataPath where
  text : List Char
  wellFormed : fault text = none
deriving DecidableEq

namespace DataPath

def parse (text : List Char) : Except DataPathError DataPath :=
  match h : fault text with
  | none => .ok ⟨text, h⟩
  | some error => .error error

def startsWith (path base : DataPath) : Bool :=
  path.text = base.text ||
    base.text.isPrefixOf path.text && (path.text.drop base.text.length).head? = some '/'

/-- The number of a path in the directory. -/
def number (path : DataPath) : Namespace.DataPath :=
  Encodable.encode (path.text.map Char.toNat)

theorem number_injective : Function.Injective number := by
  intro path other hsame
  have hcodes : path.text.map Char.toNat = other.text.map Char.toNat :=
    Encodable.encode_injective hsame
  have htext : path.text = other.text := by
    apply List.map_injective_iff.mpr _ hcodes
    intro a b hab
    exact Char.toNat_inj.mp hab
  cases path
  cases htext
  rfl

end DataPath

structure SessionAccess where
  executionId : List Char
  readPrefixes : List DataPath
  writePrefixes : List DataPath
deriving DecidableEq

namespace SessionAccess

variable (access : SessionAccess) (path : DataPath)

def validate : Except DataPathError Unit :=
  if access.executionId = [] ∨ '/' ∈ access.executionId ∨ access.executionId = ['.'] ∨
      access.executionId = ['.', '.'] ∨ Char.ofNat 0 ∈ access.executionId then
    .error .invalidExecutionId
  else .ok ()

/-- The paths under `/runs/self` are those of the execution. -/
def resolve (logical : DataPath) : Except DataPathError DataPath := do
  access.validate
  let self := "/runs/self".toList
  let runs := "/runs/".toList ++ access.executionId
  if logical.text = self then DataPath.parse runs
  else if (self ++ ['/']).isPrefixOf logical.text then
    DataPath.parse (runs ++ logical.text.drop self.length)
  else DataPath.parse logical.text

def canRead : Bool :=
  access.readPrefixes.any path.startsWith

def canWrite : Bool :=
  access.writePrefixes.any path.startsWith

end SessionAccess

end Swactor.Paths
