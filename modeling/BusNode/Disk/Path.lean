/-!
# Paths

Paths as they are spelled. Nothing is folded here: where `.`, `..` and repeated separators lead is for the disk to say.

* `Path.outers` — the directories above a path by its spelling.
-/

namespace BusNode

/-- The components of a path as it is spelled, the empty ones too. -/
abbrev Path := List String

/-- A path below a directory; an absolute one replaces it. -/
def joinPath (dir path : String) : String :=
  if path.startsWith "/" then path
  else if dir = "" ∨ dir.endsWith "/" then dir ++ path
  else dir ++ "/" ++ path

namespace Path

def ofString (s : String) : Path := (s.toList.splitOn '/').map String.ofList

/-- The length of the spelling in bytes. -/
def byteLength (p : Path) : Nat := ("/".intercalate p).utf8ByteSize

/-- Whether a component stays where it is. -/
def isIdle (c : String) : Bool := c = "" || c = "."

/-- Without the separators at the end. -/
def withoutTrailingSlash (p : Path) : Path := (p.reverse.dropWhile (· = "")).reverse

/-- A name in the directory of a path. -/
def child (p : Path) (name : String) : Path := (if p.getLast? = some "" then p.dropLast else p) ++ [name]

/-- The directories above a path that is given from its end: at each component that leads anywhere, what stands
before it, without idle components at its end. -/
def outersOfReverse : List String → List Path
  | [] => []
  | c :: r => if isIdle c then outersOfReverse r else (r.dropWhile isIdle).reverse :: outersOfReverse r

/-- The directories above a path by its spelling, the nearest first. -/
def outers (p : Path) : List Path := outersOfReverse p.reverse

end Path

end BusNode
