import BusNode.Disk.Path
/-!
# Disks

The files below a directory, and the primitives that an export writes them with. A path is walked component by
component, so `..` needs the directory before it. A primitive that fails leaves the disk as it is, but for the
directories made or emptied on the way.

* `Disk.find?` — what is at a place, with one equation for each case of `Disk.set`;
* `Disk.locate` — the place that a path leads to;
* `Disk.createDirs`, `Disk.stage`, `Disk.persist`, `Disk.remove` — the primitives.
-/

namespace BusNode

/-- Why a primitive fails. -/
inductive DiskError where
  | notFound
  | alreadyExists
  | notDirectory
  | isDirectory
  | invalid
  | nameTooLong
  deriving DecidableEq, Repr

/-- The text of an error and its number. -/
def DiskError.message : DiskError → String
  | .notFound => "No such file or directory (os error 2)"
  | .alreadyExists => "File exists (os error 17)"
  | .notDirectory => "Not a directory (os error 20)"
  | .isDirectory => "Is a directory (os error 21)"
  | .invalid => "Invalid argument (os error 22)"
  | .nameTooLong => "File name too long (os error 36)"

/-- The longest name of a file or directory in bytes. -/
def maxNameLength : Nat := 255

/-- The longest spelling of a path in bytes. -/
def maxPathLength : Nat := 4095

/-- A name as long as that of a file that is written before it gets its own. -/
def stagedName : String := ".tmp000000"

/-- Where a file or directory is: the names from the root down. -/
abbrev Location := List String

inductive DiskEntry where
  | directory
  | file (text : String)
  deriving DecidableEq, Repr

/-- A file that has no name of its own yet. -/
structure StagedFile where
  directory : Location
  text : String
  deriving DecidableEq, Repr

structure Disk where
  /-- Everything below the root, each place once. -/
  entries : List (Location × DiskEntry)
  staged : List StagedFile
  deriving DecidableEq, Repr

namespace Disk

def empty : Disk := ⟨[], []⟩

/-! ## Places -/

/-- The root is a directory. -/
def find? (d : Disk) (x : Location) : Option DiskEntry :=
  if x = [] then some .directory else (d.entries.find? (·.1 = x)).map (·.2)

def isDirectory (d : Disk) (x : Location) : Bool := d.find? x = some .directory

/-- Sets an entry, where the place has one in its stead. -/
def set (d : Disk) (x : Location) (e : DiskEntry) : Disk :=
  { d with
    entries := if d.entries.any (·.1 = x) then d.entries.map fun y => if y.1 = x then (x, e) else y
      else d.entries ++ [(x, e)] }

theorem find?_set_self (d : Disk) {x : Location} (h : x ≠ []) (e : DiskEntry) : (d.set x e).find? x = some e := by
  have replaced : ∀ l : List (Location × DiskEntry), l.any (·.1 = x) = true →
      (l.map fun y => if y.1 = x then (x, e) else y).find? (·.1 = x) = some (x, e) := by
    intro l
    induction l with
    | nil => simp
    | cons y l ih =>
      by_cases hy : y.1 = x
      · simp [hy]
      · simpa [hy] using ih
  unfold set find?
  by_cases ha : d.entries.any (·.1 = x)
  · simp only [h, if_false, ha, if_true, replaced d.entries ha, Option.map_some]
  · have absent : d.entries.find? (·.1 = x) = none :=
      List.find?_eq_none.2 fun y hy hyx => ha (List.any_eq_true.2 ⟨y, hy, hyx⟩)
    simp [h, ha, List.find?_append, absent]

theorem find?_set_of_ne (d : Disk) {x y : Location} (h : y ≠ x) (e : DiskEntry) :
    (d.set x e).find? y = d.find? y := by
  have kept : ∀ l : List (Location × DiskEntry),
      (l.map fun z => if z.1 = x then (x, e) else z).find? (·.1 = y) = l.find? (·.1 = y) := by
    intro l
    induction l with
    | nil => rfl
    | cons z l ih =>
      by_cases hz : z.1 = x
      · simp [hz, Ne.symm h, ih]
      · by_cases hy : z.1 = y <;> simp [hz, hy, h, ih]
  unfold set find?
  by_cases ha : d.entries.any (·.1 = x)
  · simp only [ha, if_true, kept]
  · simp [ha, List.find?_append, Ne.symm h]

/-- Drops a place and all that is below it. -/
def erase (d : Disk) (x : Location) : Disk := { d with entries := d.entries.filter fun y => !x.isPrefixOf y.1 }

/-- Drops all that is below a place. -/
def clear (d : Disk) (x : Location) : Disk :=
  { d with entries := d.entries.filter fun y => y.1 = x || !x.isPrefixOf y.1 }

/-! ## Paths on a disk -/

/-- Where a component leads from a place, which has to be a directory. -/
def follow (d : Disk) (x : Location) (c : String) : Except DiskError Location :=
  if !d.isDirectory x then .error .notDirectory
  else if Path.isIdle c then .ok x
  else if c = ".." then .ok x.dropLast
  else if maxNameLength < c.utf8ByteSize then .error .nameTooLong
  else if (d.find? (x ++ [c])).isNone then .error .notFound
  else .ok (x ++ [c])

/-- The place that a path leads to; something is there. -/
def locate (d : Disk) (p : Path) : Except DiskError Location :=
  if maxPathLength < p.byteLength then .error .nameTooLong else p.foldlM d.follow []

/-- The place that a path leads to or, where only its last name is missing, could lead to. -/
def slot (d : Disk) (p : Path) : Except DiskError Location :=
  if maxPathLength < p.byteLength then .error .nameTooLong
  else do
    let x ← p.dropLast.foldlM d.follow []
    let c := p.getLastD ""
    match d.follow x c with
    | .error .notFound => .ok (x ++ [c])
    | r => r

/-- The text of a file. -/
def read? (d : Disk) (p : Path) : Option String :=
  match d.locate p with
  | .ok x => match d.find? x with
    | some (.file text) => some text
    | _ => none
  | .error _ => none

/-! ## Primitives -/

/-- What a primitive comes to, and the disk after it. -/
abbrev Effect := Except DiskError Unit × Disk

/-- The whole effect or none. -/
def commit (d : Disk) : Except DiskError Disk → Effect
  | .ok d' => (.ok (), d')
  | .error e => (.error e, d)

/-- Makes a directory that is not there. -/
def createDir (d : Disk) (p : Path) : Except DiskError Disk := do
  let x ← d.slot p.withoutTrailingSlash
  if (d.find? x).isSome then .error .alreadyExists else .ok (d.set x .directory)

/-- Makes a directory if it is not there. -/
def ensureDir (d : Disk) (p : Path) : Except DiskError Disk :=
  match d.createDir p with
  | .ok d' => .ok d'
  | .error e => match d.locate p with
    | .ok x => if d.isDirectory x then .ok d else .error e
    | .error _ => .error e

/-- Makes a directory; only where something on the way to it is missing, the directories above it are made first. -/
def createDirsBelow (d : Disk) (p : Path) : List Path → Effect
  | [] => d.commit (d.ensureDir p)
  | q :: qs =>
    match d.ensureDir p with
    | .error .notFound =>
      match d.createDirsBelow q qs with
      | (.ok (), d') => d'.commit (d'.ensureDir p)
      | failed => failed
    | r => d.commit r

def createDirs (d : Disk) (p : Path) : Effect := d.createDirsBelow p p.outers

/-- Writes a text to a file without a name of its own. -/
def stage (d : Disk) (folder : Path) (text : String) : Effect :=
  d.commit do
    let x ← d.slot (folder.child stagedName)
    .ok { d with staged := d.staged ++ [⟨x.dropLast, text⟩] }

/-- Drops all files without a name of their own. -/
def dropAllStaged (d : Disk) : Disk := { d with staged := [] }

/-- The place of a file that is there or can be made. -/
def fileSlot (d : Disk) (p : Path) : Except DiskError Location := do
  let x ← d.slot p
  if d.isDirectory x then .error .isDirectory else .ok x

/-- Gives the first file without a name its path, in place of a file that is there. -/
def persist (d : Disk) (p : Path) : Effect :=
  match d.staged with
  | [] => (.error .notFound, d)
  | s :: rest => d.commit ((d.fileSlot p).map fun x => { d.set x (.file s.text) with staged := rest })

/-- Writes a file directly. -/
def write (d : Disk) (p : Path) (text : String) : Effect :=
  d.commit ((d.fileSlot p).map fun x => d.set x (.file text))

/-- Removes a file, or a directory with all that is in it. A directory is emptied before it is removed under the same
path, so one that the path reaches through itself stays, and so does one that is called `.`. -/
def remove (d : Disk) (p : Path) : Effect :=
  match d.locate p with
  | .error e => (.error e, d)
  | .ok x =>
    if !d.isDirectory x then (.ok (), d.erase x)
    else match (d.clear x).locate p with
      | .error _ => (.ok (), d.clear x)
      | .ok _ =>
        if p.withoutTrailingSlash.getLast? = some "." then (.error .invalid, d.clear x) else (.ok (), d.erase x)

end Disk

end BusNode
