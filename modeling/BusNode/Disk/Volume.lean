import BusNode.Disk.Basic
/-!
# Volumes

A disk whose primitives may fail beside those that must: which ones do is a pattern of faults.

* `Volume.attempt` — a primitive under the pattern.
-/

namespace BusNode

/-- A disk, and for each coming primitive the fault it meets, if any; beyond the pattern there is none. -/
structure Volume where
  disk : Disk
  faults : List (Option DiskError)
  deriving DecidableEq, Repr

namespace Volume

/-- A primitive; a fault keeps it from having any effect. -/
def attempt (v : Volume) (primitive : Disk → Disk.Effect) : Except DiskError Unit × Volume :=
  match v.faults with
  | some e :: faults => (.error e, { v with faults })
  | faults =>
    let (result, disk) := primitive v.disk
    (result, ⟨disk, faults.drop 1⟩)

/-- What always succeeds. -/
def change (v : Volume) (f : Disk → Disk) : Volume := { v with disk := f v.disk }

end Volume

end BusNode
