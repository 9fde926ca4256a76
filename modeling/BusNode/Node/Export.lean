import BusNode.Disk.Volume
import BusNode.Node.Plan
/-!
# Exports

An export writes the plan of an application pair by pair. Both files of a pair are written under no name first and
then given their names, so that a pair is there whole or not at all; an export ends with the first pair that cannot be
written, and the pairs before it stay.

* `Volume.writePair` — writes one pair;
* `Node.exportApplication`, `Node.exportAll` — write what is planned for one application or for each of a node.
-/

namespace BusNode

/-- What is left of an export: its report and the disk after it. -/
structure Outcome where
  report : Report Stop (List String)
  volume : Volume

namespace Outcome

/-- An export that fails with an error. -/
def failed (events : List Event) (e : ExportError) (v : Volume) : Outcome := ⟨⟨events, .error (.refused e)⟩, v⟩

/-- Goes on after a success; the paths of both parts are returned. -/
def andThen (x : Outcome) (next : Volume → Outcome) : Outcome :=
  match x.report.result with
  | .error _ => x
  | .ok paths =>
    let y := next x.volume
    ⟨⟨x.report.events ++ y.report.events, y.report.result.map (paths ++ ·)⟩, y.volume⟩

end Outcome

namespace Volume

/-- Writes the files of a pair into a directory; returns their paths. -/
def writePair (dir : String) (p : Pair) (v : Volume) : Outcome :=
  let folder := Path.ofString dir
  let header := joinPath dir p.headerName
  let source := joinPath dir p.sourceName
  match v.attempt (·.createDirs folder) with
  | (.error e, v) => .failed [] (.io dir e) v
  | (.ok (), v) =>
    match v.attempt (·.stage folder p.header.text) with
    | (.error e, v) => .failed [] (.io header e) v
    | (.ok (), v) =>
      match v.attempt (·.stage folder p.source.text) with
      | (.error e, v) => .failed [] (.io source e) (v.change Disk.dropAllStaged)
      | (.ok (), v) =>
        match v.attempt (·.persist (Path.ofString header)) with
        | (.error e, v) => .failed [] (.io header e) (v.change Disk.dropAllStaged)
        | (.ok (), v) =>
          match v.attempt (·.persist (Path.ofString source)) with
          | (.error e, v) =>
            .failed [.error "" s!"Removing {header} after failing to write its implementation"] (.io source e)
              (v.change fun d => (d.remove (Path.ofString header)).2.dropAllStaged)
          | (.ok (), v) => ⟨⟨[.debug "" s!"Wrote {header} and {source}"], .ok [header, source]⟩, v⟩

/-- Writes pairs until one fails. -/
def writePairs (dir subject : String) : List Pair → Volume → Outcome
  | [], v => ⟨⟨[], .ok []⟩, v⟩
  | p :: ps, v =>
    let x := v.writePair dir p
    Outcome.andThen ⟨x.report.onRefusal (.failure subject), x.volume⟩ (writePairs dir subject ps)

end Volume

namespace Node

/-- Writes what is planned for an application into the output directory. -/
def exportApplication (n : Node) (application : Nat) (o : ExportOptions) (v : Volume) : Outcome :=
  match n.applicationAt application with
  | .error e => .failed [] e v
  | .ok a =>
    let subject := Event.application a.name
    let planned := (n.plan application o).onRefusal (.failure (subject ++ "Export aborted: "))
    match planned.result with
    | .error e => ⟨⟨planned.events, .error e⟩, v⟩
    | .ok artifacts =>
      let x := Volume.writePairs o.outputDir subject (artifacts.map (·.pair)) v
      match x.report.result with
      | .error e => ⟨⟨planned.events ++ x.report.events, .error e⟩, x.volume⟩
      | .ok paths =>
        let last := Event.info subject s!"Wrote {decimal paths.length} files to {o.outputDir}"
        ⟨⟨planned.events ++ x.report.events ++ [last], .ok paths⟩, x.volume⟩

/-- Writes what is planned for each application that is active and can have code, each into a directory of its own. -/
def exportFrom (n : Node) (o : ExportOptions) : Nat → List Application → Volume → Outcome
  | _, [], v => ⟨⟨[], .ok []⟩, v⟩
  | i, a :: as, v =>
    if !a.active || a.kind = .binary then
      let active := if a.active then "true" else "false"
      let text := s!"Skipped ({a.kind.name}, active: {active})"
      Outcome.andThen ⟨⟨[.debug (Event.application a.name) text], .ok []⟩, v⟩ (n.exportFrom o (i + 1) as)
    else
      Outcome.andThen (n.exportApplication i { o with outputDir := joinPath o.outputDir (lower a.name) } v)
        (n.exportFrom o (i + 1) as)

def exportAll (n : Node) (o : ExportOptions) (v : Volume) : Outcome := n.exportFrom o 0 n.applications v

end Node

end BusNode
