import BusNode.Proofs.Node.Export
import BusNode.Proofs.Node.FileName
/-!
# Whether one file overwrites another

An export writes every file to a path that is made of names in the node, and never asks whether it wrote there before.

* `nodup_paths_iff` — the paths of a plan differ just if the stems do;
* `Node.outputs_stay_apart` — so the paths of an export differ just if certain names in the node do, and then every
  file has its own text;
* `Node.overwritten_tractor` — else one artifact may be written over another.
-/

namespace BusNode

open Can

/-! ## Names of files -/

/-- What is before an extension, and the extension. -/
theorem append_extension_inj {s t e f : String} (he : e = ".h" ∨ e = ".c") (hf : f = ".h" ∨ f = ".c")
    (h : s ++ e = t ++ f) : s = t ∧ e = f := by
  have h := congrArg String.toList h
  rw [String.toList_append, String.toList_append] at h
  have hlength : e.toList.length = f.toList.length := by
    rcases he with rfl | rfl <;> rcases hf with rfl | rfl <;> decide
  obtain ⟨hs, he⟩ := List.append_inj' h hlength
  exact ⟨String.toList_inj.1 hs, String.toList_inj.1 he⟩

variable {dir : String} {as bs : List Artifact}

theorem filesOf_append (dir : String) (as bs : List Artifact) :
    filesOf dir (as ++ bs) = filesOf dir as ++ filesOf dir bs := List.flatMap_append

theorem mem_filesOf {f : String × String} (hf : f ∈ filesOf dir as) :
    ∃ x ∈ as, ∃ e, (e = ".h" ∨ e = ".c") ∧ f.1 = joinPath dir (x.pair.stem ++ e) := by
  obtain ⟨x, hx, hf⟩ := List.mem_flatMap.1 hf
  rcases List.mem_cons.1 hf with rfl | hf
  · exact ⟨x, hx, _, .inl rfl, rfl⟩
  · obtain rfl := List.mem_singleton.1 hf
    exact ⟨x, hx, _, .inr rfl, rfl⟩

theorem mem_paths_of_mem {x : Artifact} (hx : x ∈ as) :
    joinPath dir x.pair.headerName ∈ (filesOf dir as).map (·.1) :=
  List.mem_map.2 ⟨_, List.mem_flatMap.2 ⟨x, hx, .head _⟩, rfl⟩

/-- Two plans have no path in common just if they have no stem in common or different directories. -/
theorem disjoint_paths_iff {dir' : String} (has : ∀ x ∈ as, '/' ∉ x.pair.stem.toList)
    (hbs : ∀ y ∈ bs, '/' ∉ y.pair.stem.toList)
    (hdirs : ∀ s t : String, '/' ∉ s.toList → '/' ∉ t.toList → joinPath dir s = joinPath dir' t → dir = dir' ∧ s = t) :
    ((filesOf dir as).map (·.1)).Disjoint ((filesOf dir' bs).map (·.1)) ↔
      (dir = dir' → (as.map (·.pair.stem)).Disjoint (bs.map (·.pair.stem))) := by
  constructor
  · rintro h rfl stem hstem hstem'
    obtain ⟨x, hx, rfl⟩ := List.mem_map.1 hstem
    obtain ⟨y, hy, hsame⟩ := List.mem_map.1 hstem'
    refine h (mem_paths_of_mem hx) ?_
    have hheader : x.pair.headerName = y.pair.headerName := congrArg (· ++ ".h") hsame.symm
    exact hheader ▸ mem_paths_of_mem hy
  · intro h path hpath hpath'
    obtain ⟨f, hf, rfl⟩ := List.mem_map.1 hpath
    obtain ⟨g, hg, hsame⟩ := List.mem_map.1 hpath'
    obtain ⟨x, hx, e, he, hf⟩ := mem_filesOf hf
    obtain ⟨y, hy, e', he', hg⟩ := mem_filesOf hg
    have hsame := (hg.symm.trans hsame).trans hf
    obtain ⟨hdir, hname⟩ := hdirs _ _ (Path.isName_append (has x hx) he).plain
      (Path.isName_append (hbs y hy) he').plain hsame.symm
    have hstem := (append_extension_inj he he' hname).1
    exact h hdir (List.mem_map.2 ⟨x, hx, rfl⟩) (List.mem_map.2 ⟨y, hy, hstem.symm⟩)

/-- The paths of a plan differ just if the stems do. -/
theorem nodup_paths_iff (has : ∀ x ∈ as, '/' ∉ x.pair.stem.toList) :
    ((filesOf dir as).map (·.1)).Nodup ↔ (as.map (·.pair.stem)).Nodup := by
  induction as with
  | nil => exact iff_of_true .nil .nil
  | cons x as ih =>
    obtain ⟨hx, has⟩ := List.forall_mem_cons.1 has
    have hpair : ((filesOf dir [x]).map (·.1)).Nodup := by
      refine List.nodup_cons.2 ⟨fun hsame => ?_, List.nodup_singleton _⟩
      have hsame := joinPath_injective (Path.isName_append hx (.inl rfl)).plain (Path.isName_append hx (.inr rfl)).plain
        (List.mem_singleton.1 hsame)
      exact absurd (append_extension_inj (.inl rfl) (.inr rfl) hsame).2 (by decide)
    have hdisjoint : ((filesOf dir [x]).map (·.1)).Disjoint ((filesOf dir as).map (·.1)) ↔
        (dir = dir → List.Disjoint ([x].map (·.pair.stem)) (as.map (·.pair.stem))) :=
      disjoint_paths_iff (List.forall_mem_singleton.2 hx) has fun s t hs ht h => ⟨rfl, joinPath_injective hs ht h⟩
    have hfiles : filesOf dir (x :: as) = filesOf dir [x] ++ filesOf dir as := filesOf_append dir [x] as
    rw [hfiles, List.map_append, List.nodup_append', and_iff_right hpair, ih has, hdisjoint, forall_prop_of_true rfl,
      List.map_singleton, List.singleton_disjoint, List.map_cons, List.nodup_cons, and_comm]

/-! ## Exports -/

namespace Node

variable {n : Node} {o : ExportOptions} {v : Volume} {es : List (String × List Artifact)}

/-- The paths of an export of all applications differ just if those of each application do, and plans of one directory
have different stems. -/
theorem nodup_exports_iff (hnames : ∀ d ∈ n.datapools, '/' ∉ d.name.toList)
    (hdirs : ∀ a ∈ n.exported, Path.IsName (lower a.1.name)) (hes : List.Forall₂ (n.IsExport o) n.exported es) :
    ((es.flatMap fun e => filesOf e.1 e.2).map (·.1)).Nodup ↔
      (∀ a ∈ n.exported, a.1.kind = .programmable → n.Separates a.2 a.1) ∧
        es.Pairwise fun e e' => e.1 = e'.1 → (e.2.map (·.pair.stem)).Disjoint (e'.2.map (·.pair.stem)) := by
  have hplain {e : String × List Artifact} (he : e ∈ es) : ∀ x ∈ e.2, '/' ∉ x.pair.stem.toList := by
    obtain ⟨a, -, hexport⟩ := exists_of_mem_right hes he
    exact fun x hx => plain_of_mem_plan hnames hexport.plan hx
  rw [List.map_flatMap, List.nodup_flatMap]
  refine and_congr ⟨fun hpaths a ha hkind => ?_, fun hseparates e he => ?_⟩
    (List.Pairwise.iff_of_mem fun {e e'} he he' => ?_)
  · obtain ⟨e, he, hexport⟩ := exists_of_mem_left hes ha
    exact (nodup_stems_iff hexport.application hexport.plan).1 ((nodup_paths_iff (hplain he)).1 (hpaths e he)) hkind
  · obtain ⟨a, ha, hexport⟩ := exists_of_mem_right hes he
    exact (nodup_paths_iff (hplain he)).2 ((nodup_stems_iff hexport.application hexport.plan).2 (hseparates a ha))
  · refine disjoint_paths_iff (hplain he) (hplain he') fun s t hs ht hsame => ?_
    obtain ⟨a, ha, hexport⟩ := exists_of_mem_right hes he
    obtain ⟨b, hb, hexport'⟩ := exists_of_mem_right hes he'
    rw [hexport.dir, hexport'.dir] at hsame ⊢
    exact (joinPath_joinPath_injective (hdirs a ha) (hdirs b hb) hs ht hsame).imp_left (congrArg _)

/-- Different paths of an export of all applications lead to different places. -/
theorem path_eq_of_locate (hnames : ∀ d ∈ n.datapools, '/' ∉ d.name.toList)
    (hdirs : ∀ a ∈ n.exported, Path.IsName (lower a.1.name)) (hes : List.Forall₂ (n.IsExport o) n.exported es)
    {f g : String × String} (hf : f ∈ es.flatMap fun e => filesOf e.1 e.2)
    (hg : g ∈ es.flatMap fun e => filesOf e.1 e.2) {d : Disk} {place : Location}
    (hfplace : d.locate (.ofString f.1) = .ok place) (hgplace : d.locate (.ofString g.1) = .ok place) : f.1 = g.1 := by
  have hnamed {f : String × String} (hf : f ∈ es.flatMap fun e => filesOf e.1 e.2) :
      ∃ a ∈ n.exported, ∃ name, Path.IsName name ∧ f.1 = joinPath (joinPath o.outputDir (lower a.1.name)) name := by
    obtain ⟨e, he, hf⟩ := List.mem_flatMap.1 hf
    obtain ⟨a, ha, hexport⟩ := exists_of_mem_right hes he
    obtain ⟨x, hx, extension, hextension, hf⟩ := mem_filesOf hf
    exact ⟨a, ha, _, Path.isName_append (plain_of_mem_plan hnames hexport.plan hx) hextension, hexport.dir ▸ hf⟩
  obtain ⟨a, ha, name, hname, hf⟩ := hnamed hf
  obtain ⟨b, hb, name', hname', hg⟩ := hnamed hg
  rw [hf] at hfplace ⊢
  rw [hg] at hgplace ⊢
  obtain ⟨hdir, hname⟩ := Disk.names_eq_of_locate (hdirs a ha) (hdirs b hb) hname hname' hfplace hgplace
  rw [hdir, hname]

/-- **When the files of an export stay apart.** Let no name of a Datapool lead out of its directory, and no file wait
for its name from before. The paths that an export of an application returns differ just if the application separates
the names that it makes stems of; with those of all applications, where none of their names leads elsewhere either,
plans of one directory must have different stems too. If the paths differ, then every file has the text that was
generated for it. -/
theorem outputs_stay_apart (hnames : ∀ d ∈ n.datapools, '/' ∉ d.name.toList) (hstaged : v.disk.staged = []) :
    (∀ i paths, (n.exportApplication i o v).report.result = .ok paths →
      ∃ a as, n.applicationAt i = .ok a ∧ (n.plan i o).result = .ok as ∧
        paths = (filesOf o.outputDir as).map (·.1) ∧
        (paths.Nodup ↔ (a.kind = .programmable → n.Separates i a)) ∧
        (paths.Nodup → ∀ f ∈ filesOf o.outputDir as,
          (n.exportApplication i o v).volume.disk.read? (.ofString f.1) = some f.2)) ∧
    ∀ paths, (n.exportAll o v).report.result = .ok paths →
      ∃ es, List.Forall₂ (n.IsExport o) n.exported es ∧
        paths = (es.flatMap fun e => filesOf e.1 e.2).map (·.1) ∧
        ((∀ a ∈ n.exported, Path.IsName (lower a.1.name)) →
          (paths.Nodup ↔ (∀ a ∈ n.exported, a.1.kind = .programmable → n.Separates a.2 a.1) ∧
            es.Pairwise fun e e' => e.1 = e'.1 → (e.2.map (·.pair.stem)).Disjoint (e'.2.map (·.pair.stem))) ∧
          (paths.Nodup → ∀ f ∈ es.flatMap fun e => filesOf e.1 e.2,
            (n.exportAll o v).volume.disk.read? (.ofString f.1) = some f.2)) := by
  refine ⟨fun i paths h => ?_, fun paths h => ?_⟩
  · obtain ⟨a, as, ha, hplan, hdelivered⟩ := exportApplication_eq_ok hstaged h
    obtain rfl := Except.ok.inj (h.symm.trans hdelivered.paths)
    have hplain (x : Artifact) (hx : x ∈ as) := plain_of_mem_plan hnames hplan hx
    refine ⟨a, as, ha, hplan, rfl, (nodup_paths_iff hplain).trans (nodup_stems_iff ha hplan), fun hnodup f hf => ?_⟩
    refine hdelivered.files.read hnodup (fun f hf g hg place hfplace hgplace => ?_) hf
    obtain ⟨x, hx, e, he, hf⟩ := mem_filesOf hf
    obtain ⟨y, hy, e', he', hg⟩ := mem_filesOf hg
    rw [hf] at hfplace ⊢
    rw [hg] at hgplace ⊢
    rw [Disk.name_eq_of_locate (Path.isName_append (hplain x hx) he) (Path.isName_append (hplain y hy) he') hfplace
      hgplace]
  · obtain ⟨es, hes, hdelivered⟩ := exportAll_eq_ok hstaged h
    obtain rfl := Except.ok.inj (h.symm.trans hdelivered.paths)
    refine ⟨es, hes, rfl, fun hdirs => ⟨nodup_exports_iff hnames hdirs hes, fun hnodup f hf => ?_⟩⟩
    exact hdelivered.files.read hnodup (fun f hf g hg place => path_eq_of_locate hnames hdirs hes hf hg) hf

/-- A disk with nothing on it, of which nothing fails. -/
def blank : Volume := ⟨.empty, []⟩

theorem outputs_stay_apart_cabin :
    (∃ as, (cabin.plan 0 (.new "out")).result = .ok as ∧ ∀ f ∈ filesOf "out" as,
      (cabin.exportApplication 0 (.new "out") blank).volume.disk.read? (.ofString f.1) = some f.2) ∧
    ∃ es, List.Forall₂ (cabin.IsExport (.new "out")) cabin.exported es ∧ ∀ f ∈ es.flatMap fun e => filesOf e.1 e.2,
      (cabin.exportAll (.new "out") blank).volume.disk.read? (.ofString f.1) = some f.2 := by
  obtain ⟨hone, hall⟩ := outputs_stay_apart (n := cabin) (o := .new "out") (v := blank) (by decide) rfl
  obtain ⟨paths, hpaths, hnodup⟩ := exists_eq_ok_of_any (p := List.Nodup)
    (x := (cabin.exportApplication 0 (.new "out") blank).report.result) (by decide +kernel)
  obtain ⟨paths', hpaths', hnodup'⟩ := exists_eq_ok_of_any (p := List.Nodup)
    (x := (cabin.exportAll (.new "out") blank).report.result) (by decide +kernel)
  obtain ⟨a, as, -, hplan, -, -, hread⟩ := hone 0 paths hpaths
  obtain ⟨es, hes, -, hread'⟩ := hall paths' hpaths'
  have hdirs : ∀ a ∈ cabin.exported, Path.IsName (lower a.1.name) := by
    intro a ha
    obtain rfl := List.mem_singleton.1 ha
    exact ⟨by decide +kernel, by decide +kernel, by decide +kernel⟩
  exact ⟨⟨as, hplan, hread hnodup⟩, es, hes, (hread' hdirs).2 hnodup'⟩

/-- The messages of a lamp and of a horn go over one bus, but have a Datapool each. -/
def tractor : Node := { cabin with
  name := "Tractor"
  datapools := [{ bus with name := "Front" }, { bus with name := "Rear" }]
  protocols := [
    ⟨.layer2, 0, [⟨true, [{ Message.new "Lamp" 0x100 1 .onChange with signals := [Signal.new 0 0 1] }], []⟩]⟩,
    ⟨.layer2, 1, [⟨true, [{ Message.new "Horn" 0x200 1 .onChange with signals := [Signal.new 0 0 1] }], []⟩]⟩]
  halc := none }

/-- **Two protocols, one file.** Both protocols of the tractor are written to the same paths. -/
theorem overwritten_tractor : ∃ paths as,
    (tractor.exportApplication 0 (.new "out") blank).report.result = .ok paths ∧ ¬ paths.Nodup ∧
    (tractor.plan 0 (.new "out")).result = .ok as ∧ ∃ x ∈ as, ∃ y ∈ as, x.pair.stem = y.pair.stem ∧
      x.source.linked?.map Datapool.name = some "Front" ∧ y.source.linked?.map Datapool.name = some "Rear" := by
  obtain ⟨paths, hpaths, htwice⟩ := exists_eq_ok_of_any (p := fun paths => ¬ List.Nodup paths)
    (x := (tractor.exportApplication 0 (.new "out") blank).report.result) (by decide +kernel)
  obtain ⟨as, hplan, hsame⟩ := exists_eq_ok_of_any (x := (tractor.plan 0 (.new "out")).result)
    (p := fun as => ∃ x ∈ as, ∃ y ∈ as, x.pair.stem = y.pair.stem ∧ x.source.linked?.map Datapool.name = some "Front" ∧
      y.source.linked?.map Datapool.name = some "Rear") (by decide +kernel)
  exact ⟨paths, as, hpaths, htwice, hplan, hsame⟩

end Node

end BusNode
