import BusNode.Node.Export
import BusNode.Proofs.Disk.Tree
import BusNode.Proofs.Node.Visible
/-!
# What an export delivers

* `Pair.files` — the two files of a pair with their paths;
* `Volume.writePairs_eq_ok` — pairs that are written without an error are delivered, whatever primitives fail elsewhere;
* `Node.IsExport` — what is exported of one application of a node: its plan, and the directory of it;
* `Node.exportApplication_eq_ok`, `Node.exportAll_eq_ok` — so an export without an error delivers what is planned.
-/

namespace BusNode

/-- The paths and texts of the files of a pair. -/
def Pair.files (dir : String) (p : Pair) : List (String × String) :=
  [(joinPath dir p.headerName, p.header.text), (joinPath dir p.sourceName, p.source.text)]

/-- The paths and texts of the files of artifacts. -/
def filesOf (dir : String) (as : List Artifact) : List (String × String) := as.flatMap (·.pair.files dir)

/-! ## Outcomes -/

namespace Outcome

/-- The files are on the disk that was `v` before, and their paths are returned. -/
structure Delivered (y : Outcome) (v : Volume) (fs : List (String × String)) : Prop where
  paths : y.report.result = .ok (fs.map (·.1))
  staged : y.volume.disk.staged = []
  files : v.disk.Delivers fs y.volume.disk

variable {x : Outcome} {next : Volume → Outcome} {v : Volume} {fs fs' : List (String × String)} {paths : List String}

theorem andThen_eq_ok (h : (x.andThen next).report.result = .ok paths) :
    (∃ a, x.report.result = .ok a) ∧ ∃ b, (next x.volume).report.result = .ok b := by
  unfold andThen at h
  split at h
  · rename_i e he
    rw [he] at h
    cases h
  · rename_i a ha
    cases hb : (next x.volume).report.result with
    | error e =>
      dsimp only at h
      rw [hb] at h
      cases h
    | ok b => exact ⟨⟨a, ha⟩, b, rfl⟩

theorem andThen_of_error {e : Stop} (h : x.report.result = .error e) : x.andThen next = x := by
  unfold andThen
  rw [h]

theorem andThen_of_ok (h : x.report.result = .ok paths) : x.andThen next =
    ⟨⟨x.report.events ++ (next x.volume).report.events, (next x.volume).report.result.map (paths ++ ·)⟩,
      (next x.volume).volume⟩ := by
  unfold andThen
  rw [h]

theorem Delivered.andThen (hx : x.Delivered v fs) (hnext : (next x.volume).Delivered x.volume fs') :
    (x.andThen next).Delivered v (fs ++ fs') := by
  rw [andThen_of_ok hx.paths]
  refine ⟨?_, hnext.staged, hx.files.trans hnext.files⟩
  dsimp only
  rw [hnext.paths, List.map_append]
  rfl

/-- Events do not count. -/
theorem Delivered.of_report (hx : x.Delivered v fs) {r : Report Stop (List String)} (h : r.result = x.report.result) :
    Outcome.Delivered ⟨r, x.volume⟩ v fs :=
  ⟨h.trans hx.paths, hx.staged, hx.files⟩

theorem delivered_nil {events : List Event} (h : v.disk.staged = []) : Outcome.Delivered ⟨⟨events, .ok []⟩, v⟩ v [] :=
  ⟨rfl, h, .refl _⟩

end Outcome

/-! ## Pairs -/

namespace Volume

variable {v v' : Volume} {dir : String} {paths : List String}

theorem attempt_eq_ok {f : Disk → Disk.Effect} (h : v.attempt f = (.ok (), v')) : f v.disk = (.ok (), v'.disk) := by
  unfold attempt at h
  split at h
  · cases h
  · obtain ⟨hresult, rfl⟩ := Prod.mk.inj h
    rw [← hresult]

/-- A primitive that fails has failed by itself, or met a fault and had no effect. -/
theorem attempt_eq_error {f : Disk → Disk.Effect} {cause : DiskError} (h : v.attempt f = (.error cause, v')) :
    v'.disk = v.disk ∨ f v.disk = (.error cause, v'.disk) := by
  unfold attempt at h
  split at h
  · obtain ⟨-, rfl⟩ := Prod.mk.inj h
    exact .inl rfl
  · obtain ⟨hresult, rfl⟩ := Prod.mk.inj h
    exact .inr (hresult ▸ rfl)

theorem attempt_createDirs {q : Path} {r : Except DiskError Unit} (h : v.attempt (·.createDirs q) = (r, v')) :
    v.disk.Wrote [] v'.disk ∧ v'.disk.staged = v.disk.staged ∧ (v.disk.IsTree → v'.disk.IsTree) := by
  obtain ⟨hwrote, hstaged⟩ := Disk.wrote_createDirs v.disk q
  have htree (h : v.disk.IsTree) := h.createDirs q
  rcases r with e | ⟨⟨⟩⟩
  · rcases attempt_eq_error h with hsame | h
    · rw [hsame]
      exact ⟨.refl _, rfl, id⟩
    · rw [h] at hwrote hstaged htree
      exact ⟨hwrote, hstaged, htree⟩
  · rw [attempt_eq_ok h] at hwrote hstaged htree
    exact ⟨hwrote, hstaged, htree⟩

/-- A pair is written by five primitives, all of which succeed. -/
theorem writePair_steps {p : Pair} (h : (v.writePair dir p).report.result = .ok paths) :
    ∃ v₁ v₂ v₃ v₄, v.attempt (·.createDirs (.ofString dir)) = (.ok (), v₁) ∧
      v₁.attempt (·.stage (.ofString dir) p.header.text) = (.ok (), v₂) ∧
      v₂.attempt (·.stage (.ofString dir) p.source.text) = (.ok (), v₃) ∧
      v₃.attempt (·.persist (.ofString (joinPath dir p.headerName))) = (.ok (), v₄) ∧
      v₄.attempt (·.persist (.ofString (joinPath dir p.sourceName))) = (.ok (), (v.writePair dir p).volume) ∧
      paths = (p.files dir).map (·.1) := by
  unfold writePair at h ⊢
  dsimp only at h ⊢
  rcases h₁ : v.attempt (·.createDirs (.ofString dir)) with ⟨_ | ⟨⟨⟩⟩, v₁⟩
  · rw [h₁] at h
    cases h
  rw [h₁] at h
  dsimp only at h ⊢
  rcases h₂ : v₁.attempt (·.stage (.ofString dir) p.header.text) with ⟨_ | ⟨⟨⟩⟩, v₂⟩
  · rw [h₂] at h
    cases h
  rw [h₂] at h
  dsimp only at h ⊢
  rcases h₃ : v₂.attempt (·.stage (.ofString dir) p.source.text) with ⟨_ | ⟨⟨⟩⟩, v₃⟩
  · rw [h₃] at h
    cases h
  rw [h₃] at h
  dsimp only at h ⊢
  rcases h₄ : v₃.attempt (·.persist (.ofString (joinPath dir p.headerName))) with ⟨_ | ⟨⟨⟩⟩, v₄⟩
  · rw [h₄] at h
    cases h
  rw [h₄] at h
  dsimp only at h ⊢
  rcases h₅ : v₄.attempt (·.persist (.ofString (joinPath dir p.sourceName))) with ⟨_ | ⟨⟨⟩⟩, v₅⟩
  · rw [h₅] at h
    cases h
  rw [h₅] at h
  obtain rfl := Except.ok.inj h
  exact ⟨v₁, v₂, v₃, v₄, rfl, h₂, h₃, h₄, h₅, rfl⟩

/-- Both files of a pair wait for their names, and no other file has changed. -/
theorem stage_pair {p : Pair} {v₁ v₂ v₃ : Volume} (hstaged : v.disk.staged = [])
    (h₁ : v.attempt (·.createDirs (.ofString dir)) = (.ok (), v₁))
    (h₂ : v₁.attempt (·.stage (.ofString dir) p.header.text) = (.ok (), v₂))
    (h₃ : v₂.attempt (·.stage (.ofString dir) p.source.text) = (.ok (), v₃)) :
    v.disk.Wrote [] v₃.disk ∧ v₃.disk.staged.map (·.text) = [p.header.text, p.source.text] ∧
      (v.disk.IsTree → v₃.disk.IsTree) := by
  obtain ⟨w₁, s₁, t₁⟩ := attempt_createDirs h₁
  obtain ⟨w₂, s₂⟩ := Disk.stage_eq_ok (attempt_eq_ok h₂)
  have t₂ (htree : v₁.disk.IsTree) := htree.stage (.ofString dir) p.header.text
  rw [attempt_eq_ok h₂] at t₂
  obtain ⟨w₃, s₃⟩ := Disk.stage_eq_ok (attempt_eq_ok h₃)
  have t₃ (htree : v₂.disk.IsTree) := htree.stage (.ofString dir) p.source.text
  rw [attempt_eq_ok h₃] at t₃
  rw [s₁, hstaged] at s₂
  rw [s₂] at s₃
  exact ⟨w₁.trans (w₂.trans w₃), s₃, fun htree => t₃ (t₂ (t₁ htree))⟩

/-- One of the waiting files gets its name. -/
theorem persist_file {stem extension text : String} {texts : List String}
    (hextension : extension = ".h" ∨ extension = ".c") (hstaged : v.disk.staged.map (·.text) = text :: texts)
    (h : v.attempt (·.persist (.ofString (joinPath dir (stem ++ extension)))) = (.ok (), v')) :
    v'.disk.staged.map (·.text) = texts ∧ (v.disk.IsTree → v'.disk.IsTree) ∧
      ∃ x, v.disk.Wrote [(x, text)] v'.disk ∧
        v'.disk.locate (.ofString (joinPath dir (stem ++ extension))) = .ok x := by
  obtain ⟨q, c, hpath, hc⟩ := Path.exists_isName dir stem hextension
  have h := attempt_eq_ok h
  rw [hpath] at h ⊢
  obtain ⟨hrest, hwrote⟩ := Disk.persist_eq_ok hc hstaged h
  refine ⟨hrest, fun htree => ?_, hwrote⟩
  have htree := htree.persist (p := q) hc
  rwa [h] at htree

/-- A pair that is written is delivered. -/
theorem writePair_eq_ok {p : Pair} (hstaged : v.disk.staged = [])
    (h : (v.writePair dir p).report.result = .ok paths) :
    (v.writePair dir p).Delivered v (p.files dir) ∧ (v.disk.IsTree → (v.writePair dir p).volume.disk.IsTree) := by
  obtain ⟨v₁, v₂, v₃, v₄, h₁, h₂, h₃, h₄, h₅, hpaths⟩ := writePair_steps h
  obtain ⟨w₃, s₃, t₃⟩ := stage_pair hstaged h₁ h₂ h₃
  obtain ⟨s₄, t₄, x, w₄, hx⟩ := persist_file (.inl rfl) s₃ h₄
  obtain ⟨s₅, t₅, y, w₅, hy⟩ := persist_file (.inr rfl) s₄ h₅
  refine ⟨⟨hpaths ▸ h, List.map_eq_nil_iff.1 s₅, _, w₃.trans (w₄.trans w₅), ?_⟩, fun htree => t₅ (t₄ (t₃ htree))⟩
  exact .cons ⟨Disk.locate_of_wrote w₅ hx, rfl⟩ (.cons ⟨hy, rfl⟩ .nil)

/-- Pairs that are written are delivered. -/
theorem writePairs_eq_ok {subject : String} {ps : List Pair} (hstaged : v.disk.staged = [])
    (h : (writePairs dir subject ps v).report.result = .ok paths) :
    (writePairs dir subject ps v).Delivered v (ps.flatMap (·.files dir)) ∧
      (v.disk.IsTree → (writePairs dir subject ps v).volume.disk.IsTree) := by
  induction ps generalizing v paths with
  | nil => exact ⟨Outcome.delivered_nil hstaged, id⟩
  | cons p ps ih =>
    unfold writePairs at h ⊢
    dsimp only at h ⊢
    obtain ⟨⟨a, ha⟩, b, hb⟩ := Outcome.andThen_eq_ok h
    rw [Report.result_onRefusal] at ha
    obtain ⟨hp, ptree⟩ := writePair_eq_ok hstaged ha
    obtain ⟨hps, pstree⟩ := ih hp.staged hb
    refine ⟨(hp.of_report (Report.result_onRefusal ..)).andThen hps, fun htree => ?_⟩
    rw [Outcome.andThen_of_ok ((Report.result_onRefusal ..).trans ha)]
    exact pstree (ptree htree)

end Volume

/-! ## Exports -/

namespace Node

variable {n : Node} {o : ExportOptions} {v : Volume} {paths : List String} {i : Nat}

/-- An export of an application without an error delivers its plan. -/
theorem exportApplication_eq_ok (hstaged : v.disk.staged = [])
    (h : (n.exportApplication i o v).report.result = .ok paths) :
    ∃ a as, n.applicationAt i = .ok a ∧ (n.plan i o).result = .ok as ∧
      (n.exportApplication i o v).Delivered v (filesOf o.outputDir as) := by
  unfold exportApplication at h ⊢
  cases ha : n.applicationAt i with
  | error e =>
    rw [ha] at h
    cases h
  | ok a =>
    rw [ha] at h
    dsimp only at h ⊢
    rw [Report.result_onRefusal] at h ⊢
    cases hplan : (n.plan i o).result with
    | error e =>
      rw [hplan] at h
      cases h
    | ok as =>
      rw [hplan] at h
      dsimp only at h ⊢
      refine ⟨a, as, rfl, rfl, ?_⟩
      cases hpaths : (Volume.writePairs o.outputDir (Event.application a.name) (as.map (·.pair)) v).report.result with
      | error e =>
        rw [hpaths] at h
        cases h
      | ok paths' =>
        obtain ⟨hpairs, -⟩ := Volume.writePairs_eq_ok hstaged hpaths
        rw [List.flatMap_map] at hpairs
        exact hpairs.of_report hpaths.symm

/-- What is exported of one application: its plan and the directory of it. -/
structure IsExport (n : Node) (o : ExportOptions) (a : Application × Nat) (e : String × List Artifact) : Prop where
  dir : e.1 = joinPath o.outputDir (lower a.1.name)
  application : n.applicationAt a.2 = .ok a.1
  plan : (n.plan a.2 { o with outputDir := e.1 }).result = .ok e.2

/-- The applications that are exported, of those from an index on. -/
def exportedFrom (i : Nat) (as : List Application) : List (Application × Nat) :=
  (as.zipIdx i).filter fun a => a.1.active && a.1.kind ≠ .binary

theorem exportedFrom_cons (i : Nat) (a : Application) (as : List Application) :
    exportedFrom i (a :: as) =
      if !a.active || a.kind = .binary then exportedFrom (i + 1) as else (a, i) :: exportedFrom (i + 1) as := by
  unfold exportedFrom
  rw [List.zipIdx_cons, List.filter_cons]
  cases hactive : a.active with
  | false => rfl
  | true => by_cases hkind : a.kind = .binary <;> simp [hkind]

theorem exportFrom_eq_ok {as : List Application} (has : ∀ k, as[k]? = n.applications[i + k]?)
    (hstaged : v.disk.staged = [])
    (h : (n.exportFrom o i as v).report.result = .ok paths) :
    ∃ es, List.Forall₂ (n.IsExport o) (exportedFrom i as) es ∧
      (n.exportFrom o i as v).Delivered v (es.flatMap fun e => filesOf e.1 e.2) := by
  induction as generalizing i v paths with
  | nil => exact ⟨[], .nil, Outcome.delivered_nil hstaged⟩
  | cons a as ih =>
    have ha : n.applicationAt i = .ok a := applicationAt_eq_ok.2 (has 0).symm
    have has (k : Nat) : as[k]? = n.applications[i + 1 + k]? := by
      rw [Nat.add_right_comm]
      exact has (k + 1)
    unfold exportFrom at h ⊢
    rw [exportedFrom_cons]
    split at h
    · rename_i hskipped
      rw [if_pos hskipped, if_pos hskipped]
      obtain ⟨-, b, hb⟩ := Outcome.andThen_eq_ok h
      obtain ⟨es, hes, hdelivered⟩ := ih has hstaged hb
      exact ⟨es, hes, (Outcome.delivered_nil hstaged).andThen hdelivered⟩
    · rename_i hkept
      rw [if_neg hkept, if_neg hkept]
      obtain ⟨⟨b, hb⟩, c, hc⟩ := Outcome.andThen_eq_ok h
      obtain ⟨a', plan, -, hplan, hfirst⟩ := exportApplication_eq_ok hstaged hb
      obtain ⟨es, hes, hdelivered⟩ := ih has hfirst.staged hc
      exact ⟨(_, plan) :: es, .cons ⟨rfl, ha, hplan⟩ hes, hfirst.andThen hdelivered⟩

/-- The applications that are exported with the node. -/
def exported (n : Node) : List (Application × Nat) := exportedFrom 0 n.applications

/-- An export of all applications without an error delivers their plans. -/
theorem exportAll_eq_ok (hstaged : v.disk.staged = [])
    (h : (n.exportAll o v).report.result = .ok paths) :
    ∃ es, List.Forall₂ (n.IsExport o) n.exported es ∧
      (n.exportAll o v).Delivered v (es.flatMap fun e => filesOf e.1 e.2) :=
  exportFrom_eq_ok (fun k => by rw [Nat.zero_add]) hstaged h

end Node

end BusNode
