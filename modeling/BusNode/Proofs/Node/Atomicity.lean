import BusNode.Proofs.Node.Output
/-!
# What a failed export leaves behind

* `Volume.Withdrawn` — a pair that could not be written is taken back: `Volume.writePair_eq_error`;
* `Node.Interrupted` — the pairs before it stay, and nothing else changes;
* `Node.failed_export` — so an export leaves the disk whatever primitives fail, if its files have places of their own;
* `Node.overwritten_pit` — for which it is not enough that the stems differ.
-/

namespace BusNode

namespace Volume

variable {v : Volume} {dir subject : String} {p : Pair} {ps : List Pair} {e : Stop} {paths : List String}

/-! ## Pairs -/

/-- Primitives one after another, until one fails. -/
def attemptAll (v : Volume) : List (Disk → Disk.Effect) → Except DiskError Unit × Volume
  | [] => (.ok (), v)
  | f :: fs =>
    match v.attempt f with
    | (.error e, w) => (.error e, w)
    | (.ok (), w) => w.attemptAll fs

/-- The header of a pair gets its name; nothing fails until then. -/
def NamesHeader (v : Volume) (dir : String) (p : Pair) : Prop :=
  (v.attemptAll [(·.createDirs (.ofString dir)), (·.stage (.ofString dir) p.header.text),
    (·.stage (.ofString dir) p.source.text), (·.persist (.ofString (joinPath dir p.headerName)))]).1 = .ok ()

/-- What is left of a pair that could not be written. No file waits for its name, and none has changed but a header
that got its name, which is gone again. -/
structure Withdrawn (v : Volume) (dir : String) (p : Pair) (d : Disk) : Prop where
  staged : d.staged = []
  kept : v.disk.KeepsBut (placeOf (joinPath dir p.headerName)) d
  named : v.NamesHeader dir p → d.find? (placeOf (joinPath dir p.headerName)) = none
  unnamed : ¬ v.NamesHeader dir p →
    d.text? (placeOf (joinPath dir p.headerName)) = v.disk.text? (placeOf (joinPath dir p.headerName))

theorem Withdrawn.of_wrote {d : Disk} (hnamed : ¬ v.NamesHeader dir p) (hstaged : d.staged = [])
    (h : v.disk.Wrote [] d) : v.Withdrawn dir p d :=
  ⟨hstaged, .of_wrote h nofun, fun hnamed' => absurd hnamed' hnamed, fun _ => by rw [h.text?_eq]; rfl⟩

/-- A header that has got its name is removed again where its source does not get one. -/
theorem withdrawn_of_named {v₁ v₂ v₃ v₄ v₅ : Volume} {cause : DiskError} (htree : v.disk.IsTree)
    (hstaged : v.disk.staged = []) (h₁ : v.attempt (·.createDirs (.ofString dir)) = (.ok (), v₁))
    (h₂ : v₁.attempt (·.stage (.ofString dir) p.header.text) = (.ok (), v₂))
    (h₃ : v₂.attempt (·.stage (.ofString dir) p.source.text) = (.ok (), v₃))
    (h₄ : v₃.attempt (·.persist (.ofString (joinPath dir p.headerName))) = (.ok (), v₄))
    (h₅ : v₄.attempt (·.persist (.ofString (joinPath dir p.sourceName))) = (.error cause, v₅)) :
    v.Withdrawn dir p (v₅.disk.remove (.ofString (joinPath dir p.headerName))).2.dropAllStaged := by
  have hsame : v₅.disk = v₄.disk := (attempt_eq_error h₅).elim id Disk.persist_eq_error
  obtain ⟨w₃, s₃, t₃⟩ := stage_pair hstaged h₁ h₂ h₃
  obtain ⟨-, t₄, x, w₄, (hlocate : v₄.disk.locate (.ofString (joinPath dir p.headerName)) = .ok x)⟩ :=
    persist_file (.inl rfl) s₃ h₄
  have hthere := (w₄.file x p.header.text).2 (.inl (by simp [Disk.lastText]))
  have hfile : v₄.disk.isDirectory x = false := by
    unfold Disk.isDirectory
    rw [hthere]
    rfl
  have herased (y : Location) : (v₄.disk.erase x).dropAllStaged.find? y = (v₄.disk.erase x).find? y := rfl
  have hplace : placeOf (joinPath dir p.headerName) = x := Disk.placeOf_of_locate hlocate
  rw [hsame, Disk.remove_file hlocate hfile]
  refine ⟨rfl, ?_, fun _ => ?_, fun hnamed => absurd ?_ hnamed⟩
  · rw [hplace]
    exact (Disk.KeepsBut.of_wrote (w₃.trans w₄) (by simp)).trans (.of_erase (t₄ (t₃ htree)) hfile herased)
  · rw [hplace, herased, Disk.find?_erase_file (t₄ (t₃ htree)) hfile, if_pos rfl]
  · simp [NamesHeader, attemptAll, h₁, h₂, h₃, h₄]

/-- A pair that cannot be written is withdrawn, whatever fails. -/
theorem writePair_eq_error (htree : v.disk.IsTree) (hstaged : v.disk.staged = [])
    (h : (v.writePair dir p).report.result = .error e) :
    (∃ path cause, e = .refused (.io path cause)) ∧ v.Withdrawn dir p (v.writePair dir p).volume.disk := by
  -- one case for each primitive that can fail; only after the fourth one is there a header to take back
  unfold writePair at h ⊢
  dsimp only at h ⊢
  rcases h₁ : v.attempt (·.createDirs (.ofString dir)) with ⟨e₁ | ⟨⟨⟩⟩, v₁⟩
  · obtain ⟨w₁, s₁, -⟩ := attempt_createDirs h₁
    rw [h₁] at h
    refine ⟨⟨_, _, (Except.error.inj h).symm⟩, .of_wrote (fun hnamed => ?_) (s₁.trans hstaged) w₁⟩
    simp [NamesHeader, attemptAll, h₁] at hnamed
  obtain ⟨w₁, s₁, -⟩ := attempt_createDirs h₁
  rw [h₁] at h
  dsimp only at h ⊢
  rcases h₂ : v₁.attempt (·.stage (.ofString dir) p.header.text) with ⟨e₂ | ⟨⟨⟩⟩, v₂⟩
  · have hsame : v₂.disk = v₁.disk := (attempt_eq_error h₂).elim id Disk.stage_eq_error
    rw [h₂] at h
    refine ⟨⟨_, _, (Except.error.inj h).symm⟩, .of_wrote (fun hnamed => ?_) (hsame ▸ s₁.trans hstaged) (hsame ▸ w₁)⟩
    simp [NamesHeader, attemptAll, h₁, h₂] at hnamed
  obtain ⟨w₂, -⟩ := Disk.stage_eq_ok (attempt_eq_ok h₂)
  rw [h₂] at h
  dsimp only at h ⊢
  rcases h₃ : v₂.attempt (·.stage (.ofString dir) p.source.text) with ⟨e₃ | ⟨⟨⟩⟩, v₃⟩
  · have hsame : v₃.disk = v₂.disk := (attempt_eq_error h₃).elim id Disk.stage_eq_error
    rw [h₃] at h
    refine ⟨⟨_, _, (Except.error.inj h).symm⟩, .of_wrote (fun hnamed => ?_) rfl ?_⟩
    · simp [NamesHeader, attemptAll, h₁, h₂, h₃] at hnamed
    · exact (w₁.trans w₂).trans (.of_find? fun x => hsame ▸ rfl)
  rw [h₃] at h
  dsimp only at h ⊢
  rcases h₄ : v₃.attempt (·.persist (.ofString (joinPath dir p.headerName))) with ⟨e₄ | ⟨⟨⟩⟩, v₄⟩
  · obtain ⟨w₃, -, -⟩ := stage_pair hstaged h₁ h₂ h₃
    have hsame : v₄.disk = v₃.disk := (attempt_eq_error h₄).elim id Disk.persist_eq_error
    rw [h₄] at h
    refine ⟨⟨_, _, (Except.error.inj h).symm⟩, .of_wrote (fun hnamed => ?_) rfl ?_⟩
    · simp [NamesHeader, attemptAll, h₁, h₂, h₃, h₄] at hnamed
    · exact w₃.trans (.of_find? fun x => hsame ▸ rfl)
  rw [h₄] at h
  dsimp only at h ⊢
  rcases h₅ : v₄.attempt (·.persist (.ofString (joinPath dir p.sourceName))) with ⟨e₅ | ⟨⟨⟩⟩, v₅⟩
  · rw [h₅] at h
    exact ⟨⟨_, _, (Except.error.inj h).symm⟩, withdrawn_of_named htree hstaged h₁ h₂ h₃ h₄ h₅⟩
  · rw [h₅] at h
    cases h

theorem writePairs_cons_of_ok (subject : String) (ps : List Pair)
    (hp : (v.writePair dir p).report.result = .ok paths) :
    (writePairs dir subject (p :: ps) v).report.result =
        (writePairs dir subject ps (v.writePair dir p).volume).report.result.map (paths ++ ·) ∧
      (writePairs dir subject (p :: ps) v).volume = (writePairs dir subject ps (v.writePair dir p).volume).volume := by
  rw [writePairs, Outcome.andThen_of_ok ((Report.result_onRefusal ..).trans hp)]
  exact ⟨rfl, rfl⟩

/-- Pairs are written one after another. -/
def Writes (v : Volume) (dir : String) (ps : List Pair) (w : Volume) : Prop :=
  ∃ subject paths, (writePairs dir subject ps v).report.result = .ok paths ∧ (writePairs dir subject ps v).volume = w

theorem Writes.delivers {w : Volume} (h : v.Writes dir ps w) (hstaged : v.disk.staged = []) :
    w.disk.staged = [] ∧ v.disk.Delivers (ps.flatMap (·.files dir)) w.disk ∧ (v.disk.IsTree → w.disk.IsTree) := by
  obtain ⟨subject, paths, hpaths, rfl⟩ := h
  obtain ⟨hdelivered, htree⟩ := writePairs_eq_ok hstaged hpaths
  exact ⟨hdelivered.staged, hdelivered.files, htree⟩

/-- Pairs are written until one cannot be; those before it are written as if there were no others. -/
theorem writePairs_eq_error (h : (writePairs dir subject ps v).report.result = .error e) :
    ∃ before p after w, ps = before ++ p :: after ∧ v.Writes dir before w ∧
      (w.writePair dir p).report.result = .error e ∧
      (writePairs dir subject ps v).volume = (w.writePair dir p).volume := by
  induction ps generalizing v with
  | nil => cases h
  | cons p ps ih =>
    cases hp : (v.writePair dir p).report.result with
    | error e' =>
      unfold writePairs at h ⊢
      dsimp only at h ⊢
      rw [Outcome.andThen_of_error ((Report.result_onRefusal ..).trans hp)] at h ⊢
      rw [Report.result_onRefusal] at h
      exact ⟨[], p, ps, v, rfl, ⟨subject, [], rfl, rfl⟩, h, rfl⟩
    | ok paths =>
      obtain ⟨hresult, hvolume⟩ := writePairs_cons_of_ok subject ps hp
      rw [hresult, map_eq_error] at h
      obtain ⟨before, q, after, w, rfl, ⟨subject', rest, hrest, hw⟩, hq, hlast⟩ := ih h
      obtain ⟨hresult', hvolume'⟩ := writePairs_cons_of_ok subject' before hp
      refine ⟨p :: before, q, after, w, rfl, ⟨subject', paths ++ rest, ?_, hvolume'.trans hw⟩, hq, hvolume.trans hlast⟩
      rw [hresult', hrest]
      rfl

end Volume

/-! ## Exports -/

namespace Node

variable {n : Node} {o : ExportOptions} {i : Nat} {v : Volume}

/-- Files whose stems lead nowhere have places of their own just if the stems differ. -/
theorem nodup_places_iff (dir : String) {as : List Artifact} (has : ∀ x ∈ as, '/' ∉ x.pair.stem.toList) :
    ((filesOf dir as).map fun f => placeOf f.1).Nodup ↔ (as.map (·.pair.stem)).Nodup := by
  have hstems : ((filesOf dir as).map (·.1)).Nodup ↔ (as.map (·.pair.stem)).Nodup := nodup_paths_iff has
  rw [← hstems]
  constructor
  · intro h
    exact List.Nodup.of_map placeOf (by rwa [List.map_map])
  · intro h
    have hnamed {f : String × String} (hf : f ∈ filesOf dir as) :
        ∃ name, Path.IsName name ∧ f.1 = joinPath dir name := by
      obtain ⟨x, hx, e, he, hf⟩ := mem_filesOf hf
      exact ⟨_, Path.isName_append (has x hx) he, hf⟩
    have hpaths : ((filesOf dir as).map (·.1)).map placeOf |>.Nodup := by
      refine h.map_on fun path hpath path' hpath' hsame => ?_
      obtain ⟨f, hf, rfl⟩ := List.mem_map.1 hpath
      obtain ⟨g, hg, rfl⟩ := List.mem_map.1 hpath'
      obtain ⟨name, hname, hf⟩ := hnamed hf
      obtain ⟨name', hname', hg⟩ := hnamed hg
      rw [hf, hg, placeOf_joinPath dir hname, placeOf_joinPath dir hname', List.append_cancel_left_eq] at hsame
      rw [hf, hg, List.singleton_inj.1 hsame]
    rwa [List.map_map] at hpaths

/-- What is left of an export of `before ++ x :: after` that could not write `x`, where `w` is what it had come to.
All files of `before` are there. A header of `x` that got its name is gone, any other is as before; so is everything
else, and no file waits for its name. -/
structure Interrupted (dir : String) (before : List Artifact) (x : Artifact) (after : List Artifact) (w : Volume)
    (d d' : Disk) : Prop where
  earlier : ∀ f ∈ filesOf dir before, d'.read? (.ofString f.1) = some f.2
  named : w.NamesHeader dir x.pair → d'.find? (placeOf (joinPath dir x.pair.headerName)) = none
  unnamed : ¬ w.NamesHeader dir x.pair →
    d'.text? (placeOf (joinPath dir x.pair.headerName)) = d.text? (placeOf (joinPath dir x.pair.headerName))
  source : d'.text? (placeOf (joinPath dir x.pair.sourceName)) = d.text? (placeOf (joinPath dir x.pair.sourceName))
  later : ∀ f ∈ filesOf dir after, d'.text? (placeOf f.1) = d.text? (placeOf f.1)
  staged : d'.staged = []
  directories : ∀ y, d.isDirectory y = true → d'.isDirectory y = true
  others : ∀ y, (∀ f ∈ filesOf dir (before ++ x :: after), placeOf f.1 ≠ y) → d'.text? y = d.text? y

theorem filesOf_append_cons (dir : String) (before after : List Artifact) (x : Artifact) :
    filesOf dir (before ++ x :: after) = filesOf dir before ++ (joinPath dir x.pair.headerName, x.pair.header.text) ::
      (joinPath dir x.pair.sourceName, x.pair.source.text) :: filesOf dir after := by
  unfold filesOf
  rw [List.flatMap_append, List.flatMap_cons]
  rfl

theorem interrupted {dir : String} {before after : List Artifact} {x : Artifact} {w : Volume} {d d' : Disk}
    (hplaces : ((filesOf dir (before ++ x :: after)).map fun f => placeOf f.1).Nodup)
    (hbefore : d.Delivers (filesOf dir before) w.disk) (hx : w.Withdrawn dir x.pair d') :
    Interrupted dir before x after w d d' := by
  rw [filesOf_append_cons, List.map_append, List.nodup_append', List.map_cons, List.map_cons, List.nodup_cons,
    List.mem_cons, not_or] at hplaces
  obtain ⟨hdistinct, ⟨⟨hsource, hafter⟩, -⟩, happart⟩ := hplaces
  have hother {y : Location} (hy : y ≠ placeOf (joinPath dir x.pair.headerName))
      (hbefore' : ∀ f ∈ filesOf dir before, placeOf f.1 ≠ y) : d'.text? y = d.text? y :=
    (hx.kept.text y hy).trans (hbefore.text?_eq hbefore')
  -- no file before has the place of one from here on
  have hearlier {y : Location} (hy : y ∈ placeOf (joinPath dir x.pair.headerName) ::
      placeOf (joinPath dir x.pair.sourceName) :: (filesOf dir after).map fun f => placeOf f.1) :
      ∀ f ∈ filesOf dir before, placeOf f.1 ≠ y := by
    rintro f hf rfl
    exact happart (List.mem_map.2 ⟨f, hf, rfl⟩) hy
  refine ⟨fun f hf => ?_, hx.named, fun hnamed => ?_, ?_, fun f hf => ?_, hx.staged, fun y hy => ?_, fun y hy => ?_⟩
  · exact hx.kept.read?_eq_some (hearlier (.head _) f hf) (hbefore.read_of_places hdistinct hf)
  · exact (hx.unnamed hnamed).trans (hbefore.text?_eq (hearlier (.head _)))
  · exact hother (Ne.symm hsource) (hearlier (.tail _ (.head _)))
  · have hmem : placeOf f.1 ∈ (filesOf dir after).map fun g => placeOf g.1 := List.mem_map.2 ⟨f, hf, rfl⟩
    exact hother (fun hsame => hafter (hsame ▸ hmem)) (hearlier (.tail _ (.tail _ hmem)))
  · obtain ⟨ws, hwrote, -⟩ := hbefore
    exact hx.kept.directory y (hwrote.isDirectory hy)
  · rw [filesOf_append_cons] at hy
    have hheader := hy _ (List.mem_append_right _ List.mem_cons_self)
    exact hother hheader.symm fun f hf => hy f (List.mem_append_left _ hf)

/-- An export that fails once its plan is there fails at a pair, which is withdrawn. -/
theorem exportApplication_eq_error {as : List Artifact} {e : Stop} (htree : v.disk.IsTree)
    (hstaged : v.disk.staged = []) (hplan : (n.plan i o).result = .ok as)
    (h : (n.exportApplication i o v).report.result = .error e) :
    (∃ path cause, e = .refused (.io path cause)) ∧ ∃ before x after w, as = before ++ x :: after ∧
      v.Writes o.outputDir (before.map (·.pair)) w ∧ (w.writePair o.outputDir x.pair).report.result = .error e ∧
      v.disk.Delivers (filesOf o.outputDir before) w.disk ∧
      w.Withdrawn o.outputDir x.pair (n.exportApplication i o v).volume.disk := by
  obtain ⟨a, hpairs, hvolume⟩ : ∃ a : Application,
      (Volume.writePairs o.outputDir (Event.application a.name) (as.map (·.pair)) v).report.result = .error e ∧
      (n.exportApplication i o v).volume =
        (Volume.writePairs o.outputDir (Event.application a.name) (as.map (·.pair)) v).volume := by
    unfold exportApplication at h ⊢
    cases ha : n.applicationAt i with
    | error e' =>
      unfold plan at hplan
      rw [ha] at hplan
      cases hplan
    | ok a =>
      refine ⟨a, ?_⟩
      rw [ha] at h
      dsimp only at h ⊢
      rw [Report.result_onRefusal, hplan] at h ⊢
      dsimp only at h ⊢
      cases hpaths : (Volume.writePairs o.outputDir (Event.application a.name) (as.map (·.pair)) v).report.result with
      | error e' =>
        rw [hpaths] at h
        exact ⟨h, rfl⟩
      | ok paths =>
        rw [hpaths] at h
        cases h
  obtain ⟨before, p, after, w, hsplit, hbefore, hp, hlast⟩ := Volume.writePairs_eq_error hpairs
  obtain ⟨before, rest, rfl, rfl, hrest⟩ := List.map_eq_append_iff.1 hsplit
  obtain ⟨x, after, rfl, rfl, rfl⟩ := List.map_eq_cons_iff.1 hrest
  obtain ⟨hwaiting, hdelivered, hkept⟩ := hbefore.delivers hstaged
  obtain ⟨hio, hwithdrawn⟩ := Volume.writePair_eq_error (hkept htree) hwaiting hp
  rw [List.flatMap_map] at hdelivered
  rw [← hlast, ← hvolume] at hwithdrawn
  exact ⟨hio, before, x, after, w, rfl, hbefore, hp, hdelivered, hwithdrawn⟩

/-- An export that fails before its plan is there has not begun. -/
theorem exportApplication_of_unplanned {e : Stop} (hplan : (n.plan i o).result = .error e) :
    (n.exportApplication i o v).volume = v := by
  unfold exportApplication
  cases ha : n.applicationAt i with
  | error e' => rfl
  | ok a =>
    dsimp only
    rw [Report.result_onRefusal, hplan]

/-- **What a failed export leaves behind.** Let the disk be a tree on which no file waits for its name. Whichever
primitives fail, an error that is not one of writing leaves everything as it was. Once the plan is there, an error is
one of writing, and comes of one pair after all pairs before it are written. If the files of the plan have places of
their own, then those of the pairs before it are there, the header of the pair is gone just if it had got its name, and
nothing else has changed. -/
theorem failed_export {e : Stop} (htree : v.disk.IsTree) (hstaged : v.disk.staged = [])
    (h : (n.exportApplication i o v).report.result = .error e) :
    ((∀ path cause, e ≠ .refused (.io path cause)) → (n.exportApplication i o v).volume = v) ∧
    ∀ as, (n.plan i o).result = .ok as → (∃ path cause, e = .refused (.io path cause)) ∧
      ∃ before x after w, as = before ++ x :: after ∧ v.Writes o.outputDir (before.map (·.pair)) w ∧
        (w.writePair o.outputDir x.pair).report.result = .error e ∧
        (((filesOf o.outputDir as).map fun f => placeOf f.1).Nodup →
          Interrupted o.outputDir before x after w v.disk (n.exportApplication i o v).volume.disk) := by
  refine ⟨fun hother => ?_, fun as hplan => ?_⟩
  · cases hplan : (n.plan i o).result with
    | error e' => exact exportApplication_of_unplanned hplan
    | ok as =>
      obtain ⟨⟨path, cause, rfl⟩, -⟩ := exportApplication_eq_error htree hstaged hplan h
      exact absurd rfl (hother path cause)
  · obtain ⟨hio, before, x, after, w, rfl, hbefore, hx, hdelivered, hwithdrawn⟩ :=
      exportApplication_eq_error htree hstaged hplan h
    exact ⟨hio, before, x, after, w, rfl, hbefore, hx, fun hplaces => interrupted hplaces hdelivered hwithdrawn⟩

/-- A Datapool with one value. -/
def pool (name : String) : Datapool := { Datapool.new name .generic (some 0) with
  lists := [{ ElementList.new "Values" with elements := [Element.scalar "Level" (.u8 0) (.u8 0) (.u8 1)] }] }

/-- A shaft with two Datapools. -/
def shaft : Node := { Node.empty with
  name := "Shaft"
  applications := [⟨"Panel", "", .programmable, 6, 0, true⟩]
  datapools := [pool "Pump", pool "Drain"] }

/-- An output directory in which a directory is in the way of a file. -/
def jammed (name : String) : Volume := ⟨⟨[(["out"], .directory), (["out", name], .directory)], []⟩, []⟩

theorem isTree_jammed (name : String) : (jammed name).disk.IsTree := by
  refine Disk.isTree_of_entries fun e he => ?_
  rcases List.mem_pair.1 he with rfl | rfl <;> rfl

/-- The source of the drain gets no name, so its header goes again. -/
theorem failed_export_shaft : ∃ as before x after w, (shaft.plan 0 (.new "out")).result = .ok as ∧
    as = before ++ x :: after ∧ Interrupted "out" before x after w (jammed "drain_data_pool.c").disk
      (shaft.exportApplication 0 (.new "out") (jammed "drain_data_pool.c")).volume.disk := by
  obtain ⟨as, hplan, hstems⟩ := exists_eq_ok_of_any (p := fun as : List Artifact => (as.map (·.pair.stem)).Nodup)
    (x := (shaft.plan 0 (.new "out")).result) (by decide +kernel)
  have hplaces := (nodup_places_iff "out" fun x hx => plain_of_mem_plan (by decide) hplan hx).2 hstems
  obtain ⟨-, hwriting⟩ := failed_export (n := shaft) (i := 0) (o := .new "out") (v := jammed "drain_data_pool.c")
    (e := .refused (.io "out/drain_data_pool.c" .isDirectory)) (isTree_jammed _) rfl (by decide +kernel)
  obtain ⟨-, before, x, after, w, hsplit, -, -, hinterrupted⟩ := hwriting as hplan
  exact ⟨as, before, x, after, w, hplan, hsplit, hinterrupted hplaces⟩

/-- A pit with a Datapool whose file has two names. -/
def pit : Node := { shaft with name := "Pit", datapools := [pool "Pump", pool "./Pump", pool "Drain"] }

/-- **Different stems, one file.** When the header of the drain cannot be written, what was written before it is not
all there. -/
theorem overwritten_pit : ∃ as before x after, (pit.plan 0 (.new "out")).result = .ok as ∧
    (as.map (·.pair.stem)).Nodup ∧ as = before ++ x :: after ∧ x.pair.headerName = "drain_data_pool.h" ∧
    (pit.exportApplication 0 (.new "out") (jammed "drain_data_pool.h")).report.result =
      .error (.refused (.io "out/drain_data_pool.h" .isDirectory)) ∧
    ¬ ∀ f ∈ filesOf "out" before, (pit.exportApplication 0 (.new "out")
      (jammed "drain_data_pool.h")).volume.disk.read? (.ofString f.1) = some f.2 := by
  obtain ⟨as, hplan, hstems, htexts⟩ := exists_eq_ok_of_any (x := (pit.plan 0 (.new "out")).result)
    (p := fun as => as.map (·.pair.stem) = ["osy_init", "pump_data_pool", "./pump_data_pool", "drain_data_pool"] ∧
      as[1]?.map (·.pair.header.text) ≠ as[2]?.map (·.pair.header.text)) (by decide +kernel)
  have hnodup : (as.map (·.pair.stem)).Nodup := by
    rw [hstems]
    decide
  obtain ⟨start, as, rfl, -, hstems⟩ := List.map_eq_cons_iff.1 hstems
  obtain ⟨x, as, rfl, hx, hstems⟩ := List.map_eq_cons_iff.1 hstems
  obtain ⟨y, as, rfl, hy, hstems⟩ := List.map_eq_cons_iff.1 hstems
  obtain ⟨z, as, rfl, hz, hstems⟩ := List.map_eq_cons_iff.1 hstems
  obtain rfl := List.map_eq_nil_iff.1 hstems
  obtain ⟨herror, hplace, hplace'⟩ :
      (pit.exportApplication 0 (.new "out") (jammed "drain_data_pool.h")).report.result =
          .error (.refused (.io "out/drain_data_pool.h" .isDirectory)) ∧
        (pit.exportApplication 0 (.new "out") (jammed "drain_data_pool.h")).volume.disk.locate
          (.ofString (joinPath "out" ("pump_data_pool" ++ ".h"))) = .ok ["out", "pump_data_pool.h"] ∧
        (pit.exportApplication 0 (.new "out") (jammed "drain_data_pool.h")).volume.disk.locate
          (.ofString (joinPath "out" ("./pump_data_pool" ++ ".h"))) = .ok ["out", "pump_data_pool.h"] := by
    decide +kernel
  refine ⟨_, [start, x, y], z, [], hplan, hnodup, rfl, congrArg (· ++ ".h") hz, herror, fun hall => ?_⟩
  have hread := hall (joinPath "out" x.pair.headerName, _) (.tail _ (.tail _ (.head _)))
  have hread' := hall (joinPath "out" y.pair.headerName, _) (.tail _ (.tail _ (.tail _ (.tail _ (.head _)))))
  rw [← hx] at hplace
  rw [← hy] at hplace'
  rw [Pair.headerName, Disk.read?_of_locate hplace] at hread
  rw [Pair.headerName, Disk.read?_of_locate hplace'] at hread'
  exact htexts (hread.symm.trans hread')

end Node

end BusNode
