import BusNode.Disk.Basic
import BusNode.Proofs.Disk.Path
import BusNode.Proofs.Success
import Mathlib.Data.List.Nodup
/-!
# What is written to a disk

* `Disk.Wrote` — a disk comes of another one by writing files, in order, and by making directories;
* `Disk.locate_of_wrote` — a path that leads somewhere still leads there afterwards;
* `Disk.wrote_createDirs`, `Disk.stage_eq_ok`, `Disk.persist_eq_ok` — what the primitives write;
* `Disk.Delivers` — files are written to their paths, and the last one of a place stays;
* `Disk.Delivers.read` — so every file can be read where no two places are the same.
-/

namespace BusNode.Disk

variable {d d' d'' : Disk} {x y : Location} {c : String} {p : Path} {ws ws' : List (Location × String)}

/-! ## Writing -/

/-- What is written last to a place. -/
def lastText (ws : List (Location × String)) (x : Location) : Option String := (ws.reverse.find? (·.1 = x)).map (·.2)

theorem lastText_append (ws ws' : List (Location × String)) (x : Location) :
    lastText (ws ++ ws') x = (lastText ws' x).or (lastText ws x) := by
  unfold lastText
  rw [List.reverse_append, List.find?_append, Option.map_or]

theorem lastText_eq_none (h : ∀ w ∈ ws, w.1 ≠ x) : lastText ws x = none := by
  unfold lastText
  rw [Option.map_eq_none_iff, List.find?_eq_none]
  intro w hw hwx
  exact h w (List.mem_reverse.1 hw) (by simpa using hwx)

theorem lastText_eq_some {text : String} (hnodup : (ws.map (·.1)).Nodup) (h : (x, text) ∈ ws) :
    lastText ws x = some text := by
  induction ws with
  | nil => cases h
  | cons w ws ih =>
    obtain ⟨hw, hnodup⟩ := List.nodup_cons.1 hnodup
    show lastText ([w] ++ ws) x = some text
    rw [lastText_append]
    rcases List.mem_cons.1 h with rfl | h
    · rw [lastText_eq_none fun v hv hvx => hw (List.mem_map.2 ⟨v, hv, hvx⟩)]
      simp [lastText]
    · rw [ih hnodup h]
      rfl

/-- Files are written in order, and maybe directories are made; no directory is lost, and no other file changes. -/
structure Wrote (d : Disk) (ws : List (Location × String)) (d' : Disk) : Prop where
  directory : ∀ x, d.find? x = some .directory → d'.find? x = some .directory
  file : ∀ x text, d'.find? x = some (.file text) ↔
    lastText ws x = some text ∨ lastText ws x = none ∧ d.find? x = some (.file text)

namespace Wrote

theorem of_find? (h : ∀ x, d'.find? x = d.find? x) : d.Wrote [] d' :=
  ⟨fun x hx => (h x).trans hx, fun x text => by simp [lastText, h x]⟩

theorem refl (d : Disk) : d.Wrote [] d := of_find? fun _ => rfl

theorem trans (h : d.Wrote ws d') (h' : d'.Wrote ws' d'') : d.Wrote (ws ++ ws') d'' := by
  refine ⟨fun x hx => h'.directory x (h.directory x hx), fun x text => ?_⟩
  rw [h'.file, h.file, lastText_append]
  cases lastText ws' x with
  | none => simp
  | some text' => simp

theorem isSome (h : d.Wrote ws d') (hx : (d.find? x).isSome = true) : (d'.find? x).isSome = true := by
  obtain ⟨e, he⟩ := Option.isSome_iff_exists.1 hx
  cases e with
  | directory => rw [h.directory x he]; rfl
  | file text =>
    cases hlast : lastText ws x with
    | none => rw [(h.file x text).2 (.inr ⟨hlast, he⟩)]; rfl
    | some text' => rw [(h.file x text').2 (.inl hlast)]; rfl

end Wrote

/-- A directory where nothing was. -/
theorem wrote_set_directory (h : d.find? x = none) : d.Wrote [] (d.set x .directory) := by
  have hroot : x ≠ [] := fun hx => by
    rw [hx] at h
    cases h
  refine ⟨fun y hy => ?_, fun y text => ?_⟩
  · by_cases hyx : y = x
    · rw [hyx, h] at hy
      cases hy
    · rwa [find?_set_of_ne d hyx]
  · by_cases hyx : y = x
    · rw [hyx, find?_set_self d hroot, h]
      simp [lastText]
    · rw [find?_set_of_ne d hyx]
      simp [lastText]

/-- A file where no directory is. -/
theorem wrote_set_file (h : d.isDirectory x = false) (text : String) : d.Wrote [(x, text)] (d.set x (.file text)) := by
  have hroot : x ≠ [] := fun hx => by
    rw [hx] at h
    cases h
  refine ⟨fun y hy => ?_, fun y text' => ?_⟩
  · by_cases hyx : y = x
    · rw [hyx] at hy
      rw [isDirectory, hy] at h
      cases h
    · rwa [find?_set_of_ne d hyx]
  · by_cases hyx : y = x
    · rw [hyx, find?_set_self d hroot]
      simp [lastText]
    · rw [find?_set_of_ne d hyx]
      simp [lastText, Ne.symm hyx]

/-! ## Walking -/

/-- Where the components of a path lead from a place. -/
def walk (d : Disk) (x : Location) (p : Path) : Except DiskError Location := p.foldlM d.follow x

theorem walk_append (d : Disk) (x : Location) (p q : Path) : d.walk x (p ++ q) = d.walk x p >>= (d.walk · q) :=
  List.foldlM_append ..

theorem locate_eq_ok : d.locate p = .ok x ↔ p.byteLength ≤ maxPathLength ∧ d.walk [] p = .ok x := by
  unfold locate walk
  split
  · exact iff_of_false (fun h => nomatch h) fun h => by omega
  · exact (and_iff_right (by omega)).symm

theorem isDirectory_iff : d.isDirectory x = true ↔ d.find? x = some .directory := by
  unfold isDirectory
  rw [decide_eq_true_iff]

/-- What a component can lead to from a directory. -/
theorem follow_eq_ok : d.follow x c = .ok y ↔ d.isDirectory x = true ∧
    if Path.isIdle c then y = x
    else if c = ".." then y = x.dropLast
    else c.utf8ByteSize ≤ maxNameLength ∧ (d.find? y).isSome = true ∧ y = x ++ [c] := by
  unfold follow
  by_cases hdir : d.isDirectory x = true
  · rw [if_neg (by simp [hdir]), and_iff_right hdir]
    by_cases hidle : Path.isIdle c = true
    · rw [if_pos hidle, if_pos hidle, Except.ok.injEq, eq_comm]
    rw [if_neg hidle, if_neg hidle]
    by_cases houter : c = ".."
    · rw [if_pos houter, if_pos houter, Except.ok.injEq, eq_comm]
    rw [if_neg houter, if_neg houter]
    by_cases hlength : maxNameLength < c.utf8ByteSize
    · rw [if_pos hlength]
      exact iff_of_false nofun fun h => by omega
    rw [if_neg hlength, and_iff_right (by omega)]
    cases hfind : d.find? (x ++ [c]) with
    | none =>
      refine iff_of_false nofun ?_
      rintro ⟨hthere, rfl⟩
      rw [hfind] at hthere
      cases hthere
    | some e =>
      refine ⟨fun h => ?_, fun h => h.2 ▸ rfl⟩
      obtain rfl := Except.ok.inj h
      exact ⟨by rw [hfind]; rfl, rfl⟩
  · rw [if_pos (by simpa using hdir)]
    exact iff_of_false nofun fun h => hdir h.1

/-- A name is missing in a directory. -/
theorem follow_eq_notFound : d.follow x c = .error .notFound ↔ d.isDirectory x = true ∧ Path.isIdle c = false ∧
    c ≠ ".." ∧ c.utf8ByteSize ≤ maxNameLength ∧ d.find? (x ++ [c]) = none := by
  unfold follow
  by_cases hdir : d.isDirectory x = true
  · rw [if_neg (by simp [hdir]), and_iff_right hdir]
    by_cases hidle : Path.isIdle c = true
    · rw [if_pos hidle, hidle]
      exact iff_of_false nofun nofun
    rw [if_neg hidle, and_iff_right (Bool.eq_false_iff.2 hidle)]
    by_cases houter : c = ".."
    · rw [if_pos houter]
      exact iff_of_false nofun fun h => h.1 houter
    rw [if_neg houter, and_iff_right houter]
    by_cases hlength : maxNameLength < c.utf8ByteSize
    · rw [if_pos hlength]
      exact iff_of_false nofun fun h => by omega
    rw [if_neg hlength, and_iff_right (by omega)]
    cases hfind : d.find? (x ++ [c]) with
    | none => exact iff_of_true rfl rfl
    | some e => exact iff_of_false nofun nofun
  · rw [if_pos (by simpa using hdir)]
    exact iff_of_false nofun fun h => hdir h.1

/-- A name leads from a directory to what is there of this name. -/
theorem follow_isName (hc : Path.IsName c) : d.follow x c = .ok y ↔ d.isDirectory x = true ∧
    c.utf8ByteSize ≤ maxNameLength ∧ (d.find? y).isSome = true ∧ y = x ++ [c] := by
  rw [follow_eq_ok, if_neg (by simp [hc.notIdle]), if_neg hc.notOuter]

/-- A component leads where it did if the directory is kept, and what it leads to. -/
theorem follow_of_kept (hdir : d.isDirectory x = true → d'.isDirectory x = true)
    (hthere : (d.find? y).isSome = true → (d'.find? y).isSome = true) (h : d.follow x c = .ok y) :
    d'.follow x c = .ok y := by
  rw [follow_eq_ok] at h ⊢
  refine h.imp hdir fun h => ?_
  split at h
  · rwa [if_pos ‹_›]
  · rw [if_neg ‹_›]
    split at h
    · rwa [if_pos ‹_›]
    · rw [if_neg ‹_›]
      exact ⟨h.1, hthere h.2.1, h.2.2⟩

/-- So does a path. What is on its way is a directory, for only its end may be a file. -/
theorem walk_of_kept (hdir : ∀ z, d.isDirectory z = true → d'.isDirectory z = true)
    (hthere : (d.find? y).isSome = true → (d'.find? y).isSome = true) (h : d.walk x p = .ok y) :
    d'.walk x p = .ok y := by
  induction p generalizing x with
  | nil => exact h
  | cons c p ih =>
    obtain ⟨z, hz, h⟩ := bind_eq_ok.1 h
    refine bind_eq_ok.2 ⟨z, follow_of_kept (hdir x) ?_ hz, ih h⟩
    cases p with
    | nil => exact pure_eq_ok.1 h ▸ hthere
    | cons b p =>
      obtain ⟨_, hnext, _⟩ := bind_eq_ok.1 h
      exact fun _ => Option.isSome_of_mem (isDirectory_iff.1 (hdir z (follow_eq_ok.1 hnext).1))

theorem locate_of_kept (hdir : ∀ z, d.isDirectory z = true → d'.isDirectory z = true)
    (hthere : (d.find? x).isSome = true → (d'.find? x).isSome = true) (h : d.locate p = .ok x) :
    d'.locate p = .ok x := by
  rw [locate_eq_ok] at h ⊢
  exact ⟨h.1, walk_of_kept hdir hthere h.2⟩

theorem Wrote.isDirectory (h : d.Wrote ws d') (hx : d.isDirectory x = true) : d'.isDirectory x = true :=
  isDirectory_iff.2 (h.directory x (isDirectory_iff.1 hx))

theorem walk_of_wrote (h : d.Wrote ws d') (hx : d.walk x p = .ok y) : d'.walk x p = .ok y :=
  walk_of_kept (fun _ => h.isDirectory) h.isSome hx

theorem locate_of_wrote (h : d.Wrote ws d') (hx : d.locate p = .ok x) : d'.locate p = .ok x :=
  locate_of_kept (fun _ => h.isDirectory) h.isSome hx

/-! ## Primitives -/

theorem commit_eq_ok {r : Except DiskError Disk} (h : d.commit r = (.ok (), d')) : r = .ok d' := by
  cases r with
  | error e => cases h
  | ok e =>
    cases h
    rfl

theorem createDir_eq_ok (h : d.createDir p = .ok d') :
    ∃ x, d.slot p.withoutTrailingSlash = .ok x ∧ d.find? x = none ∧ d' = d.set x .directory := by
  obtain ⟨x, hslot, h⟩ := bind_eq_ok.1 h
  split at h
  · cases h
  · rename_i hnone
    exact ⟨x, hslot, by simpa using hnone, (Except.ok.inj h).symm⟩

theorem commit_eq_error {r : Except DiskError Disk} {e : DiskError} (h : d.commit r = (.error e, d')) : d' = d := by
  cases r with
  | error e' =>
    cases h
    rfl
  | ok d' => cases h

/-- What a change keeps that is made whole or not at all. -/
theorem commit_induction {P : Disk → Prop} {r : Except DiskError Disk} (none : P d) (whole : ∀ d', r = .ok d' → P d') :
    P (d.commit r).2 := by
  cases r with
  | error e => exact none
  | ok d' => exact whole d' rfl

/-- What is kept where one directory is made is kept where directories are made, be it that some of them cannot. -/
theorem createDirs_induction {P : Disk → Prop} (start : P d)
    (make : ∀ d p d', P d → d.createDir p = .ok d' → P d') (p : Path) : P (d.createDirs p).2 := by
  have ensure (d : Disk) (hd : P d) (p : Path) : P (d.commit (d.ensureDir p)).2 := by
    refine commit_induction hd fun d' h => ?_
    unfold ensureDir at h
    split at h
    · rename_i e he
      exact Except.ok.inj h ▸ make d p e hd he
    · split at h
      · split at h
        · exact Except.ok.inj h ▸ hd
        · cases h
      · cases h
  suffices below : ∀ ps p, P (d.createDirsBelow p ps).2 from below p.outers p
  intro ps
  induction ps with
  | nil => exact ensure d start
  | cons q qs ih =>
    intro p
    unfold createDirsBelow
    split
    · split
      · rename_i e he
        exact ensure e (by simpa [he] using ih q) p
      · exact ih q
    · exact ensure d start p

/-- Making directories writes no file. -/
theorem wrote_createDirs (d : Disk) (p : Path) :
    d.Wrote [] (d.createDirs p).2 ∧ (d.createDirs p).2.staged = d.staged := by
  refine createDirs_induction (P := fun d' => d.Wrote [] d' ∧ d'.staged = d.staged) ⟨.refl d, rfl⟩ ?_ p
  rintro e q e' ⟨hwrote, hstaged⟩ he
  obtain ⟨x, -, hnone, rfl⟩ := createDir_eq_ok he
  exact ⟨hwrote.trans (wrote_set_directory hnone), hstaged⟩

/-- A file without a name is none of the files. -/
theorem stage_eq_ok {text : String} (h : d.stage p text = (.ok (), d')) :
    d.Wrote [] d' ∧ d'.staged.map (·.text) = d.staged.map (·.text) ++ [text] := by
  obtain ⟨x, -, h⟩ := bind_eq_ok.1 (commit_eq_ok h)
  obtain rfl := Except.ok.inj h
  exact ⟨.of_find? fun _ => rfl, by rw [List.map_append]; rfl⟩

/-- A slot is there, or only its last name is missing. -/
theorem slot_cases (h : d.slot p = .ok x) : p.byteLength ≤ maxPathLength ∧ ∃ y, d.walk [] p.dropLast = .ok y ∧
    (d.follow y (p.getLastD "") = .ok x ∨
      d.follow y (p.getLastD "") = .error .notFound ∧ x = y ++ [p.getLastD ""]) := by
  unfold slot at h
  split at h
  · cases h
  · rename_i hlength
    obtain ⟨y, hy, h⟩ := bind_eq_ok.1 h
    dsimp only at h
    refine ⟨by omega, y, hy, ?_⟩
    split at h
    · exact .inr ⟨‹_›, (Except.ok.inj h).symm⟩
    · exact .inl h

/-- A slot for a name is in the directory before it. -/
theorem slot_eq_ok (hc : Path.IsName c) (h : d.slot (p ++ [c]) = .ok x) :
    (p ++ [c]).byteLength ≤ maxPathLength ∧ ∃ y, d.walk [] p = .ok y ∧ d.isDirectory y = true ∧
      c.utf8ByteSize ≤ maxNameLength ∧ x = y ++ [c] := by
  obtain ⟨hlength, y, hy, h⟩ := slot_cases h
  rw [List.dropLast_concat] at hy
  rw [List.getLastD_concat] at h
  refine ⟨hlength, y, hy, ?_⟩
  rcases h with hthere | ⟨hmissing, rfl⟩
  · obtain ⟨hdir, hname, -, hx⟩ := (follow_isName hc).1 hthere
    exact ⟨hdir, hname, hx⟩
  · obtain ⟨hdir, -, -, hname, -⟩ := follow_eq_notFound.1 hmissing
    exact ⟨hdir, hname, rfl⟩

theorem fileSlot_eq_ok : d.fileSlot p = .ok x ↔ d.slot p = .ok x ∧ d.isDirectory x = false := by
  unfold fileSlot
  rw [bind_eq_ok]
  constructor
  · rintro ⟨y, hy, h⟩
    split at h
    · cases h
    · obtain rfl := Except.ok.inj h
      exact ⟨hy, Bool.eq_false_iff.2 ‹_›⟩
  · rintro ⟨hx, hdir⟩
    exact ⟨x, hx, by rw [hdir]; rfl⟩

/-- The first file without a name is written to its path. -/
theorem persist_eq_ok {text : String} {texts : List String} (hc : Path.IsName c)
    (hstaged : d.staged.map (·.text) = text :: texts) (h : d.persist (p ++ [c]) = (.ok (), d')) :
    d'.staged.map (·.text) = texts ∧ ∃ x, d.Wrote [(x, text)] d' ∧ d'.locate (p ++ [c]) = .ok x := by
  obtain ⟨s, rest, hs, rfl, rfl⟩ := List.map_eq_cons_iff.1 hstaged
  unfold persist at h
  rw [hs] at h
  have h := commit_eq_ok h
  cases hslot : d.fileSlot (p ++ [c]) with
  | error e =>
    rw [hslot] at h
    cases h
  | ok x =>
    rw [hslot] at h
    obtain rfl := Except.ok.inj h
    obtain ⟨hslot, hdir⟩ := fileSlot_eq_ok.1 hslot
    have hwrote : d.Wrote [(x, s.text)] { d.set x (.file s.text) with staged := rest } :=
      (wrote_set_file hdir s.text).trans (.of_find? fun _ => rfl)
    obtain ⟨hlength, y, hy, hydir, hname, rfl⟩ := slot_eq_ok hc hslot
    refine ⟨rfl, y ++ [c], hwrote, locate_eq_ok.2 ⟨hlength, ?_⟩⟩
    have hydir' := hwrote.isDirectory hydir
    have hthere := (hwrote.file (y ++ [c]) s.text).2 (.inl (by simp [lastText]))
    rw [walk_append, walk_of_wrote hwrote hy]
    have hfollow := (follow_isName hc).2 ⟨hydir', hname, Option.isSome_of_mem hthere, rfl⟩
    exact bind_eq_ok.2 ⟨y, rfl, bind_eq_ok.2 ⟨_, hfollow, rfl⟩⟩

/-! ## Deliveries -/

/-- Files are written to their paths. -/
def Delivers (d : Disk) (fs : List (String × String)) (d' : Disk) : Prop :=
  ∃ ws, d.Wrote ws d' ∧ List.Forall₂ (fun f w => d'.locate (.ofString f.1) = .ok w.1 ∧ f.2 = w.2) fs ws

namespace Delivers

variable {fs fs' : List (String × String)}

theorem refl (d : Disk) : d.Delivers [] d := ⟨[], .refl d, .nil⟩

theorem trans (h : d.Delivers fs d') (h' : d'.Delivers fs' d'') : d.Delivers (fs ++ fs') d'' := by
  obtain ⟨ws, hw, hs⟩ := h
  obtain ⟨ws', hw', hs'⟩ := h'
  exact ⟨ws ++ ws', hw.trans hw', List.rel_append (hs.imp fun f w h => ⟨locate_of_wrote hw' h.1, h.2⟩) hs'⟩

/-- Where no two paths are the same or lead to one place, every file is there in the end. -/
theorem read (h : d.Delivers fs d') (hnodup : (fs.map (·.1)).Nodup)
    (hplaces : ∀ f ∈ fs, ∀ g ∈ fs, ∀ x, d'.locate (.ofString f.1) = .ok x → d'.locate (.ofString g.1) = .ok x →
      f.1 = g.1) {f : String × String} (hf : f ∈ fs) : d'.read? (.ofString f.1) = some f.2 := by
  obtain ⟨ws, hw, hs⟩ := h
  have hlocated : (fs.map (·.1)).map (fun path => d'.locate (.ofString path)) = (ws.map (·.1)).map .ok := by
    rw [List.map_map, List.map_map]
    refine List.forall₂_eq_eq_eq ▸ List.forall₂_map_left_iff.2 (List.forall₂_map_right_iff.2 ?_)
    exact hs.imp fun f w h => h.1
  have hnodup : (ws.map (·.1)).Nodup := by
    refine List.Nodup.of_map (Except.ok : Location → Except DiskError Location) (hlocated ▸ hnodup.map_on ?_)
    intro path hpath path' hpath' hsame
    obtain ⟨f, hf, rfl⟩ := List.mem_map.1 hpath
    obtain ⟨g, hg, rfl⟩ := List.mem_map.1 hpath'
    obtain ⟨w, -, hx, -⟩ := exists_of_mem_left hs hf
    exact hplaces f hf g hg w.1 hx (hsame ▸ hx)
  obtain ⟨⟨x, text⟩, hx, hlocate, htext⟩ := exists_of_mem_left hs hf
  have hthere := (hw.file x text).2 (.inl (lastText_eq_some hnodup hx))
  unfold read?
  rw [hlocate, htext]
  dsimp only
  rw [hthere]

end Delivers

/-! ## Places in a directory -/

/-- A file of a directory is where the directory is, under its name. -/
theorem locate_joinPath {dir name : String} (hname : Path.IsName name)
    (h : d.locate (.ofString (joinPath dir name)) = .ok x) :
    ∃ y, d.walk [] (Path.ofString dir).folder = .ok y ∧ x = y ++ [name] := by
  rw [Path.ofString_joinPath dir hname.plain] at h
  obtain ⟨-, h⟩ := locate_eq_ok.1 h
  rw [Path.child_eq, walk_append] at h
  obtain ⟨y, hy, h⟩ := bind_eq_ok.1 h
  obtain ⟨z, hz, h⟩ := bind_eq_ok.1 h
  obtain rfl := pure_eq_ok.1 h
  exact ⟨y, hy, ((follow_isName hname).1 hz).2.2.2⟩

/-- A directory of a directory is where the other one is, under its name. -/
theorem walk_folder_joinPath {dir name : String} (hname : Path.IsName name)
    (h : d.walk [] (Path.ofString (joinPath dir name)).folder = .ok x) :
    ∃ y, d.walk [] (Path.ofString dir).folder = .ok y ∧ x = y ++ [name] := by
  rw [Path.ofString_joinPath dir hname.plain, Path.folder_child hname, Path.child_eq, walk_append] at h
  obtain ⟨y, hy, h⟩ := bind_eq_ok.1 h
  obtain ⟨z, hz, h⟩ := bind_eq_ok.1 h
  obtain rfl := pure_eq_ok.1 h
  exact ⟨y, hy, ((follow_isName hname).1 hz).2.2.2⟩

/-- Files of a directory are in one place just under one name. -/
theorem name_eq_of_locate {dir a b : String} (ha : Path.IsName a) (hb : Path.IsName b)
    (hx : d.locate (.ofString (joinPath dir a)) = .ok x) (hy : d.locate (.ofString (joinPath dir b)) = .ok x) :
    a = b := by
  obtain ⟨y, -, rfl⟩ := locate_joinPath ha hx
  obtain ⟨z, -, hz⟩ := locate_joinPath hb hy
  exact List.singleton_inj.1 (List.append_inj' hz rfl).2

/-- So are files of directories of a directory. -/
theorem names_eq_of_locate {dir a b f g : String} (ha : Path.IsName a) (hb : Path.IsName b) (hf : Path.IsName f)
    (hg : Path.IsName g) (hx : d.locate (.ofString (joinPath (joinPath dir a) f)) = .ok x)
    (hy : d.locate (.ofString (joinPath (joinPath dir b) g)) = .ok x) : a = b ∧ f = g := by
  obtain ⟨y, hwalk, rfl⟩ := locate_joinPath hf hx
  obtain ⟨z, hwalk', hz⟩ := locate_joinPath hg hy
  obtain ⟨hfolder, hname⟩ := List.append_inj' hz rfl
  obtain ⟨y', -, rfl⟩ := walk_folder_joinPath ha hwalk
  obtain ⟨z', -, rfl⟩ := walk_folder_joinPath hb hwalk'
  exact ⟨List.singleton_inj.1 (List.append_inj' hfolder rfl).2, List.singleton_inj.1 hname⟩

end BusNode.Disk
