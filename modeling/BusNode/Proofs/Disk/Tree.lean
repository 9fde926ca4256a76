import BusNode.Proofs.Disk.Write
import Mathlib.Data.List.Induction
/-!
# Files by their places

* `placeOf` — where a path leads, by its components alone: `Disk.placeOf_of_locate`;
* `Disk.text?` — the text of the file at a place;
* `Disk.IsTree` — everything is in a directory, which the primitives keep;
* `Disk.find?_erase_file` — so a file that is removed takes nothing with it;
* `Disk.KeepsBut` — everything but one file is kept.
-/

namespace BusNode

/-- Where a path leads from a place: every component into what is before it, `..` out of it. -/
def Path.placeFrom (x : Location) (p : Path) : Location :=
  p.foldl (fun y c => if isIdle c then y else if c = ".." then y.dropLast else y ++ [c]) x

/-- Where a path leads, as it is spelled. -/
def placeOf (path : String) : Location := (Path.ofString path).placeFrom []

theorem Path.placeFrom_append (x : Location) (p q : Path) : (p ++ q).placeFrom x = q.placeFrom (p.placeFrom x) :=
  List.foldl_append

/-- A file of a directory is where the directory is, under its name. -/
theorem placeOf_joinPath (dir : String) {name : String} (h : Path.IsName name) :
    placeOf (joinPath dir name) = (Path.ofString dir).folder.placeFrom [] ++ [name] := by
  unfold placeOf
  rw [Path.ofString_joinPath dir h.plain, Path.child_eq, Path.placeFrom_append, Path.placeFrom, List.foldl_cons,
    List.foldl_nil, h.notIdle, if_neg (by simp), if_neg h.notOuter]

namespace Disk

variable {d d' d'' : Disk} {x y : Location} {c : String} {p : Path} {ws : List (Location × String)}

/-! ## Places -/

theorem placeFrom_of_walk (h : d.walk x p = .ok y) : p.placeFrom x = y := by
  induction p generalizing x with
  | nil => exact pure_eq_ok.1 h
  | cons c p ih =>
    obtain ⟨z, hz, h⟩ := bind_eq_ok.1 h
    obtain ⟨-, hz⟩ := follow_eq_ok.1 hz
    have hplace : (if Path.isIdle c then x else if c = ".." then x.dropLast else x ++ [c]) = z := by
      split at hz
      · rw [if_pos ‹_›, hz]
      · rw [if_neg ‹_›]
        split at hz
        · rw [if_pos ‹_›, hz]
        · rw [if_neg ‹_›, hz.2.2]
    rw [Path.placeFrom, List.foldl_cons, hplace]
    exact ih h

/-- Where a path leads does not depend on the disk, but for whether it leads anywhere. -/
theorem placeOf_of_locate {path : String} (h : d.locate (.ofString path) = .ok x) : placeOf path = x :=
  placeFrom_of_walk (locate_eq_ok.1 h).2

/-! ## Texts -/

/-- The text of the file at a place. -/
def text? (d : Disk) (x : Location) : Option String :=
  match d.find? x with
  | some (.file text) => some text
  | _ => none

theorem text?_eq_some {text : String} : d.text? x = some text ↔ d.find? x = some (.file text) := by
  unfold text?
  split
  · rename_i text' hfind
    rw [hfind, Option.some_inj, Option.some_inj, DiskEntry.file.injEq]
  · rename_i hnone
    exact iff_of_false nofun (hnone text)

theorem text?_of_find? (h : d'.find? x = d.find? x) : d'.text? x = d.text? x := by
  unfold text?
  rw [h]

/-- A file is read where its path leads. -/
theorem read?_of_locate (h : d.locate p = .ok x) : d.read? p = d.text? x := by
  unfold read?
  rw [h]
  rfl

theorem exists_of_read? {text : String} (h : d.read? p = some text) :
    ∃ x, d.locate p = .ok x ∧ d.text? x = some text := by
  cases hx : d.locate p with
  | error e =>
    unfold read? at h
    rw [hx] at h
    cases h
  | ok x => exact ⟨x, rfl, read?_of_locate hx ▸ h⟩

theorem Wrote.text?_eq (h : d.Wrote ws d') (x : Location) : d'.text? x = (lastText ws x).or (d.text? x) := by
  ext text
  rw [text?_eq_some, h.file, Option.or_eq_some_iff, text?_eq_some]

/-! ## Trees -/

/-- What is in something is in a directory. -/
def IsTree (d : Disk) : Prop := ∀ x c, (d.find? (x ++ [c])).isSome = true → d.isDirectory x = true

theorem isTree_of_entries (h : ∀ e ∈ d.entries, d.isDirectory e.1.dropLast = true) : d.IsTree := by
  intro x c hthere
  unfold find? at hthere
  rw [if_neg (List.concat_ne_nil c x), Option.isSome_map] at hthere
  obtain ⟨e, he⟩ := Option.isSome_iff_exists.1 hthere
  have hplace : e.1 = x ++ [c] := by simpa using List.find?_some he
  have hdir := h e (List.mem_of_find?_eq_some he)
  rwa [hplace, List.dropLast_concat] at hdir

namespace IsTree

/-- A place with anything below it is a directory. -/
theorem isDirectory_of_below (h : d.IsTree) (hxy : x <+: y) (hne : y ≠ x) (hy : (d.find? y).isSome = true) :
    d.isDirectory x = true := by
  obtain ⟨z, rfl⟩ := hxy
  induction z using List.reverseRecOn with
  | nil => exact absurd (List.append_nil x) hne
  | append_singleton z c ih =>
    rw [← List.append_assoc] at hy
    have hdir := h _ c hy
    by_cases hz : x ++ z = x
    · rwa [hz] at hdir
    · exact ih hz (Option.isSome_of_mem (isDirectory_iff.1 hdir))

theorem isDirectory_dropLast (h : d.IsTree) (hx : (d.find? x).isSome = true) : d.isDirectory x.dropLast = true := by
  cases x using List.reverseRecOn with
  | nil => rfl
  | append_singleton x c =>
    rw [List.dropLast_concat]
    exact h x c hx

theorem isSome_of_follow (h : d.IsTree) (hfollow : d.follow x c = .ok y) : (d.find? y).isSome = true := by
  obtain ⟨hdir, hy⟩ := follow_eq_ok.1 hfollow
  have hx : (d.find? x).isSome = true := Option.isSome_of_mem (isDirectory_iff.1 hdir)
  split at hy
  · rwa [hy]
  · split at hy
    · rw [hy]
      exact Option.isSome_of_mem (isDirectory_iff.1 (h.isDirectory_dropLast hx))
    · exact hy.2.1

/-- A slot with nothing in it is in a directory. -/
theorem isDirectory_of_slot (h : d.IsTree) (hslot : d.slot p = .ok x) (hnone : d.find? x = none) :
    d.isDirectory x.dropLast = true := by
  obtain ⟨-, y, -, hslot | ⟨hmissing, rfl⟩⟩ := slot_cases hslot
  · have hthere := h.isSome_of_follow hslot
    rw [hnone] at hthere
    cases hthere
  · rw [List.dropLast_concat]
    exact (follow_eq_notFound.1 hmissing).1

theorem of_find? (h : d.IsTree) (hsame : ∀ x, d'.find? x = d.find? x) : d'.IsTree := by
  intro x c hx
  rw [hsame] at hx
  rw [isDirectory_iff, hsame]
  exact isDirectory_iff.1 (h x c hx)

/-- A tree is still one with something in a directory that is none itself. -/
theorem set (h : d.IsTree) (hx : d.isDirectory x = false) (houter : d.isDirectory x.dropLast = true) (e : DiskEntry) :
    (d.set x e).IsTree := by
  have kept {y : Location} (hy : d.isDirectory y = true) : (d.set x e).isDirectory y = true := by
    have hyx : y ≠ x := fun hyx => by rw [← hyx, hy] at hx; cases hx
    rw [isDirectory_iff, find?_set_of_ne d hyx]
    exact isDirectory_iff.1 hy
  intro y c hy
  by_cases hyc : y ++ [c] = x
  · rw [← hyc, List.dropLast_concat] at houter
    exact kept houter
  · rw [find?_set_of_ne d hyc] at hy
    exact kept (h y c hy)

theorem createDirs (h : d.IsTree) (p : Path) : (d.createDirs p).2.IsTree := by
  refine createDirs_induction h (fun d p d' h hd => ?_) p
  obtain ⟨x, hslot, hnone, rfl⟩ := createDir_eq_ok hd
  refine h.set ?_ (h.isDirectory_of_slot hslot hnone) _
  unfold isDirectory
  rw [hnone]
  rfl

theorem stage (h : d.IsTree) (p : Path) (text : String) : (d.stage p text).2.IsTree := by
  refine commit_induction h fun d' hd => ?_
  obtain ⟨x, -, hd⟩ := bind_eq_ok.1 hd
  exact h.of_find? (Except.ok.inj hd ▸ fun _ => rfl)

theorem persist (h : d.IsTree) (hc : Path.IsName c) : (d.persist (p ++ [c])).2.IsTree := by
  unfold Disk.persist
  split
  · exact h
  · refine commit_induction h fun d' hd => ?_
    cases hslot : d.fileSlot (p ++ [c]) with
    | error e =>
      rw [hslot] at hd
      cases hd
    | ok x =>
      rw [hslot] at hd
      obtain rfl := Except.ok.inj hd
      obtain ⟨hslot, hfile⟩ := fileSlot_eq_ok.1 hslot
      obtain ⟨-, y, -, hdir, -, rfl⟩ := slot_eq_ok hc hslot
      exact (h.set hfile (by rwa [List.dropLast_concat]) _).of_find? fun _ => rfl

end IsTree

/-! ## Failures -/

theorem stage_eq_error {text : String} {e : DiskError} (h : d.stage p text = (.error e, d')) : d' = d :=
  commit_eq_error h

theorem persist_eq_error {e : DiskError} (h : d.persist p = (.error e, d')) : d' = d := by
  unfold persist at h
  split at h
  · cases h
    rfl
  · exact commit_eq_error h

/-! ## Deliveries -/

namespace Delivers

variable {fs : List (String × String)}

/-- Only where a file is delivered does a file change. -/
theorem text?_eq (h : d.Delivers fs d') (hx : ∀ f ∈ fs, placeOf f.1 ≠ x) : d'.text? x = d.text? x := by
  obtain ⟨ws, hwrote, hplaces⟩ := h
  rw [hwrote.text?_eq, lastText_eq_none, Option.none_or]
  rintro w hw rfl
  obtain ⟨f, hf, hlocate, -⟩ := exists_of_mem_right hplaces hw
  exact hx f hf (placeOf_of_locate hlocate)

/-- Every file is there in the end where no two have one place. -/
theorem read_of_places (h : d.Delivers fs d') (hplaces : (fs.map fun f => placeOf f.1).Nodup)
    {f : String × String} (hf : f ∈ fs) : d'.read? (.ofString f.1) = some f.2 := by
  refine h.read (List.Nodup.of_map placeOf (by rwa [List.map_map])) ?_ hf
  intro f hf g hg x hfx hgx
  have hsame := (placeOf_of_locate hfx).trans (placeOf_of_locate hgx).symm
  exact congrArg Prod.fst (List.inj_on_of_nodup_map hplaces hf hg hsame)

end Delivers

/-! ## Removed files -/

theorem find?_erase (d : Disk) (hx : x ≠ []) (y : Location) :
    (d.erase x).find? y = if x <+: y then none else d.find? y := by
  by_cases hy : y = []
  · rw [if_neg (hy ▸ fun hprefix => hx (List.prefix_nil.1 hprefix)), hy]
    rfl
  unfold erase find?
  rw [if_neg hy, if_neg hy, List.find?_filter]
  split
  · rename_i hprefix
    rw [Option.map_eq_none_iff, List.find?_eq_none]
    rintro e - he
    rw [decide_eq_true_iff, decide_eq_true_iff] at he
    rw [he.2, List.isPrefixOf_iff_prefix.2 hprefix] at he
    cases he.1
  · rename_i hprefix
    congr 2
    funext e
    by_cases he : e.1 = y
    · simpa [he, ← Bool.not_eq_true, List.isPrefixOf_iff_prefix] using hprefix
    · simp [he]

/-- A file that is removed takes nothing with it. -/
theorem find?_erase_file (h : d.IsTree) (hx : d.isDirectory x = false) (y : Location) :
    (d.erase x).find? y = if y = x then none else d.find? y := by
  have hroot : x ≠ [] := fun hroot => by
    rw [hroot] at hx
    cases hx
  rw [find?_erase d hroot]
  by_cases hyx : y = x
  · rw [if_pos hyx, hyx, if_pos (List.prefix_refl x)]
  rw [if_neg hyx]
  split
  · rename_i hprefix
    by_contra hy
    have hdir := h.isDirectory_of_below hprefix hyx (Option.isSome_iff_ne_none.2 (Ne.symm hy))
    rw [hx] at hdir
    cases hdir
  · rfl

theorem remove_file (hlocate : d.locate p = .ok x) (hx : d.isDirectory x = false) : (d.remove p).2 = d.erase x := by
  unfold remove
  rw [hlocate]
  dsimp only
  rw [hx]
  rfl

/-! ## What is kept -/

/-- All files but that of a place are kept, and the paths to them; so are all directories. -/
structure KeepsBut (d : Disk) (x : Location) (d' : Disk) : Prop where
  directory : ∀ y, d.isDirectory y = true → d'.isDirectory y = true
  text : ∀ y, y ≠ x → d'.text? y = d.text? y
  locate : ∀ p y, y ≠ x → d.locate p = .ok y → d'.locate p = .ok y

namespace KeepsBut

theorem trans (h : d.KeepsBut x d') (h' : d'.KeepsBut x d'') : d.KeepsBut x d'' where
  directory y hy := h'.directory y (h.directory y hy)
  text y hy := (h'.text y hy).trans (h.text y hy)
  locate p y hy hlocate := h'.locate p y hy (h.locate p y hy hlocate)

theorem of_wrote (h : d.Wrote ws d') (hws : ∀ w ∈ ws, w.1 = x) : d.KeepsBut x d' where
  directory _ := h.isDirectory
  text y hy := by rw [h.text?_eq, lastText_eq_none fun w hw hwy => hy (hwy.symm.trans (hws w hw)), Option.none_or]
  locate _ _ _ := locate_of_wrote h

/-- A file that is removed takes nothing with it. -/
theorem of_erase (h : d.IsTree) (hx : d.isDirectory x = false) (hd' : ∀ y, d'.find? y = (d.erase x).find? y) :
    d.KeepsBut x d' := by
  have other (y : Location) (hy : y ≠ x) : d'.find? y = d.find? y := by
    rw [hd', find?_erase_file h hx, if_neg hy]
  have directory (y : Location) (hy : d.isDirectory y = true) : d'.isDirectory y = true := by
    have hyx : y ≠ x := fun hyx => by
      rw [hyx, hx] at hy
      cases hy
    rw [isDirectory_iff, other y hyx]
    exact isDirectory_iff.1 hy
  exact ⟨directory, fun y hy => text?_of_find? (other y hy), fun p y hy =>
    locate_of_kept directory fun hthere => other y hy ▸ hthere⟩

theorem read?_eq_some {path text : String} (h : d.KeepsBut x d') (hx : placeOf path ≠ x)
    (hread : d.read? (.ofString path) = some text) : d'.read? (.ofString path) = some text := by
  obtain ⟨y, hlocate, htext⟩ := exists_of_read? hread
  obtain rfl := placeOf_of_locate hlocate
  rw [read?_of_locate (h.locate _ _ hx hlocate), h.text _ hx, htext]

end KeepsBut

end Disk

end BusNode
