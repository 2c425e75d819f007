import PageSweep.Proofs.Files.Path
import PageSweep.Proofs.Files.Writing

/-!
# Saving settings

A save that fails may have made directories before it did, and then the path of the settings may lead elsewhere than
it led: `lost/../page` leads to nothing before `lost` is made, and to a page after. A save that can go well never
does that, nor does any save below a root that is marked, since there all directories are made.

* `FileTree.savesWhole_of_ok`: where settings can be written.
* `FileTree.savesWhole_of_isMarked`: below a root that is marked.
* `FileTree.IsMarked.writeText`: a root that is marked stays so.
-/

namespace PageSweep

namespace FileTree

variable {root : Path} {t u : FileTree} {p : Path} {dir way : List String} {ps : List String}

/-! ### Saving that is all or nothing -/

/-- **Saving is all or nothing**: if a file cannot be written, a path reads as before. -/
def SavesWhole (t : FileTree) (p : Path) : Prop :=
  ∀ text e u, t.writeText p text = (.error e, u) → u.readOptional p = t.readOptional p

/-- Whether a file can be written does not depend on what is written. -/
theorem fst_writeText (t : FileTree) (p : Path) (text text' : String) :
    (t.writeText p text).1 = (t.writeText p text').1 := by
  have hreplace : ∀ u : FileTree, (u.replace p text.toUTF8).1 = (u.replace p text'.toUTF8).1 := by
    intro u
    unfold replace
    split
    · rfl
    · split <;> rfl
    · rfl
    · rfl
  unfold writeText write
  split
  · exact hreplace t
  · split
    · rfl
    · exact hreplace _

/-- Where a file can be written, saving is all or nothing. -/
theorem savesWhole_of_ok (h : (t.writeText p "").1 = .ok ()) : t.SavesWhole p := by
  intro text e u hfailed
  have hok := fst_writeText t p text ""
  rw [hfailed, h] at hok
  cases hok

/-! ### Below a root that is marked -/

/-- **A root is marked** if the directory for its settings is there. -/
def IsMarked (t : FileTree) (root : Path) : Prop := t.isDirectory (root.append markDirectory) = true

theorem isDirectory_iff : t.isDirectory p = true ↔ ∃ way, t.locate p = .ok (.present way .directory) := by
  unfold isDirectory
  split
  · rename_i way hlocate
    exact ⟨fun _ => ⟨way, hlocate⟩, fun _ => rfl⟩
  · rename_i hother
    exact ⟨fun h => by simp at h, fun ⟨way, hlocate⟩ => absurd hlocate (hother way)⟩

/-- There is nothing to make where a directory is. -/
theorem makeDirectories_of_isDirectory (h : t.isDirectory p = true) : t.makeDirectories p = (.ok (), t) := by
  obtain ⟨way, hlocate⟩ := isDirectory_iff.1 h
  have hmake : t.makeDirectory p = (.error .alreadyExists, t) := by
    rw [makeDirectory, hlocate]
  have hfirst : ∀ above, t.makeAll (p :: above) = (.ok (), t) := by
    intro above
    rw [makeAll, hmake]
    split
    · rfl
    · simp only [unlessDirectory, h, if_true]
  unfold makeDirectories
  rw [Path.ancestors]
  split
  · exact hfirst _
  · exact hfirst _

/-- Below a root that is marked, saving makes no directory. -/
theorem IsMarked.writeText_eq (h : t.IsMarked root) (text : String) :
    t.writeText (settingsPath root) text = t.replace (settingsPath root) text.toUTF8 := by
  rw [writeText, write, parent?_settingsPath]
  simp only [makeDirectories_of_isDirectory h]

/-- **Below a root that is marked, saving is all or nothing.** -/
theorem savesWhole_of_isMarked (h : t.IsMarked root) : t.SavesWhole (settingsPath root) := by
  intro text e u hfailed
  rw [h.writeText_eq] at hfailed
  rcases replace_cases t (settingsPath root) text.toUTF8 with ⟨e', he⟩ | ⟨_, _, _, _, hok⟩
  · rw [hfailed] at he
    rw [(Prod.mk.inj he).2]
  · rw [hfailed] at hok
    cases hok

/-- A path that leads to a directory still does when a file is put where no directory is. -/
theorem follow_put_directory {there : List String} (h : t.follow dir ps = .ok (.present there .directory))
    (hway : way ≠ []) (hfree : t.get? way ≠ some .directory) (data : ByteArray) :
    (t.put way (.file data)).follow dir ps = .ok (.present there .directory) := by
  induction ps generalizing dir with
  | nil => exact h
  | cons piece ps ih =>
    rcases follow_cases h with ⟨dir', honward, h'⟩ | ⟨-, ⟨old, -, -, hplace⟩ | ⟨-, hplace⟩⟩
    · rw [(honward.put hway hfree data).follow]
      exact ih h'
    · cases hplace
    · cases hplace

/-- **A root that is marked stays so** when settings are saved. -/
theorem IsMarked.writeText (h : t.IsMarked root) (text : String) :
    (t.writeText (settingsPath root) text).2.IsMarked root := by
  rw [h.writeText_eq]
  rcases replace_cases t (settingsPath root) text.toUTF8 with ⟨e, he⟩ | ⟨place, way, hlocate, hplace, hok⟩
  · rw [he]
    exact h
  · obtain ⟨there, hthere⟩ := isDirectory_iff.1 h
    obtain ⟨hway, -, hfree⟩ := follow_takesFile (follow_of_locate hlocate) hplace
    rw [hok]
    refine isDirectory_iff.2 ⟨there, (locate_eq_follow hthere _).trans ?_⟩
    exact follow_put_directory (follow_of_locate hthere) hway hfree _

end FileTree

end PageSweep
