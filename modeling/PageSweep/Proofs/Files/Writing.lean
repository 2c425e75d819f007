import PageSweep.Files.Tree

/-!
# Writing a file

A file that is written holds the new data, and no other file is touched: not by putting the data in its place, and
not by making the directories above it. If it cannot be written, all files hold what they held.

* `FileTree.follow_cases`: what the first piece of a path does.
* `FileTree.follow_put`: a path leads to the file that was put where it led.
* `FileTree.sameFiles_makeAll`: making directories touches no file.
* `FileTree.writeText_cases`: what comes of writing a file.
-/

namespace PageSweep

open Text

/-- Whether a piece names something in a directory. -/
structure IsName (piece : String) : Prop where
  leads : Path.isIdle piece = false
  notUp : piece ≠ ".."
  short : byteLength piece.toList ≤ FileTree.nameLimit

/-- Whether a place can hold a file, and which place that is: nothing is there and no slash asks for a directory, or
a file is. -/
def Place.TakesFile (way : List String) : Place → Prop
  | .absent w slash => w = way ∧ slash = false
  | .present w (.file _) => w = way
  | .present _ .directory => False

namespace FileTree

variable {t u v : FileTree} {way dir dir' : List String} {piece : String} {ps : List String} {place : Place}
  {p : Path} {data : ByteArray}

/-! ### Following a path -/

/-- A piece leads from a directory to a directory. -/
inductive Onward (t : FileTree) (dir : List String) (piece : String) : List String → Prop where
  | idle (h : Path.isIdle piece = true) : Onward t dir piece dir
  | up (h : piece = "..") : Onward t dir piece dir.dropLast
  | into (h : IsName piece) (hget : t.get? (dir ++ [piece]) = some .directory) : Onward t dir piece (dir ++ [piece])

theorem Onward.follow (h : t.Onward dir piece dir') (ps : List String) :
    t.follow dir (piece :: ps) = t.follow dir' ps := by
  cases h with
  | idle h => rw [FileTree.follow, if_pos h]
  | up h =>
    subst h
    rw [FileTree.follow, if_neg (by decide), if_pos rfl]
  | into h hget =>
    rw [FileTree.follow, if_neg (by simp [h.leads]), if_neg h.notUp, if_neg (by have := h.short; omega), hget]

theorem follow_file (h : IsName piece) (hget : t.get? (dir ++ [piece]) = some (.file data)) :
    t.follow dir [piece] = .ok (.present (dir ++ [piece]) (.file data)) := by
  rw [follow, if_neg (by simp [h.leads]), if_neg h.notUp, if_neg (by have := h.short; omega), hget]
  rfl

/-- **What the first piece of a path does**: it leads on, or it names a file, or it names nothing yet. -/
theorem follow_cases (h : t.follow dir (piece :: ps) = .ok place) :
    (∃ dir', t.Onward dir piece dir' ∧ t.follow dir' ps = .ok place) ∨
      IsName piece ∧
        ((∃ data, t.get? (dir ++ [piece]) = some (.file data) ∧ ps = [] ∧
            place = .present (dir ++ [piece]) (.file data)) ∨
          t.get? (dir ++ [piece]) = none ∧ place = .absent (dir ++ [piece]) (!ps.isEmpty)) := by
  rw [follow] at h
  split at h
  · rename_i hidle
    exact .inl ⟨dir, .idle hidle, h⟩
  · rename_i hleads
    split at h
    · rename_i hup
      exact .inl ⟨dir.dropLast, .up hup, h⟩
    · rename_i hup
      split at h
      · cases h
      · rename_i hshort
        have hname : IsName piece := ⟨by simpa using hleads, hup, by omega⟩
        split at h
        · rename_i hget
          exact .inl ⟨_, .into hname hget, h⟩
        · rename_i data hget
          split at h
          · rename_i hps
            exact .inr ⟨hname, .inl ⟨data, hget, List.isEmpty_iff.1 hps, (Except.ok.inj h).symm⟩⟩
          · cases h
        · rename_i hget
          split at h
          · exact .inr ⟨hname, .inr ⟨hget, (Except.ok.inj h).symm⟩⟩
          · cases h

/-- Where a path leads to nothing, there is nothing. -/
theorem follow_absent {slash : Bool} (h : t.follow dir ps = .ok (.absent way slash)) :
    way ≠ [] ∧ t.get? way = none := by
  induction ps generalizing dir with
  | nil => cases h
  | cons piece ps ih =>
    rcases follow_cases h with ⟨dir', -, h'⟩ | ⟨-, ⟨data, -, -, hplace⟩ | ⟨hget, hplace⟩⟩
    · exact ih h'
    · cases hplace
    · cases hplace
      exact ⟨by simp, hget⟩

/-- A file that a path leads to has the name that the path ends with, and is no directory. -/
theorem follow_takesFile (h : t.follow dir ps = .ok place) (hplace : place.TakesFile way) :
    way ≠ [] ∧ way.getLast? = ps.getLast? ∧ t.get? way ≠ some .directory := by
  induction ps generalizing dir with
  | nil =>
    obtain rfl := Except.ok.inj h
    exact hplace.elim
  | cons piece ps ih =>
    rcases follow_cases h with ⟨dir', -, h'⟩ | ⟨-, ⟨data, hget, rfl, rfl⟩ | ⟨hget, rfl⟩⟩
    · obtain ⟨hway, hname, hget⟩ := ih h'
      refine ⟨hway, ?_, hget⟩
      -- A path that ends here would lead to a directory.
      cases ps with
      | nil => exact absurd (List.getLast?_eq_none_iff.1 hname) hway
      | cons q qs => rw [List.getLast?_cons_cons, hname]
    · obtain rfl : dir ++ [piece] = way := hplace
      exact ⟨by simp, by simp, by rw [hget]; nofun⟩
    · obtain ⟨rfl, hps⟩ := hplace
      obtain rfl : ps = [] := by simpa using hps
      exact ⟨by simp, by simp, by rw [hget]; nofun⟩

/-- Putting a file where no directory is leaves all directories where they are. -/
theorem Onward.put (h : t.Onward dir piece dir') (hway : way ≠ []) (hfree : t.get? way ≠ some .directory)
    (data : ByteArray) : (t.put way (.file data)).Onward dir piece dir' := by
  cases h with
  | idle h => exact .idle h
  | up h => exact .up h
  | into h hget =>
    refine .into h ?_
    have hother : way ≠ dir ++ [piece] := fun heq => hfree (heq ▸ hget)
    rw [get?_put t way _ _ hway, if_neg hother, hget]

/-- **A path leads to the file that was put where it led.** -/
theorem follow_put (h : t.follow dir ps = .ok place) (hplace : place.TakesFile way) (data : ByteArray) :
    (t.put way (.file data)).follow dir ps = .ok (.present way (.file data)) := by
  obtain ⟨hway, -, hfree⟩ := follow_takesFile h hplace
  induction ps generalizing dir with
  | nil =>
    obtain rfl := Except.ok.inj h
    exact hplace.elim
  | cons piece ps ih =>
    have hthere : (t.put way (.file data)).get? way = some (.file data) := by
      rw [get?_put t way _ _ hway, if_pos rfl]
    -- The directories on the way are still there, since the file is put where none is.
    rcases follow_cases h with ⟨dir', honward, h'⟩ | ⟨hname, ⟨old, -, rfl, rfl⟩ | ⟨-, rfl⟩⟩
    · rw [(honward.put hway hfree data).follow]
      exact ih h'
    · obtain rfl : dir ++ [piece] = way := hplace
      exact follow_file hname hthere
    · obtain ⟨rfl, hps⟩ := hplace
      obtain rfl : ps = [] := by simpa using hps
      exact follow_file hname hthere

/-! ### What files hold -/

/-- What the file in a place holds, if there is a file. -/
def dataAt? (t : FileTree) (way : List String) : Option ByteArray :=
  match t.get? way with
  | some (.file data) => some data
  | _ => none

/-- **All files hold the same**, and there are no others. -/
def SameFiles (t u : FileTree) : Prop := ∀ way, u.dataAt? way = t.dataAt? way

theorem SameFiles.refl (t : FileTree) : t.SameFiles t := fun _ => rfl

theorem SameFiles.trans (h : t.SameFiles u) (h' : u.SameFiles v) : t.SameFiles v :=
  fun way => (h' way).trans (h way)

theorem dataAt?_put_of_ne (hway : way ≠ []) (e : FileEntry) {other : List String} (h : other ≠ way) :
    (t.put way e).dataAt? other = t.dataAt? other := by
  rw [dataAt?, get?_put t way other e hway, if_neg h.symm]
  rfl

/-- A directory that is put where nothing is touches no file. -/
theorem sameFiles_put (hway : way ≠ []) (hget : t.get? way = none) : t.SameFiles (t.put way .directory) := by
  intro other
  by_cases h : other = way
  · subst h
    rw [dataAt?, get?_put t other other _ hway, if_pos rfl, dataAt?, hget]
  · exact dataAt?_put_of_ne hway _ h

/-- A path that leads anywhere is followed in every tree. -/
theorem locate_eq_follow (h : t.locate p = .ok place) (u : FileTree) :
    u.locate p = u.follow (if p.isAbsolute then [] else u.here) p.pieces := by
  unfold locate at h ⊢
  simp only at h ⊢
  split at h
  · cases h
  · rename_i hnul
    rw [if_neg hnul]
    split at h
    · cases h
    · rename_i hempty
      rw [if_neg hempty]
      split at h
      · cases h
      · rename_i hlong
        rw [if_neg hlong]

theorem follow_of_locate (h : t.locate p = .ok place) :
    t.follow (if p.isAbsolute then [] else t.here) p.pieces = .ok place :=
  (locate_eq_follow h t).symm.trans h

theorem sameFiles_makeDirectory (t : FileTree) (p : Path) : t.SameFiles (t.makeDirectory p).2 := by
  unfold makeDirectory
  split
  · exact .refl t
  · exact .refl t
  · rename_i way slash hlocate
    obtain ⟨hway, hget⟩ := follow_absent (follow_of_locate hlocate)
    exact sameFiles_put hway hget

theorem unlessDirectory_snd (t : FileTree) (p : Path) (e : FileFault) : (t.unlessDirectory p e).2 = t := by
  unfold unlessDirectory
  split <;> rfl

/-- Making directories touches no file. -/
theorem sameFiles_makeAll (t : FileTree) (above : List Path) : t.SameFiles (t.makeAll above).2 := by
  induction above generalizing t with
  | nil => exact .refl t
  | cons p above ih =>
    have hfirst := sameFiles_makeDirectory t p
    rw [makeAll]
    split
    · exact .refl t
    · split
      · rename_i u hmake
        rw [hmake] at hfirst
        exact hfirst
      -- Something above was missing: those are made first, and then this one is tried again.
      · have habove := ih t
        split
        · rename_i e u hall
          rw [hall] at habove
          exact habove
        · rename_i u hall
          rw [hall] at habove
          have hagain := sameFiles_makeDirectory u p
          split
          · rename_i v hmake
            rw [hmake] at hagain
            exact habove.trans hagain
          · rename_i e v hmake
            rw [hmake] at hagain
            rw [unlessDirectory_snd]
            exact habove.trans hagain
      · rename_i e u _ hmake
        rw [hmake] at hfirst
        rw [unlessDirectory_snd]
        exact hfirst

/-- **What comes of putting data in the place of a path**: nothing, or a file there. -/
theorem replace_cases (t : FileTree) (p : Path) (data : ByteArray) :
    (∃ e, t.replace p data = (.error e, t)) ∨
      ∃ place way, t.locate p = .ok place ∧ place.TakesFile way ∧
        t.replace p data = (.ok (), t.put way (.file data)) := by
  unfold replace
  split
  · rename_i e _
    exact .inl ⟨e, rfl⟩
  · rename_i way slash hlocate
    cases slash with
    | true => exact .inl ⟨_, rfl⟩
    | false => exact .inr ⟨_, way, hlocate, ⟨rfl, rfl⟩, rfl⟩
  · rename_i way old hlocate
    exact .inr ⟨_, way, hlocate, rfl, rfl⟩
  · simp only
    split
    · exact .inl ⟨_, rfl⟩
    · split <;> exact .inl ⟨_, rfl⟩

/-- **A file was written**: a path leads to a file that has its name and holds a text, and no other file is
touched. -/
def Writes (t u : FileTree) (p : Path) (text : String) : Prop :=
  u.read p = .ok text ∧
    ∃ way, way.getLast? = p.pieces.getLast? ∧ u.dataAt? way = some text.toUTF8 ∧
      ∀ other, other ≠ way → u.dataAt? other = t.dataAt? other

theorem fromUTF8?_toUTF8 (text : String) : String.fromUTF8? text.toUTF8 = some text :=
  dif_pos text.isValidUTF8

theorem locate_put (h : t.locate p = .ok place) (hplace : place.TakesFile way) (data : ByteArray) :
    (t.put way (.file data)).locate p = .ok (.present way (.file data)) :=
  (locate_eq_follow h _).trans (follow_put (follow_of_locate h) hplace data)

theorem writes_put (h : t.locate p = .ok place) (hplace : place.TakesFile way) (text : String) :
    t.Writes (t.put way (.file text.toUTF8)) p text := by
  obtain ⟨hway, hname, -⟩ := follow_takesFile (follow_of_locate h) hplace
  refine ⟨?_, way, hname, ?_, fun other hother => dataAt?_put_of_ne hway _ hother⟩
  · simp only [read, locate_put h hplace, fromUTF8?_toUTF8]
  · rw [dataAt?, get?_put t way way _ hway, if_pos rfl]

/-- **What comes of writing a file**: it is written, or all files hold what they held. -/
theorem writeText_cases (t : FileTree) (p : Path) (text : String) :
    (∃ e u, t.writeText p text = (.error e, u) ∧ t.SameFiles u) ∨
      ∃ u, t.writeText p text = (.ok (), u) ∧ t.Writes u p text := by
  have hreplace : ∀ u, t.SameFiles u →
      (∃ e v, u.replace p text.toUTF8 = (.error e, v) ∧ t.SameFiles v) ∨
        ∃ v, u.replace p text.toUTF8 = (.ok (), v) ∧ t.Writes v p text := by
    intro u hu
    rcases replace_cases u p text.toUTF8 with ⟨e, he⟩ | ⟨place, way, hlocate, hplace, hok⟩
    · exact .inl ⟨e, u, he, hu⟩
    · obtain ⟨hread, w, hname, hdata, hothers⟩ := writes_put hlocate hplace text
      exact .inr ⟨_, hok, hread, w, hname, hdata, fun other h => (hothers other h).trans (hu other)⟩
  unfold writeText write
  split
  · exact hreplace t (.refl t)
  · rename_i above _
    have hmake := sameFiles_makeAll t above.ancestors
    rw [makeDirectories]
    split
    · rename_i e u hall
      rw [hall] at hmake
      exact .inl ⟨e, u, rfl, hmake⟩
    · rename_i u hall
      rw [hall] at hmake
      exact hreplace u hmake

end FileTree

end PageSweep
