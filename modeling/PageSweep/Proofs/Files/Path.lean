import Mathlib.Data.List.Basic
import PageSweep.Files.Home
import PageSweep.Proofs.Text.Pieces

/-!
# Paths of what is kept

The two files that are kept for a root are in the directory that marks it. That is so of paths, whatever the path of
the root was written like, with a slash at its end or without, and before anything is looked for.

* `Path.ofText_concat`: what is behind the last slash of a text is the last piece of its path.
* `settingsPath_eq`, `statePath_eq`: the two files have their names in the directory that marks the root.
* `parent?_settingsPath`: that directory is the one above the settings.
-/

namespace PageSweep

open Text

namespace Path

theorem split_eq_self {name : String} (hname : '/' ∉ name.toList) : split '/' name = [name] := by
  rw [split, splitAt_eq_self hname]
  simp

theorem split_concat {name : String} (hname : '/' ∉ name.toList) (front : List Char) :
    split '/' (String.ofList (front ++ '/' :: name.toList)) = split '/' (String.ofList front) ++ [name] := by
  have hlast := split_eq_self hname
  rw [split, splitAt] at hlast
  rw [split, split, splitAt, splitAt, String.toList_ofList, String.toList_ofList, splitAny_append (by rfl),
    List.map_append, hlast]

/-- **What is behind the last slash of a text is the last piece of its path.** -/
theorem ofText_concat {name : String} (hname : '/' ∉ name.toList) {front : List Char} (hfront : front ≠ []) :
    ofText (String.ofList (front ++ '/' :: name.toList)) =
      ⟨(ofText (String.ofList front)).isAbsolute, (ofText (String.ofList front)).pieces ++ [name]⟩ := by
  cases front with
  | nil => exact absurd rfl hfront
  | cons c front =>
    by_cases hc : c = '/'
    · subst hc
      simp only [ofText, List.cons_append, String.toList_ofList, split_concat hname]
    · have hsplit := split_concat hname (c :: front)
      unfold ofText
      simp only [List.cons_append, String.toList_ofList] at hsplit ⊢
      split
      · rename_i h
        exact absurd (List.cons.inj h).1 hc
      · split
        · rename_i h
          exact absurd (List.cons.inj h).1 hc
        · rw [hsplit]

theorem getLast?_ofText {name : String} (hname : '/' ∉ name.toList) (front : List Char) :
    (ofText (String.ofList (front ++ '/' :: name.toList))).pieces.getLast? = some name := by
  cases front with
  | nil =>
    simp [ofText, split_eq_self hname]
  | cons c front =>
    rw [ofText_concat hname (List.cons_ne_nil c front)]
    simp

/-- A path below another one is read from a text with a slash between the two. -/
theorem append_eq_ofText {root : Path} (hroot : root.isEmpty = false) :
    ∃ front : List Char, ∀ q : Path, q.isAbsolute = false →
      root.append q = ofText (String.ofList (front ++ '/' :: q.text.toList)) := by
  have happend : ∀ q : Path, q.isAbsolute = false →
      root.append q = ofText (root.text ++ (if endsWith "/" root.text then "" else "/") ++ q.text) := by
    intro q hq
    rw [append, hq, hroot]
    rfl
  by_cases hslash : endsWith "/" root.text = true
  · obtain ⟨front, hfront⟩ := endsWithList_iff.1 hslash
    refine ⟨front, fun q hq => ?_⟩
    rw [happend q hq, if_pos hslash]
    congr 1
    apply String.toList_inj.1
    simp [hfront]
  · refine ⟨root.text.toList, fun q hq => ?_⟩
    rw [happend q hq, if_neg hslash]
    congr 1
    apply String.toList_inj.1
    simp

theorem getLast?_append_markDirectory (root : Path) :
    (root.append markDirectory).pieces.getLast? = some ".uncookie" := by
  cases hroot : root.isEmpty with
  | true =>
    have happend : root.append markDirectory = markDirectory := by
      rw [append, hroot, Bool.or_true]
      rfl
    rw [happend]
    decide
  | false =>
    obtain ⟨front, hfront⟩ := append_eq_ofText hroot
    rw [hfront _ (by decide)]
    exact getLast?_ofText (by decide) front

/-- A file in the directory that marks a root. -/
theorem append_below_markDirectory (root : Path) {name : String} (hname : '/' ∉ name.toList) :
    root.append ⟨false, [".uncookie", name]⟩ =
      ⟨(root.append markDirectory).isAbsolute, (root.append markDirectory).pieces ++ [name]⟩ := by
  cases hroot : root.isEmpty with
  | true =>
    have happend : ∀ q : Path, root.append q = q := by
      intro q
      rw [append, hroot, Bool.or_true]
      rfl
    rw [happend, happend]
    rfl
  | false =>
    obtain ⟨front, hfront⟩ := append_eq_ofText hroot
    have htext : front ++ '/' :: (Path.mk false [".uncookie", name]).text.toList =
        front ++ '/' :: markDirectory.text.toList ++ '/' :: name.toList := by
      rw [show markDirectory.text = ".uncookie" by decide, List.append_assoc]
      simp [text, join, joinList]
    rw [hfront _ rfl, hfront _ (by decide), htext, ofText_concat hname (by simp)]

/-- A path that ends with a piece that leads somewhere is as short as it can be. -/
theorem essential_eq_self {p : Path} {name : String} (hlast : p.pieces.getLast? = some name)
    (hname : isIdle name = false) : p.essential = p.pieces := by
  obtain ⟨front, hpieces⟩ := List.getLast?_eq_some_iff.1 hlast
  have hkept : (dropIdle p.pieces.reverse).reverse = p.pieces := by
    rw [hpieces, List.reverse_append, List.reverse_singleton, List.singleton_append, dropIdle,
      List.dropWhile_cons_of_neg (by simp [hname]), ← List.reverse_concat, List.reverse_reverse]
  have hnonempty : p.pieces.isEmpty = false := by simp [hpieces]
  unfold essential
  simp only [hkept, hnonempty, Bool.false_and, Bool.false_eq_true, if_false]

end Path

/-- **The settings have their name in the directory that marks the root.** -/
theorem settingsPath_eq (root : Path) :
    settingsPath root =
      ⟨(root.append markDirectory).isAbsolute, (root.append markDirectory).pieces ++ ["config.yaml"]⟩ :=
  root.append_below_markDirectory (by decide)

theorem statePath_eq (root : Path) :
    statePath root =
      ⟨(root.append markDirectory).isAbsolute, (root.append markDirectory).pieces ++ ["state.yaml"]⟩ :=
  root.append_below_markDirectory (by decide)

theorem getLast?_settingsPath (root : Path) : (settingsPath root).pieces.getLast? = some "config.yaml" := by
  rw [settingsPath_eq, List.getLast?_concat]

theorem getLast?_statePath (root : Path) : (statePath root).pieces.getLast? = some "state.yaml" := by
  rw [statePath_eq, List.getLast?_concat]

/-- **The directory that marks the root is the one above the settings.** -/
theorem parent?_settingsPath (root : Path) : (settingsPath root).parent? = some (root.append markDirectory) := by
  have hmark := Path.essential_eq_self root.getLast?_append_markDirectory (by decide)
  have hsettings := Path.essential_eq_self (getLast?_settingsPath root) (by decide)
  rw [settingsPath_eq] at hsettings ⊢
  unfold Path.parent?
  rw [hsettings]
  split
  · rename_i h
    exact absurd h (by simp)
  · rename_i h
    rw [← h]
    simp only [List.dropLast_concat]
    rw [hmark]

end PageSweep
