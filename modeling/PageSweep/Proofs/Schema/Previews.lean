import PageSweep.Proofs.Json.Reading
import PageSweep.Proofs.Text.Pieces
import PageSweep.Schema.Preview

/-!
# What a preview begins with

An address is told by its first characters, and no address is JSON: no value begins as one. So what a preview begins
with says what the text was taken for. An address is shown under a label of its own, what can be read is shown as an
object or as an empty list, and any other text is shown as it stands.

* `isAddress_iff`: an address stays one when it is trimmed, and begins with no blank.
* `read_of_isAddress`: an address cannot be read.
* `Schema.front_preview_of_read`: the preview of a text that can be read.
* `Schema.startsWith_preview_iff`: the previews that begin with the label of an address.
-/

namespace PageSweep

open Text

/-! ### Addresses -/

theorem isAddress_trim_iff {text : String} :
    isAddress (trim text) = true ↔ "http".toList <+: trimFront text.toList := by
  rw [isAddress, startsWith_iff, trim, String.toList_ofList (l := trimList text.toList), trimList]
  refine ⟨fun h => h.trans (trimBack_isPrefix _), ?_⟩
  rintro ⟨rest, hrest⟩
  rw [← hrest]
  -- Blanks are taken off behind the last character that is none, and these four are none.
  have ht : isBlank 't' = false := rfl
  show "http".toList <+: trimBack ('h' :: 't' :: 't' :: 'p' :: rest)
  rw [trimBack_cons_of_not_blank (rfl : isBlank 'h' = false), trimBack_cons_of_not_blank ht,
    trimBack_cons_of_not_blank ht, trimBack_cons_of_not_blank (rfl : isBlank 'p' = false)]
  exact ⟨trimBack rest, rfl⟩

/-- **An address** is one when it is trimmed, and begins with no blank. -/
theorem isAddress_iff {text : String} :
    isAddress text = true ↔ isAddress (trim text) = true ∧ ∀ c ∈ text.toList.head?, isBlank c = false := by
  rw [isAddress_trim_iff, isAddress, startsWith_iff]
  constructor
  · intro h
    have hhead : ∀ c ∈ text.toList.head?, isBlank c = false := by
      obtain ⟨rest, hrest⟩ := h
      rw [← hrest]
      rintro c ⟨⟩
      decide
    rw [trimFront_eq_self hhead]
    exact ⟨h, hhead⟩
  · rintro ⟨h, hhead⟩
    rwa [trimFront_eq_self hhead] at h

/-- **An address cannot be read**, whatever blanks are around it. -/
theorem read_of_isAddress {text : String} (h : isAddress (trim text) = true) : ∃ e, Json.read text = .error e := by
  obtain ⟨rest, hrest⟩ := isAddress_trim_iff.1 h
  refine Json.read_of_front fun c hc => ?_
  rw [← hrest] at hc
  cases hc
  decide

namespace Schema

variable {text : String}

/-! ### Previews -/

theorem prefix_shorten_iff {limit : Nat} {start cs : List Char} (h : start.length ≤ limit) :
    start <+: shorten limit cs ↔ start <+: cs := by
  rw [shorten]
  split
  · rfl
  · rename_i hlong
    have hlength : start.length ≤ (cs.take limit).length := by rw [List.length_take]; omega
    have htake : cs.take limit <+: cs := List.take_prefix limit cs
    constructor
    · intro hstart
      exact (List.prefix_of_prefix_length_le hstart (List.prefix_append _ _) hlength).trans htake
    · intro hstart
      exact (List.prefix_of_prefix_length_le hstart htake hlength).trans (List.prefix_append _ _)

theorem preview_of_unreadable {e : Json.Error} (hnot : isAddress text = false) (hread : Json.read text = .error e) :
    preview text = String.ofList (shorten 50 text.toList) := by
  rw [preview, hnot, hread]
  rfl

/-- **What can be read** is shown as an object or as an empty list. -/
theorem front_preview_of_read {v : Json} (hread : Json.read text = .ok v) :
    ['\x7b'] <+: (preview text).toList ∨ ['['] <+: (preview text).toList := by
  have hnot : isAddress text = false := by
    refine Bool.eq_false_iff.2 fun haddress => ?_
    obtain ⟨e, he⟩ := read_of_isAddress (isAddress_iff.1 haddress).1
    cases he.symm.trans hread
  have hentries : ∀ first more, ['\x7b'] <+: (previewEntries first more).toList := by
    intro first more
    simp only [previewEntries, String.toList_append, List.append_assoc]
    exact List.prefix_append ['\x7b'] _
  rw [preview, hnot, hread]
  simp only [Bool.false_eq_true, if_false, String.toList_ofList]
  rw [prefix_shorten_iff (by decide), prefix_shorten_iff (by decide)]
  split
  · rename_i he
    cases he
  · exact .inl (hentries _ _)
  · exact .inr (by decide)
  · exact .inl (hentries _ _)

/-- **The label of an address** is in front of addresses, and of texts that begin with it and are shown as they
stand. -/
theorem startsWith_preview_iff : startsWith "Remote schema: " (preview text) = true ↔
    isAddress text = true ∨ startsWith "Remote schema: " text = true := by
  cases haddress : isAddress text with
  | true =>
    rw [preview, haddress, if_pos rfl, startsWith_iff, String.toList_append]
    simp
  | false =>
    rw [startsWith_iff, startsWith_iff]
    cases hread : Json.read text with
    | error e =>
      have hshown : (preview text).toList = shorten 50 text.toList := by
        rw [preview_of_unreadable haddress hread, String.toList_ofList]
      rw [hshown, prefix_shorten_iff (by decide)]
      simp
    | ok v =>
      -- No value begins as the label does, neither where it is read nor where it is shown.
      refine iff_of_false (fun hlabel => ?_) ?_
      · rcases front_preview_of_read hread with hfront | hfront <;>
          exact absurd (List.prefix_of_prefix_length_le hfront hlabel (by decide)) (by decide)
      · rintro (h | ⟨rest, hrest⟩)
        · cases h
        · have hfront : ∀ c ∈ (trimFront text.toList).head?, Json.beginsValue c = false := by
            rw [← hrest]
            rintro c ⟨⟩
            decide
          obtain ⟨e, he⟩ := Json.read_of_front hfront
          cases he.symm.trans hread

end Schema

end PageSweep
