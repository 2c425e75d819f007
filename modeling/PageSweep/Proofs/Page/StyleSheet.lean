import PageSweep.Page.Snapshot
import PageSweep.Proofs.Text.Pieces

/-!
# Rules that can be read again

The text that a rule keeps is trimmed, and it writes the same rule as the text that the rule was read from.
So a stylesheet comes out the same when its texts are read again.

* `Rule.ofText?_cssText`: reading the text of a rule.
* `sheetOf_cssText`: reading the texts of a stylesheet.
-/

namespace PageSweep

open Text

/-- **The text of a rule writes the rule.** -/
theorem Rule.ofText?_cssText {text : String} {r : Rule} (h : Rule.ofText? text = some r) :
    Rule.ofText? r.cssText = some r := by
  unfold Rule.ofText? at h
  split at h
  · cases h
  · rename_i before after hcut
    obtain ⟨htext, hfree⟩ := cutAt_eq_some hcut
    simp only at h
    split at h
    · cases h
    · rename_i hgood
      rw [Bool.or_eq_true, not_or, Bool.not_eq_true, Bool.not_eq_true, Bool.not_eq_false'] at hgood
      obtain ⟨hselector, hend⟩ := hgood
      cases h
      -- Trimming takes blanks off the selector and off the declarations, and both are left.
      have hfront : trimFront before ≠ [] := by
        intro hnil
        rw [trimList, hnil] at hselector
        cases hselector
      have hback : trimBack after ≠ [] := by
        obtain ⟨r, hr⟩ := endsWithList_iff.1 hend
        simp [hr]
      have hbrace : trimBack ('\x7b' :: after) = '\x7b' :: trimBack after :=
        trimBack_cons_of_not_blank (by decide) after
      have htrim : trimList text.toList = trimFront before ++ '\x7b' :: trimBack after := by
        rw [htext, trimList, trimFront_append hfront, trimBack_append _ (by simp [hbrace]), hbrace]
      have hcut' : cutAt '\x7b' (trim text).toList = some (trimFront before, trimBack after) := by
        rw [trim, String.toList_ofList, htrim]
        exact cutAt_append (fun hm => hfree ((List.dropWhile_sublist _).subset hm)) _
      have hsel : trimList (trimFront before) = trimList before := by
        rw [trimList, trimFront_eq_self (head_trimFront before)]
        rfl
      have htwice : trim (trim text) = trim text := by
        rw [trim, trim, String.toList_ofList, trimList_idem]
      simp only [Rule.ofText?, hcut', hsel, hselector, trimBack_trimBack, hend, htwice, Bool.not_true,
        Bool.or_self, Bool.false_eq_true, if_false]

namespace StyleSheet

/-- Whether the rules of a stylesheet can all be read again. -/
def Readable (s : StyleSheet) : Prop := ∀ r ∈ s.rules, Rule.ofText? r.cssText = some r

variable {s s' : StyleSheet}

theorem readable_empty : empty.Readable := fun _ hr => absurd hr List.not_mem_nil

theorem Readable.insertRule (h : s.Readable) {text : String} {index : Nat}
    (hs : s.insertRule text index = .ok s') : s'.Readable := by
  unfold StyleSheet.insertRule at hs
  split at hs
  · cases hs
  · rename_i rule hrule
    split at hs
    · cases hs
    · rename_i hle
      cases hs
      intro r hr
      rcases (List.mem_insertIdx (Nat.le_of_not_lt hle)).1 hr with rfl | hr
      · exact Rule.ofText?_cssText hrule
      · exact h r hr

theorem Readable.deleteRule (h : s.Readable) {index : Nat} (hs : s.deleteRule index = .ok s') :
    s'.Readable := by
  unfold StyleSheet.deleteRule at hs
  split at hs
  · cases hs
  · cases hs
    exact fun r hr => h r (List.mem_of_mem_eraseIdx hr)

theorem readable_sheetOf (texts : List String) (h : s.Readable) : (Page.sheetOf texts s).1.Readable := by
  induction texts generalizing s with
  | nil => exact h
  | cons text texts ih =>
    rw [Page.sheetOf]
    split
    · rename_i s' hs
      exact ih (h.insertRule hs)
    · exact ih h

/-- The texts of rules that can be read, put in after other rules. -/
theorem sheetOf_append {rs : List Rule} (h : ∀ r ∈ rs, Rule.ofText? r.cssText = some r) (s : StyleSheet) :
    (Page.sheetOf (rs.map (·.cssText)) s).1 = ⟨s.rules ++ rs⟩ := by
  induction rs generalizing s with
  | nil => rw [List.append_nil]; rfl
  | cons r rs ih =>
    have hr : s.appendRule r.cssText = .ok ⟨s.rules ++ [r]⟩ :=
      appendRule_eq_ok.2 ⟨r, h r List.mem_cons_self, rfl⟩
    rw [List.map_cons, Page.sheetOf, hr]
    simp only
    rw [ih fun r' hr' => h r' (List.mem_cons_of_mem _ hr'), List.append_assoc, List.singleton_append]

/-- **Reading the texts of a stylesheet** gives the stylesheet. -/
theorem Readable.sheetOf_cssText (h : s.Readable) :
    (Page.sheetOf (s.rules.map (·.cssText)) empty).1 = s := sheetOf_append h empty

end StyleSheet

end PageSweep
