import PageSweep.Proofs.Calendar.ReadBack
import PageSweep.Proofs.Cookie.Directive

/-!
# Dates of expiry

The date that is written for a moment is the moment that a jar goes by: a directive `name=value; expires=…` with that
date deletes its cookie if the moment is over, and stores it if it is to come.

* `CookieAttribute.ofPiece_write`: an attribute with a date.
* `CookieDirective.ofText?_pair`: a directive that says nothing but a name and a value.
* `dates_of_expiry_kept`: writing a cookie with a date of expiry.
-/

namespace PageSweep

open Text

/-! ### The attribute of a date -/

/-- **The key and the value of an attribute** with a date that was written. -/
theorem CookieWrite.keyAndValue_expires (t : Int) :
    keyAndValue (" expires=".toList ++ (CookieDate.write t).toList) =
      ("expires".toList, (CookieDate.write t).toList) := by
  have hfree : '=' ∉ " expires".toList := by decide
  have hkey : lowerList (trimList " expires".toList) = "expires".toList := by decide
  have hkv := keyAndValue_append hfree (CookieDate.write t).toList
  rwa [hkey, CookieDate.trimList_write] at hkv

/-- No attribute begins within a date. -/
theorem semicolon_not_mem_expires (t : Int) : ';' ∉ " expires=".toList ++ (CookieDate.write t).toList := by
  intro h
  rcases List.mem_append.1 h with h | h
  · exact absurd h (by decide)
  · exact CookieDate.semicolon_not_mem_write t h

namespace CookieAttribute

/-- **An attribute with a date that was written** is the moment of the date. -/
theorem ofPiece_write {t : Int} (ht : CookieDate.hasYear (Date.ofDays (t / 86400)) = true) :
    ofPiece (" expires=".toList ++ (CookieDate.write t).toList) = date ⟨t, 0⟩ := by
  unfold ofPiece
  rw [CookieWrite.keyAndValue_expires]
  simp only [String.ofList_toList, CookieDate.read?_write ht]
  rfl

end CookieAttribute

/-! ### The directive -/

namespace CookieDirective

/-- **A name and a value** are all that a text without attributes says. -/
theorem ofText?_pair {name value : String} (hname : ';' ∉ name.toList ∧ '=' ∉ name.toList) (hvalue : ';' ∉ value.toList)
    (hne : trim name ≠ "") :
    ofText? (name ++ "=" ++ value).toList = some ⟨trim name, trim value, []⟩ := by
  have htext : (name ++ "=" ++ value).toList = name.toList ++ '=' :: value.toList := by
    rw [String.toList_append, String.toList_append, List.append_assoc]
    rfl
  have hfree : ';' ∉ name.toList ++ '=' :: value.toList := by
    simp [hname.1, hvalue]
  have hname' : ¬ (trimList name.toList).isEmpty = true := fun h => hne (by rw [trim, List.isEmpty_iff.1 h])
  rw [ofText?, htext, splitAt_eq_self hfree]
  simp only [cutAt_append hname.2, if_neg hname', List.map_nil]
  rfl

end CookieDirective

/-- **Dates of expiry are kept.** The date that is written for a second of the years that dates have, before the first
year and after the year 9999 too, is read as that second. So a directive that gives a name and a value, and this date
for its end, leaves no cookie of its key if the second is not after the present, and else puts the cookie last; all
other cookies stay as they are. -/
theorem dates_of_expiry_kept {t : Int} (hfirst : -8334601228800 ≤ t) (hlast : t ≤ 8210266876799) :
    CookieDate.read? (CookieDate.write t) = some ⟨t, 0⟩ ∧
    ∀ (jar : CookieJar) (now : Instant) (name value : String), ';' ∉ name.toList ∧ '=' ∉ name.toList →
      ';' ∉ value.toList → trim name ≠ "" →
      let c : Cookie := ⟨trim name, trim value, none, rootPath⟩
      let after := jar.write (name ++ "=" ++ value ++ "; expires=" ++ CookieDate.write t) now
      ((∀ k ∈ after.cookies, k.key ≠ c.key) ↔ t ≤ now.seconds) ∧
        after = if t ≤ now.seconds then jar.discard c else jar.put c := by
  have ht := CookieDate.hasYear_iff.2 ⟨hfirst, hlast⟩
  refine ⟨CookieDate.read?_write ht, fun jar now name value hname hvalue hne => ?_⟩
  intro c after
  have htext : (name ++ "=" ++ value ++ "; expires=" ++ CookieDate.write t).toList =
      (name ++ "=" ++ value).toList ++ ';' :: (" expires=".toList ++ (CookieDate.write t).toList) := by
    simp only [String.toList_append, List.append_assoc]
    rfl
  have hsaid : CookieDirective.ofText? (name ++ "=" ++ value ++ "; expires=" ++ CookieDate.write t).toList =
      some ⟨trim name, trim value, [.date ⟨t, 0⟩]⟩ := by
    rw [htext, CookieDirective.ofText?_append, CookieDirective.ofText?_pair hname hvalue hne,
      splitAt_eq_self (semicolon_not_mem_expires t), List.map_singleton, CookieAttribute.ofPiece_write ht]
    rfl
  have hafter : after = jar.settle ⟨c, (⟨t, 0⟩ : Instant).notAfter now⟩ := by
    rw [show after = jar.write _ now from rfl, CookieJar.write_eq, hsaid]
    rfl
  rw [hafter]
  refine ⟨CookieJar.settle_clears_iff.trans Instant.notAfter_iff, ?_⟩
  unfold CookieJar.settle
  simp only [Instant.notAfter_iff]

/-- A cookie is kept to the last second of all, and deleted by a date before the first year. -/
theorem dates_of_expiry_kept_ends :
    let jar : CookieJar := ⟨"www.example.com", "/", [⟨"seen", "1", none, "/"⟩, ⟨"seen", "2", none, "/shop"⟩]⟩
    CookieDate.read? (CookieDate.write 8210266876799) = some ⟨8210266876799, 0⟩ ∧
      jar.write (" seen " ++ "=" ++ "3" ++ "; expires=" ++ CookieDate.write 8210266876799) .epoch =
        ⟨"www.example.com", "/", [⟨"seen", "2", none, "/shop"⟩, ⟨"seen", "3", none, "/"⟩]⟩ ∧
      jar.write (" seen " ++ "=" ++ "3" ++ "; expires=" ++ CookieDate.write (-62200000000)) .epoch =
        ⟨"www.example.com", "/", [⟨"seen", "2", none, "/shop"⟩]⟩ := by
  intro jar
  have hname : ';' ∉ " seen ".toList ∧ '=' ∉ " seen ".toList := by decide
  have hvalue : ';' ∉ "3".toList := by decide
  have hne : trim " seen " ≠ "" := by decide
  obtain ⟨hread, hkept⟩ := dates_of_expiry_kept (t := 8210266876799) (by decide) (by decide)
  obtain ⟨-, hdeleted⟩ := dates_of_expiry_kept (t := -62200000000) (by decide) (by decide)
  refine ⟨hread, ?_, ?_⟩
  · rw [(hkept jar .epoch " seen " "3" hname hvalue hne).2]
    decide
  · rw [(hdeleted jar .epoch " seen " "3" hname hvalue hne).2]
    decide

end PageSweep
