import PageSweep.Pass.Effect
import PageSweep.Proofs.Cookie.Expiry

/-!
# Directives that delete

Passes paste names of cookies, whatever characters they have, into directives. What a name can bring along
are attributes in front of those of the directive, and those come later and win: from the attribute that
makes it expire on, nothing makes a write unexpired again. So no such directive ever stores a cookie.

* `CookieWrite.expired_of_pieces`: what an attribute decides, the ones after it keep.
* `IsDeletion.expired`: the directives of passes.
* `CookieJar.write_deletion`: what they leave of a jar.
-/

namespace PageSweep

open Text

/-- A directive that passes write at a host. -/
def IsDeletion (host directive : String) : Prop :=
  ∃ name, directive ∈ Scene.deletions host name ∨ directive = Scene.deletion name

namespace CookieWrite

variable {host : String} {now : Instant} {w w' : CookieWrite}

/-- An attribute that makes every write expire. -/
def Expires (host : String) (now : Instant) (piece : List Char) : Prop :=
  ∀ w : CookieWrite, w.apply host now piece = some { w with expired := true }

/-- An attribute that has no say in whether a write expires. -/
def Neutral (piece : List Char) : Prop :=
  String.ofList (keyAndValue piece).1 ≠ "max-age" ∧ String.ofList (keyAndValue piece).1 ≠ "expires"

theorem Neutral.apply {piece : List Char} (hn : Neutral piece) (h : w.apply host now piece = some w') :
    w'.expired = w.expired := by
  obtain ⟨hage, hexp⟩ := hn
  unfold CookieWrite.apply at h
  simp only at h
  split at h
  · rename_i hkey; exact absurd hkey hage
  · rename_i hkey; exact absurd hkey hexp
  · split at h <;> cases h <;> rfl
  · split at h
    · cases h; rfl
    · split at h
      · cases h; rfl
      · cases h
  · cases h; rfl

theorem expired_of_neutral {pieces : List (List Char)} (hn : ∀ piece ∈ pieces, Neutral piece)
    (h : applyAll host now pieces w = some w') : w'.expired = w.expired := by
  induction pieces generalizing w with
  | nil => cases h; rfl
  | cons piece pieces ih =>
    rw [applyAll] at h
    obtain ⟨w₁, h₁, h₂⟩ := Option.bind_eq_some_iff.1 h
    rw [ih (fun p hp => hn p (List.mem_cons_of_mem _ hp)) h₂, (hn piece List.mem_cons_self).apply h₁]

/-- **What an attribute decides, the ones after it keep**, whatever the ones before it are. -/
theorem expired_of_pieces {before after : List (List Char)} {piece : List Char}
    (hp : Expires host now piece) (hn : ∀ piece ∈ after, Neutral piece)
    (h : applyAll host now (before ++ piece :: after) w = some w') : w'.expired = true := by
  rw [applyAll_append] at h
  obtain ⟨w₁, -, h₁⟩ := Option.bind_eq_some_iff.1 h
  rw [applyAll, hp w₁, Option.bind_some] at h₁
  exact expired_of_neutral hn h₁

theorem expired_of_directive {directive : String} {front rest piece : List Char}
    {after : List (List Char)} (hd : directive.toList = front ++ ';' :: rest)
    (hrest : splitAt ';' rest = piece :: after) (hp : Expires host now piece)
    (hn : ∀ piece ∈ after, Neutral piece) (h : ofDirective? host directive now = some w) :
    w.expired = true := by
  unfold ofDirective? at h
  rw [hd, Text.splitAt, splitAny_append (by simp)] at h
  rw [Text.splitAt] at hrest
  rw [hrest] at h
  -- The front has at least one piece, with the name and the value.
  cases hfront : splitAny (· == ';') front with
  | nil => exact absurd hfront (splitAny_ne_nil _ _)
  | cons first pieces =>
    rw [hfront, List.cons_append] at h
    split at h
    · cases h
    · rename_i first' pieces' heq
      cases heq
      split at h
      · cases h
      · simp only at h
        split at h
        · cases h
        · exact expired_of_pieces hp hn h

/-! ### The attributes of passes -/

theorem expires_maxAge : Expires host now " Max-Age=0".toList := by
  intro w
  have hkey : keyAndValue " Max-Age=0".toList = ("max-age".toList, "0".toList) := by decide
  unfold CookieWrite.apply
  rw [hkey]
  rfl

theorem read_longAgo : CookieDate.read? Scene.longAgo = some .epoch := CookieDate.read?_write (by decide)

theorem epoch_notAfter (hnow : 0 ≤ now.seconds) : Instant.epoch.notAfter now = true :=
  Instant.notAfter_iff.2 hnow

theorem expires_longAgo (hnow : 0 ≤ now.seconds) :
    Expires host now (" expires=".toList ++ Scene.longAgo.toList) := by
  intro w
  have hkey : keyAndValue (" expires=".toList ++ Scene.longAgo.toList) =
      ("expires".toList, Scene.longAgo.toList) := keyAndValue_expires 0
  unfold CookieWrite.apply
  rw [hkey]
  simp only [String.ofList_toList, read_longAgo, epoch_notAfter hnow]

theorem neutral_path : Neutral " path=/".toList := by
  unfold Neutral
  decide

theorem neutral_nil : Neutral [] := by
  unfold Neutral
  decide

theorem keyAndValue_domain (d : List Char) :
    keyAndValue (" domain=".toList ++ d) = ("domain".toList, trimList d) := by
  have hfree : '=' ∉ " domain".toList := by decide
  have hkey : lowerList (trimList " domain".toList) = "domain".toList := by decide
  have hkv := keyAndValue_append hfree d
  rwa [hkey] at hkv

theorem neutral_domain (d : List Char) : Neutral (" domain=".toList ++ d) := by
  have hkey : (keyAndValue (" domain=".toList ++ d)).1 = "domain".toList := by rw [keyAndValue_domain]
  unfold Neutral
  rw [hkey]
  decide

end CookieWrite

/-! ### The hosts of passes -/

theorem mem_joinList {sep : List Char} {ps : List (List Char)} {c : Char} (h : c ∈ joinList sep ps) :
    c ∈ sep ∨ ∃ p ∈ ps, c ∈ p := by
  induction ps with
  | nil => exact absurd h List.not_mem_nil
  | cons p ps ih =>
    cases ps with
    | nil => exact .inr ⟨p, List.mem_cons_self, h⟩
    | cons q qs =>
      rw [show joinList sep (p :: q :: qs) = p ++ sep ++ joinList sep (q :: qs) from rfl,
        List.mem_append, List.mem_append] at h
      rcases h with (h | h) | h
      · exact .inr ⟨p, List.mem_cons_self, h⟩
      · exact .inl h
      · rcases ih h with h | ⟨r, hr, h⟩
        · exact .inl h
        · exact .inr ⟨r, List.mem_cons_of_mem _ hr, h⟩

theorem mem_of_mem_splitAny {p : Char → Bool} {cs w : List Char} (hw : w ∈ splitAny p cs) {c : Char}
    (hc : c ∈ w) : c ∈ cs := by
  induction cs generalizing w with
  | nil =>
    rw [splitAny, List.mem_singleton] at hw
    exact hw ▸ hc
  | cons d cs ih =>
    rw [splitAny] at hw
    split at hw
    · rcases List.mem_cons.1 hw with rfl | hw
      · exact absurd hc List.not_mem_nil
      · exact List.mem_cons_of_mem _ (ih hw hc)
    · split at hw
      · rename_i hnil; exact absurd hnil (splitAny_ne_nil p cs)
      · rename_i v vs hvs
        rcases List.mem_cons.1 hw with rfl | hw
        · rcases List.mem_cons.1 hc with rfl | hc
          · exact List.mem_cons_self
          · exact List.mem_cons_of_mem _ (ih (hvs ▸ List.mem_cons_self) hc)
        · exact List.mem_cons_of_mem _ (ih (hvs ▸ List.mem_cons_of_mem _ hw) hc)

/-- The last labels of a host have no other characters than the host. -/
theorem mem_of_mem_baseDomain {host : String} {c : Char} (h : c ∈ (Host.baseDomain host).toList) :
    c = '.' ∨ c ∈ host.toList := by
  rw [Host.baseDomain, join, String.toList_ofList] at h
  rcases mem_joinList h with h | ⟨p, hp, h⟩
  · exact .inl (List.mem_singleton.1 h)
  · obtain ⟨label, hl, rfl⟩ := List.mem_map.1 hp
    obtain ⟨piece, hpiece, rfl⟩ := List.mem_map.1 (List.mem_of_mem_drop hl)
    rw [String.toList_ofList] at h
    exact .inr (mem_of_mem_splitAny hpiece h)

/-! ### The directives of passes -/

open CookieWrite in
/-- **The form of a directive**: a name, an attribute that makes it expire, the root path, and perhaps one
attribute more that has no say in that. -/
structure IsDeletion.Form (name piece : List Char) (last : Option (List Char)) (directive : String) : Prop where
  text : directive.toList =
    name ++ ';' :: (piece ++ ';' :: (" path=/".toList ++ (last.map (';' :: ·)).getD []))
  expires : piece = " Max-Age=0".toList ∨ piece = " expires=".toList ++ Scene.longAgo.toList
  last : ∀ l ∈ last, ';' ∉ l ∧ Neutral l

theorem IsDeletion.Form.semicolon {name piece : List Char} {last : Option (List Char)} {directive : String}
    (hf : IsDeletion.Form name piece last directive) : ';' ∉ piece := by
  rcases hf.expires with rfl | rfl
  · decide
  · exact semicolon_not_mem_expires 0

/-- The attributes of such a directive, one by one. -/
theorem IsDeletion.Form.splitAt_rest {name piece : List Char} {last : Option (List Char)} {directive : String}
    (hf : IsDeletion.Form name piece last directive) :
    Text.splitAt ';' (piece ++ ';' :: (" path=/".toList ++ (last.map (';' :: ·)).getD [])) =
      piece :: " path=/".toList :: last.toList := by
  have hpath : Text.splitAt ';' (" path=/".toList ++ (last.map (';' :: ·)).getD []) =
      " path=/".toList :: last.toList := by
    cases last with
    | none =>
      rw [Option.map_none, Option.getD_none, List.append_nil, splitAt_eq_self (by decide)]
      rfl
    | some l =>
      rw [Option.map_some, Option.getD_some, splitAt_append, splitAt_eq_self (by decide),
        splitAt_eq_self (hf.last l rfl).1]
      rfl
  rw [splitAt_append, splitAt_eq_self hf.semicolon, hpath]
  rfl

open CookieWrite in
theorem IsDeletion.Form.expired {host directive : String} {now : Instant} {w : CookieWrite}
    {name piece : List Char} {last : Option (List Char)} (hf : IsDeletion.Form name piece last directive)
    (hnow : 0 ≤ now.seconds) (h : ofDirective? host directive now = some w) : w.expired = true := by
  have hpiece : Expires host now piece := by
    rcases hf.expires with rfl | rfl
    · exact expires_maxAge
    · exact expires_longAgo hnow
  refine expired_of_directive hf.text hf.splitAt_rest hpiece (fun p hmem => ?_) h
  rcases List.mem_cons.1 hmem with rfl | hmem
  · exact neutral_path
  · exact (hf.last p (Option.mem_toList.1 hmem)).2

/-- A domain attribute of a text without a semicolon. -/
theorem last_domain {d : List Char} (hd : ';' ∉ d) :
    ∀ l ∈ some (" domain=".toList ++ d), ';' ∉ l ∧ CookieWrite.Neutral l := by
  intro l hl
  cases hl
  refine ⟨fun hm => ?_, CookieWrite.neutral_domain d⟩
  rcases List.mem_append.1 hm with hm | hm
  · exact absurd hm (by decide)
  · exact hd hm

theorem last_none : ∀ l ∈ (none : Option (List Char)), ';' ∉ l ∧ CookieWrite.Neutral l :=
  fun _ hl => absurd hl (Option.not_mem_none _)

namespace IsDeletion.Form

variable (name : String)

theorem age : Form (name.toList ++ ['=']) " Max-Age=0".toList none (name ++ "=; Max-Age=0; path=/") := by
  refine ⟨?_, .inl rfl, last_none⟩
  simp only [String.toList_append, List.append_assoc]
  rfl

theorem age_domain {d : String} (hd : ';' ∉ d.toList) :
    Form (name.toList ++ ['=']) " Max-Age=0".toList (some (" domain=".toList ++ d.toList))
      (name ++ "=; Max-Age=0; path=/; domain=" ++ d) := by
  refine ⟨?_, .inl rfl, last_domain hd⟩
  simp only [String.toList_append, List.append_assoc]
  rfl

theorem age_dotted {d : String} (hd : ';' ∉ d.toList) :
    Form (name.toList ++ ['=']) " Max-Age=0".toList (some (" domain=".toList ++ '.' :: d.toList))
      (name ++ "=; Max-Age=0; path=/; domain=." ++ d) := by
  have hdot : ';' ∉ '.' :: d.toList := by
    intro hm
    rcases List.mem_cons.1 hm with hm | hm
    · cases hm
    · exact hd hm
  refine ⟨?_, .inl rfl, last_domain hdot⟩
  simp only [String.toList_append, List.append_assoc]
  rfl

theorem date : Form (name.toList ++ ['=']) (" expires=".toList ++ Scene.longAgo.toList) none
    (name ++ "=; expires=" ++ Scene.longAgo ++ "; path=/") := by
  refine ⟨?_, .inr rfl, last_none⟩
  simp only [String.toList_append, List.append_assoc]
  rfl

theorem date_domain {d : String} (hd : ';' ∉ d.toList) :
    Form (name.toList ++ ['=']) (" expires=".toList ++ Scene.longAgo.toList)
      (some (" domain=".toList ++ d.toList))
      (name ++ "=; expires=" ++ Scene.longAgo ++ "; path=/; domain=" ++ d) := by
  refine ⟨?_, .inr rfl, last_domain hd⟩
  simp only [String.toList_append, List.append_assoc]
  rfl

/-- The directive that ends with a semicolon has an empty attribute last. -/
theorem date_closed : Form (name.toList ++ ['=']) (" expires=".toList ++ Scene.longAgo.toList) (some [])
    (Scene.deletion name) := by
  refine ⟨?_, .inr rfl, fun l hl => ?_⟩
  · rw [Scene.deletion]
    simp only [String.toList_append, List.append_assoc]
    rfl
  · cases hl
    exact ⟨List.not_mem_nil, CookieWrite.neutral_nil⟩

end IsDeletion.Form

/-- **All directives of passes have that form**, on hosts without a semicolon. -/
theorem IsDeletion.form {host directive : String} (h : IsDeletion host directive)
    (hhost : ';' ∉ host.toList) : ∃ name piece last, IsDeletion.Form name piece last directive := by
  have hbase : ';' ∉ (Host.baseDomain host).toList := by
    intro hm
    rcases mem_of_mem_baseDomain hm with hm | hm
    · cases hm
    · exact hhost hm
  obtain ⟨name, hmem | rfl⟩ := h
  · have hall : ∀ d ∈ Scene.deletions host name, ∃ name piece last, IsDeletion.Form name piece last d := by
      unfold Scene.deletions
      simp only [List.forall_mem_append, List.forall_mem_cons]
      refine ⟨⟨⟨_, _, _, .age_domain name hhost⟩, ⟨_, _, _, .age name⟩, ⟨_, _, _, .age_dotted name hhost⟩,
        ⟨_, _, _, .date_domain name hhost⟩, ⟨_, _, _, .date name⟩, fun _ hd => absurd hd List.not_mem_nil⟩,
        fun d hd => ?_⟩
      split at hd
      · exact absurd hd List.not_mem_nil
      · rw [List.mem_singleton] at hd
        subst hd
        exact ⟨_, _, _, .age_dotted name hbase⟩
    exact hall directive hmem
  · exact ⟨_, _, _, .date_closed name⟩

/-- **No directive of a pass stores a cookie**, whatever the name in it, on a host without a semicolon and
after the beginning of 1970. -/
theorem IsDeletion.expired {host directive jarHost : String} {now : Instant} {w : CookieWrite}
    (hd : IsDeletion host directive) (hhost : ';' ∉ host.toList) (hnow : 0 ≤ now.seconds)
    (h : CookieWrite.ofDirective? jarHost directive now = some w) : w.expired = true := by
  obtain ⟨name, piece, last, hf⟩ := hd.form hhost
  exact hf.expired hnow h

/-- **What such a directive leaves of a jar**: some of its cookies, in their order. -/
theorem CookieJar.write_deletion (jar : CookieJar) {host directive : String} {now : Instant}
    (hd : IsDeletion host directive) (hhost : ';' ∉ host.toList) (hnow : 0 ≤ now.seconds) :
    (jar.write directive now).cookies.Sublist jar.cookies := by
  unfold CookieJar.write
  split
  · exact List.Sublist.refl _
  · rename_i w hw
    rw [if_pos (hd.expired hhost hnow hw)]
    exact List.filter_sublist

end PageSweep
