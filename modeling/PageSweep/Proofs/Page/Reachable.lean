import PageSweep.Proofs.Cookie.Jar
import PageSweep.Proofs.Page.Numbered
import PageSweep.Proofs.Page.StyleSheet

/-!
# Pages that can be reached

The pages that come about from an empty page or a snapshot by what a host may do to a page and what scripts
may do. What holds of all of them is what a snapshot relies on.

* `Reachable.numbered`: the elements are told apart by their numbers.
* `Reachable.jar_host`, `Reachable.absolute`: the host and the path of a page.
* `Reachable.storable`: all that is in a snapshot is read the same from it.
-/

namespace PageSweep

open Text

namespace Page

/-- The pages that can be reached, where the elements that are added fit a condition. -/
inductive Reachable (A : Element → Prop) : Page → Prop where
  | new (hostname : String) : Reachable A (new hostname)
  | ofSnapshot (s : Snapshot) : Reachable A (ofSnapshot s).1
  | append {p : Page} (h : Reachable A p) (parent : Option Nat) {e : Element} (he : A e) :
      Reachable A (p.append parent e).1
  | withPath {p : Page} (h : Reachable A p) (path : String) : Reachable A (p.withPath path)
  | attachHead {p : Page} (h : Reachable A p) (attached : Bool) :
      Reachable A { p with headAttached := attached }
  | insertCookie {p : Page} (h : Reachable A p) (c : Cookie) : Reachable A { p with jar := p.jar.insert c }
  | remove {p : Page} (h : Reachable A p) (ref : Nat) : Reachable A (p.remove ref)
  | setStyle {p : Page} (h : Reachable A p) (ref : Nat) (property value : String) :
      Reachable A (p.setStyle ref property value)
  | removeClass {p : Page} (h : Reachable A p) (ref : Nat) (className : String) :
      Reachable A (p.removeClass ref className)
  | click {p q : Page} (h : Reachable A p) {ref : Nat} (hq : p.click ref = .ok q) : Reachable A q
  | setCookie {p : Page} (h : Reachable A p) (directive : String) (now : Instant) :
      Reachable A (p.setCookie directive now)
  | openSheet {p : Page} (h : Reachable A p) {id : String} {s : StyleSheet} (hs : p.openSheet? id = some s) :
      Reachable A (p.putSheet id s)
  | insertRule {p : Page} (h : Reachable A p) {id text : String} {index : Nat} {s s' : StyleSheet}
      (hs : p.openSheet? id = some s) (hs' : s.insertRule text index = .ok s') :
      Reachable A (p.putSheet id s')
  | deleteRule {p : Page} (h : Reachable A p) {id : String} {index : Nat} {s s' : StyleSheet}
      (hs : p.openSheet? id = some s) (hs' : s.deleteRule index = .ok s') : Reachable A (p.putSheet id s')
  | reload {p : Page} (h : Reachable A p) : Reachable A p.reload

variable {A : Element → Prop} {p : Page}

/-- **The elements of a page are told apart by their numbers.** -/
theorem Reachable.numbered (h : p.Reachable A) : p.Numbered := by
  induction h with
  | new hostname => exact numbered_new hostname
  | ofSnapshot s => exact numbered_ofSnapshot s
  | append _ parent _ ih => exact ih.append parent _
  | withPath _ _ ih => exact ⟨ih.nodup, ih.lt⟩
  | attachHead _ _ ih => exact ⟨ih.nodup, ih.lt⟩
  | insertCookie _ _ ih => exact ⟨ih.nodup, ih.lt⟩
  | remove _ ref ih => exact ih.remove ref
  | setStyle _ ref _ _ ih => exact ih.update ref _
  | removeClass _ ref _ ih => exact ih.update ref _
  | click _ hq ih =>
    obtain ⟨-, rfl⟩ := click_eq_ok hq
    exact ih.clicked _
  | setCookie _ _ _ ih => exact ⟨ih.nodup, ih.lt⟩
  | openSheet _ _ ih => exact ⟨ih.nodup, ih.lt⟩
  | insertRule _ _ _ ih => exact ⟨ih.nodup, ih.lt⟩
  | deleteRule _ _ _ ih => exact ⟨ih.nodup, ih.lt⟩
  | reload _ ih => exact ⟨ih.nodup, ih.lt⟩

/-- **The jar of a page is its host's.** -/
theorem Reachable.jar_host (h : p.Reachable A) : p.jar.host = lower p.hostname := by
  induction h with
  | new hostname => rfl
  | ofSnapshot s =>
    have hkept := CookieJar.foldl_insert_keeps CookieJar.host fun _ c => CookieJar.host_insert c
    exact (hkept s.cookies _).trans (CookieJar.host_withPagePath s.path)
  | append _ parent _ ih => cases parent <;> exact ih
  | withPath _ path ih => exact (CookieJar.host_withPagePath path).trans ih
  | attachHead _ _ ih => exact ih
  | insertCookie _ c ih => exact (CookieJar.host_insert c).trans ih
  | remove _ ref ih => exact ih
  | setStyle _ ref _ _ ih => exact ih
  | removeClass _ ref _ ih => exact ih
  | click _ hq ih =>
    obtain ⟨-, rfl⟩ := click_eq_ok hq
    exact ih
  | setCookie _ directive now ih => exact (CookieJar.host_write directive now).trans ih
  | openSheet _ _ ih => exact ih
  | insertRule _ _ _ ih => exact ih
  | deleteRule _ _ _ ih => exact ih
  | reload _ ih => exact ih

/-- **The path of a page is absolute.** -/
theorem Reachable.absolute (h : p.Reachable A) : startsWith "/" p.jar.pagePath = true := by
  have hvisit : ∀ (jar : CookieJar) (path : String), startsWith "/" jar.pagePath = true →
      startsWith "/" (jar.withPagePath path).pagePath = true := by
    intro jar path hjar
    unfold CookieJar.withPagePath
    split
    · assumption
    · exact hjar
  induction h with
  | new hostname => exact (CookieJar.sound_new hostname).path
  | ofSnapshot s =>
    have hkept : (Page.ofSnapshot s).1.jar.pagePath = ((CookieJar.new s.hostname).withPagePath s.path).pagePath :=
      CookieJar.foldl_insert_keeps CookieJar.pagePath (fun _ c => CookieJar.pagePath_insert c) s.cookies _
    rw [hkept]
    exact hvisit _ s.path (CookieJar.sound_new s.hostname).path
  | append _ parent _ ih => cases parent <;> exact ih
  | withPath _ path ih => exact hvisit _ path ih
  | attachHead _ _ ih => exact ih
  | insertCookie _ c ih => rwa [CookieJar.pagePath_insert]
  | remove _ ref ih => exact ih
  | setStyle _ ref _ _ ih => exact ih
  | removeClass _ ref _ ih => exact ih
  | click _ hq ih =>
    obtain ⟨-, rfl⟩ := click_eq_ok hq
    exact ih
  | setCookie _ directive now ih => rwa [Page.setCookie, CookieJar.pagePath_write]
  | openSheet _ _ ih => exact ih
  | insertRule _ _ _ ih => exact ih
  | deleteRule _ _ _ ih => exact ih
  | reload _ ih => exact ih

/-! ### What a snapshot relies on -/

/-- What a snapshot of a page relies on: what it holds is read as it is written. -/
structure Storable (p : Page) : Prop where
  host : p.jar.host = lower p.hostname
  jar : p.jar.Sound
  sheets : ∀ e ∈ p.sheets.entries, e.2.Readable
  tags : ∀ n ∈ p.nodes, lower n.element.tag = n.element.tag

theorem storable_new (hostname : String) : (Page.new hostname).Storable :=
  ⟨rfl, CookieJar.sound_new hostname, fun e he => absurd he List.not_mem_nil,
    fun n hn => by simp [nodes, Page.new] at hn⟩

theorem Storable.withJar (h : p.Storable) {jar : CookieJar} (hhost : jar.host = p.jar.host)
    (hjar : jar.Sound) : ({ p with jar := jar } : Page).Storable :=
  ⟨hhost.trans h.host, hjar, h.sheets, h.tags⟩

/-- Changes of elements that keep the tag. -/
theorem Storable.update (h : p.Storable) (ref : Nat) {f : Element → Element}
    (hf : ∀ e, (f e).tag = e.tag) : (p.update ref f).Storable := by
  refine ⟨h.host, h.jar, h.sheets, fun n hn => ?_⟩
  rw [nodes_update] at hn
  obtain ⟨m, hm, rfl⟩ := List.mem_map.1 hn
  have htag : (updated ref f m).element.tag = m.element.tag := by
    unfold updated
    split
    · exact hf _
    · rfl
  rw [htag]
  exact h.tags m hm

theorem Storable.clicked (h : p.Storable) (ref : Nat) : (p.clicked ref).Storable := by
  have hupdate := h.update ref Element.tag_click
  exact ⟨hupdate.host, hupdate.jar, hupdate.sheets, hupdate.tags⟩

theorem Storable.remove (h : p.Storable) (ref : Nat) : (p.remove ref).Storable :=
  ⟨h.host, h.jar, h.sheets, fun n hn => h.tags n ((nodes_remove p ref).mem_iff.1 hn)⟩

theorem Storable.openSheet (h : p.Storable) {id : String} {s : StyleSheet}
    (hs : p.openSheet? id = some s) : s.Readable := by
  unfold openSheet? at hs
  split at hs
  · cases hs
    cases hg : p.sheets.get? id with
    | none => exact StyleSheet.readable_empty
    | some s => exact h.sheets _ (Entries.mem_of_get? hg)
  · cases hs

theorem Storable.putSheet (h : p.Storable) (id : String) {s : StyleSheet} (hs : s.Readable) :
    (p.putSheet id s).Storable := by
  refine ⟨h.host, h.jar, fun e he => ?_, h.tags⟩
  rcases Entries.mem_insert he with rfl | he
  · exact hs
  · exact h.sheets e he

theorem tag_removeClass (className : String) (e : Element) : (e.removeClass className).tag = e.tag := by
  unfold Element.removeClass
  split <;> rfl

theorem mem_nodes_append {parent : Option Nat} {e : Element} {n : Node}
    (hn : n ∈ (p.append parent e).1.nodes) : n = ⟨p.next, e⟩ ∨ n ∈ p.nodes := by
  cases parent with
  | none =>
    simp only [nodes, append, Forest.preorder_append, Forest.tree, Forest.preorder_cons,
      Forest.preorder_nil, List.append_nil, List.mem_append, List.mem_singleton] at hn ⊢
    tauto
  | some ref =>
    simp only [nodes, append, List.mem_append] at hn ⊢
    rcases hn with hn | hn
    · have hperm := Forest.preorder_addBelow_perm (fun m : Node => m.ref == ref) ⟨p.next, e⟩ p.body
      rcases List.mem_append.1 (hperm.mem_iff.1 hn) with hn | hn
      · exact .inr (.inl hn)
      · exact .inl (List.eq_of_mem_replicate hn)
    · have hperm := Forest.preorder_addBelow_perm (fun m : Node => m.ref == ref) ⟨p.next, e⟩ p.loose
      rcases List.mem_append.1 (hperm.mem_iff.1 hn) with hn | hn
      · exact .inr (.inr hn)
      · exact .inl (List.eq_of_mem_replicate hn)

theorem Storable.append (h : p.Storable) (parent : Option Nat) {e : Element} (he : lower e.tag = e.tag) :
    (p.append parent e).1.Storable := by
  have hsame : (p.append parent e).1.jar = p.jar ∧ (p.append parent e).1.hostname = p.hostname ∧
      (p.append parent e).1.sheets = p.sheets := by cases parent <;> exact ⟨rfl, rfl, rfl⟩
  obtain ⟨hjar, hhost, hsheets⟩ := hsame
  refine ⟨hjar ▸ hhost ▸ h.host, hjar ▸ h.jar, hsheets ▸ h.sheets, fun n hn => ?_⟩
  rcases mem_nodes_append hn with rfl | hn
  · exact he
  · exact h.tags n hn

theorem sound_foldl_insert (cs : List Cookie) {jar : CookieJar} (h : jar.Sound)
    (hhost : ∀ c ∈ jar.host.toList, isBlank c = false) :
    (cs.foldl CookieJar.insert jar).Sound ∧ (cs.foldl CookieJar.insert jar).host = jar.host := by
  induction cs generalizing jar with
  | nil => exact ⟨h, rfl⟩
  | cons c cs ih =>
    have hc : (jar.insert c).host = jar.host := CookieJar.host_insert c
    obtain ⟨h1, h2⟩ := ih (h.insert hhost c) (hc ▸ hhost)
    exact ⟨h1, h2.trans hc⟩

theorem storable_ofSnapshot (s : Snapshot) (hhost : ∀ c ∈ s.hostname.toList, isBlank c = false) :
    (Page.ofSnapshot s).1.Storable := by
  have hnew := (storable_new s.hostname).jar.withPagePath s.path
  have hhost' : ((Page.new s.hostname).jar.withPagePath s.path).host = lower s.hostname :=
    CookieJar.host_withPagePath s.path
  obtain ⟨hjar, hsame⟩ := sound_foldl_insert s.cookies hnew (hhost' ▸ isBlank_lower hhost)
  refine ⟨hsame.trans hhost', hjar, fun e he => ?_, fun n hn => ?_⟩
  · simp only [Page.ofSnapshot, Table.map, List.map_map] at he
    obtain ⟨e', -, rfl⟩ := List.mem_map.1 he
    exact StyleSheet.readable_sheetOf _ StyleSheet.readable_empty
  · simp only [nodes, Page.ofSnapshot, Page.new, Page.withPath, Forest.preorder_map, Forest.preorder_nil,
      List.append_nil] at hn
    obtain ⟨m, -, rfl⟩ := List.mem_map.1 hn
    exact lower_lower m.2.tag

/-- **All that is in a snapshot is read the same from it**, on hosts that are free of blanks. -/
theorem Reachable.storable (hA : ∀ e, A e → lower e.tag = e.tag) (h : p.Reachable A)
    (hhost : ∀ c ∈ p.hostname.toList, isBlank c = false) : p.Storable := by
  have hjar : ∀ {q : Page}, q.Storable → (∀ c ∈ q.hostname.toList, isBlank c = false) →
      ∀ c ∈ q.jar.host.toList, isBlank c = false := by
    intro q hq hhost
    rw [hq.host]
    exact isBlank_lower hhost
  induction h with
  | new hostname => exact storable_new hostname
  | ofSnapshot s => exact storable_ofSnapshot s hhost
  | append _ parent he ih =>
    refine (ih ?_).append parent (hA _ he)
    cases parent <;> exact hhost
  | withPath _ path ih =>
    exact (ih hhost).withJar (CookieJar.host_withPagePath path) ((ih hhost).jar.withPagePath path)
  | attachHead _ _ ih =>
    have hp := ih hhost
    exact ⟨hp.host, hp.jar, hp.sheets, hp.tags⟩
  | insertCookie _ c ih =>
    have hp := ih hhost
    exact hp.withJar (CookieJar.host_insert c) (hp.jar.insert (hjar hp hhost) c)
  | remove _ ref ih => exact (ih hhost).remove ref
  | setStyle _ ref _ _ ih => exact (ih hhost).update ref fun _ => rfl
  | removeClass _ ref className ih => exact (ih hhost).update ref (tag_removeClass className)
  | click _ hq ih =>
    obtain ⟨-, rfl⟩ := click_eq_ok hq
    exact (ih hhost).clicked _
  | setCookie _ directive now ih =>
    have hp := ih hhost
    exact hp.withJar (CookieJar.host_write directive now) (hp.jar.write (hjar hp hhost) directive now)
  | openSheet _ hs ih => exact (ih hhost).putSheet _ ((ih hhost).openSheet hs)
  | insertRule _ hs hs' ih => exact (ih hhost).putSheet _ (((ih hhost).openSheet hs).insertRule hs')
  | deleteRule _ hs hs' ih => exact (ih hhost).putSheet _ (((ih hhost).openSheet hs).deleteRule hs')
  | reload _ ih =>
    have hp := ih hhost
    exact ⟨hp.host, hp.jar, hp.sheets, hp.tags⟩

end Page

end PageSweep
