import PageSweep.Proofs.Page.Restyling
import PageSweep.Proofs.Pass.Trail

/-!
# Passes only take away

A pass of any schema, whatever its strings are, takes elements from their places, changes inline styles,
takes words out of class attributes, clicks, and deletes cookies. It makes no element, moves none to another
place, and stores no cookie; of stylesheets it touches its own one only.

* `Shrinks.remove`, `Shrinks.update`: what single changes leave.
* `shrinks_touched`: every operation.
* `pass_only_shrinks`: whole passes.
* `Sweeper.clicks_le_run`: what that says of clicks.
-/

namespace PageSweep

open Text

/-- **An element after at most so many clicks and any restyling**: its class attribute stays, with some of its
words, and all others stay as they are. -/
structure Element.Restyled (clicks : Nat) (e e' : Element) : Prop where
  tag : e'.tag = e.tag
  attrs : ∀ key, key ≠ "class" → e'.attrs.get? key = e.attrs.get? key
  class_isSome : (e'.attrs.get? "class").isSome = (e.attrs.get? "class").isSome
  classes : e'.classes.Sublist e.classes
  clicks : ∃ k ≤ clicks, e'.clicks = e.clicks + UInt32.ofNat k

namespace Element.Restyled

theorem refl (n : Nat) (e : Element) : e.Restyled n e :=
  ⟨rfl, fun _ _ => rfl, rfl, .refl _, 0, Nat.zero_le _, by simp⟩

theorem trans {m n : Nat} {e₁ e₂ e₃ : Element} (h : e₁.Restyled m e₂) (h' : e₂.Restyled n e₃) :
    e₁.Restyled (m + n) e₃ := by
  refine ⟨h'.tag.trans h.tag, fun key hk => (h'.attrs key hk).trans (h.attrs key hk),
    h'.class_isSome.trans h.class_isSome, h'.classes.trans h.classes, ?_⟩
  obtain ⟨j, hj, hc⟩ := h.clicks
  obtain ⟨k, hk, hc'⟩ := h'.clicks
  refine ⟨j + k, by omega, ?_⟩
  rw [hc', hc, UInt32.ofNat_add, UInt32.add_assoc]

/-- Clicks get no fewer, as long as they can be counted. -/
theorem clicks_le {n : Nat} {e e' : Element} (h : e.Restyled n e') (hn : e.clicks.toNat + n < 2 ^ 32) :
    e.clicks.toNat ≤ e'.clicks.toNat := by
  obtain ⟨k, hk, hc⟩ := h.clicks
  rw [hc, UInt32.toNat_add, UInt32.toNat_ofNat']
  omega

theorem mono {m n : Nat} (hmn : m ≤ n) {e e' : Element} (h : e.Restyled m e') : e.Restyled n e' := by
  obtain ⟨k, hk, hc⟩ := h.clicks
  exact ⟨h.tag, h.attrs, h.class_isSome, h.classes, k, by omega, hc⟩

theorem setStyle (property value : String) (e : Element) : e.Restyled 0 (e.setStyle property value) :=
  ⟨rfl, fun _ _ => rfl, rfl, .refl _, 0, Nat.le_refl _, by simp [Element.setStyle]⟩

/-- A click is counted, or else the element was full and stays as it is. -/
theorem click (e : Element) : e.Restyled 1 e.click := by
  unfold Element.click
  split
  · exact ⟨rfl, fun _ _ => rfl, rfl, .refl _, 0, Nat.zero_le _, by simp⟩
  · exact ⟨rfl, fun _ _ => rfl, rfl, .refl _, 1, Nat.le_refl _, rfl⟩

/-- Taking a word out of the class attribute leaves the others, in their order. -/
theorem removeClass (className : String) (e : Element) : e.Restyled 0 (e.removeClass className) := by
  have h := e.declasses_removeClass className
  refine ⟨?_, h.attrs, h.class_isSome, h.classes ▸ List.filter_sublist, 0, Nat.le_refl _, ?_⟩
  · rw [h.rest]
  · rw [h.rest]
    simp

end Element.Restyled

namespace Page

/-- The numbers of what stands right below a place, in order: at the top of the body, or below the element of
a number. -/
def childrenOf (p : Page) : Option Nat → List Nat
  | none => p.body.tops.map Node.ref
  | some ref => (p.body.children (·.ref == ref) ++ p.loose.children (·.ref == ref)).map Node.ref

/-- **What passes may leave of a page** after at most so many clicks: below each place some of what was there,
in its order; the same elements, restyled; other stylesheets as they were. -/
structure Shrinks (clicks : Nat) (p q : Page) : Prop where
  hostname : q.hostname = p.hostname
  pagePath : q.jar.pagePath = p.jar.pagePath
  headAttached : q.headAttached = p.headAttached
  sheets : ∀ id, id ≠ styleSheetId → q.sheets.get? id = p.sheets.get? id
  next : q.next = p.next
  children : ∀ place, (q.childrenOf place).Sublist (p.childrenOf place)
  elements : ∀ ref, Option.Rel (Element.Restyled clicks) (p.element? ref) (q.element? ref)

variable {m n : Nat} {p q r : Page}

theorem rel_refl (n : Nat) (e? : Option Element) : Option.Rel (Element.Restyled n) e? e? := by
  cases e? with
  | none => exact .none
  | some e => exact .some (.refl n e)

theorem Shrinks.refl (p : Page) : p.Shrinks 0 p :=
  ⟨rfl, rfl, rfl, fun _ _ => rfl, rfl, fun _ => .refl _, fun _ => rel_refl 0 _⟩

theorem Shrinks.trans (h : p.Shrinks m q) (h' : q.Shrinks n r) : p.Shrinks (m + n) r := by
  refine ⟨h'.hostname.trans h.hostname, h'.pagePath.trans h.pagePath,
    h'.headAttached.trans h.headAttached, fun id hid => (h'.sheets id hid).trans (h.sheets id hid),
    h'.next.trans h.next, fun place => (h'.children place).trans (h.children place), fun ref => ?_⟩
  have h1 := h.elements ref
  have h2 := h'.elements ref
  revert h1 h2
  generalize p.element? ref = a
  generalize q.element? ref = b
  generalize r.element? ref = c
  intro h1 h2
  cases h1 with
  | none => cases h2 with
    | none => exact .none
  | some h1 => cases h2 with
    | some h2 => exact .some (h1.trans h2)

theorem Shrinks.mono (hmn : m ≤ n) (h : p.Shrinks m q) : p.Shrinks n q := by
  refine ⟨h.hostname, h.pagePath, h.headAttached, h.sheets, h.next, h.children, fun ref => ?_⟩
  have h1 := h.elements ref
  revert h1
  generalize p.element? ref = a
  generalize q.element? ref = b
  intro h1
  cases h1 with
  | none => exact .none
  | some h1 => exact .some (h1.mono hmn)

/-- Clicks on an element of the page get no fewer, as long as they can be counted. -/
theorem Shrinks.clicks_le (h : p.Shrinks n q) {ref : Nat} {e : Element} (he : p.element? ref = some e)
    (hn : e.clicks.toNat + n < 2 ^ 32) : ∃ e', q.element? ref = some e' ∧ e.clicks.toNat ≤ e'.clicks.toNat := by
  have helement := h.elements ref
  rw [he] at helement
  cases hq : q.element? ref with
  | none => rw [hq] at helement; cases helement
  | some e' =>
    rw [hq] at helement
    cases helement with
    | some hrestyled => exact ⟨e', rfl, hrestyled.clicks_le hn⟩

/-! ### Single changes -/

theorem childrenOf_update (p : Page) (ref : Nat) (f : Element → Element) (place : Option Nat) :
    (p.update ref f).childrenOf place = p.childrenOf place := by
  have href : Node.ref ∘ updated ref f = Node.ref := by
    funext n
    exact updated_ref ref f n
  have hsame : ∀ x, ((fun n : Node => n.ref == x) ∘ updated ref f) = fun n => n.ref == x := by
    intro x
    funext n
    rw [Function.comp_apply, updated_ref]
  cases place with
  | none => rw [childrenOf, childrenOf, body_update, Forest.tops_map, List.map_map, href]
  | some x =>
    rw [childrenOf, childrenOf, body_update, loose_update, Forest.children_map, Forest.children_map, hsame,
      ← List.map_append, List.map_map, href]

/-- **Restyling an element.** -/
theorem Shrinks.update {f : Element → Element} (hf : ∀ e : Element, e.Restyled n (f e)) (p : Page) (ref : Nat) :
    p.Shrinks n (p.update ref f) := by
  refine ⟨rfl, rfl, rfl, fun _ _ => rfl, rfl, fun place => ?_, fun x => ?_⟩
  · rw [childrenOf_update]
  · rw [element?_update]
    split
    · cases p.element? x with
      | none => exact .none
      | some e => exact .some (hf e)
    · exact rel_refl n _

theorem Shrinks.clicked (p : Page) (ref : Nat) : p.Shrinks 1 (p.clicked ref) := by
  have hupdate := Shrinks.update Element.Restyled.click p ref
  exact ⟨rfl, rfl, rfl, fun _ _ => rfl, rfl, hupdate.children, hupdate.elements⟩

/-- **Taking an element from its place.** What stood below an element stands below it still, where it is now,
or at no place at all. -/
theorem Shrinks.remove (h : p.Numbered) (ref : Nat) : p.Shrinks 0 (p.remove ref) := by
  refine ⟨rfl, rfl, rfl, fun _ _ => rfl, rfl, fun place => ?_, fun x => ?_⟩
  · cases place with
    | none => exact (Forest.tops_cut _ p.body).map _
    | some x =>
      refine List.Sublist.map _ ?_
      have hcount : p.body.preorder.countP (·.ref == x) + p.loose.preorder.countP (·.ref == x) ≤ 1 := by
        rw [← List.countP_append]
        exact h.countP_le x
      have hbody := Forest.children_cut (fun n : Node => n.ref == x) (fun n => n.ref == ref) p.body
        (by omega)
      have hloose := Forest.children_cutBelow (fun n : Node => n.ref == x) (fun n => n.ref == ref) p.loose
        (by omega)
      -- The element of the number is in the body or lies loose, but not both.
      have hone : p.body.children (·.ref == x) = [] ∨ p.loose.children (·.ref == x) = [] := by
        rcases Nat.eq_zero_or_pos (p.body.preorder.countP (·.ref == x)) with h0 | h0
        · exact .inl (Forest.children_eq_nil fun n hn => by simpa using List.countP_eq_zero.1 h0 n hn)
        · have h1 : p.loose.preorder.countP (·.ref == x) = 0 := by omega
          exact .inr (Forest.children_eq_nil fun n hn => by simpa using List.countP_eq_zero.1 h1 n hn)
      rw [← List.append_nil (_ ++ _)] at hloose
      have hboth := Forest.append_sublist_of_nil hbody hloose hone
      rw [List.append_nil] at hboth
      show (((p.body.cut _).1.children _) ++ Forest.children _ (((p.loose.cutBelow _).1.append
        (p.loose.cutBelow _).2).append (p.body.cut _).2)).Sublist _
      rw [Forest.children_append, Forest.children_append, ← List.append_assoc]
      exact hboth
  · rw [h.element?_remove]
    exact rel_refl 0 _

theorem Shrinks.withJar {jar : CookieJar} (hpath : jar.pagePath = p.jar.pagePath) :
    p.Shrinks 0 { p with jar := jar } :=
  ⟨rfl, hpath, rfl, fun _ _ => rfl, rfl, fun _ => .refl _, fun _ => rel_refl 0 _⟩

theorem Shrinks.putSheet (p : Page) (s : StyleSheet) : p.Shrinks 0 (p.putSheet styleSheetId s) := by
  refine ⟨rfl, rfl, rfl, fun id hid => ?_, rfl, fun _ => .refl _, fun _ => rel_refl 0 _⟩
  show (p.sheets.insert styleSheetId s).get? id = _
  rw [Table.get?_insert, if_neg (Ne.symm hid)]

theorem Shrinks.reload (p : Page) : p.Shrinks 0 p.reload :=
  ⟨rfl, rfl, rfl, fun _ _ => rfl, rfl, fun _ => .refl _, fun _ => rel_refl 0 _⟩

/-- One change after the other that keep an invariant and click nothing. -/
theorem Shrinks.foldl {α : Type} {I : Page → Prop} {step : Page → α → Page}
    (hstep : ∀ p a, I p → I (step p a) ∧ p.Shrinks 0 (step p a)) (as : List α) (h : I p) :
    p.Shrinks 0 (as.foldl step p) := by
  induction as generalizing p with
  | nil => exact .refl p
  | cons a as ih =>
    obtain ⟨h1, h2⟩ := hstep p a h
    exact h2.trans (ih h1)

/-! ### Operations -/

variable {began now : Instant} {ops : List Op}

theorem Shrinks.setStyles (p : Page) (ref : Nat) (ds : List Declaration) :
    p.Shrinks 0 (ds.foldl (fun p d => p.setStyle ref d.1 d.2) p) :=
  Shrinks.foldl (I := fun _ => True)
    (fun p d _ => ⟨trivial, .update (Element.Restyled.setStyle d.1 d.2) p ref⟩) ds trivial

/-- **Every operation takes away at most**, and clicks at most once. -/
theorem shrinks_touched (h : p.Numbered) (ht : p.Touched now q) : p.Shrinks 1 q := by
  have hzero : ∀ {r : Page}, p.Shrinks 0 r → p.Shrinks 1 r := fun hr => hr.mono (Nat.zero_le 1)
  cases ht with
  | idle => exact hzero (.refl p)
  | clicked _ => exact .clicked p _
  | removed refs =>
    exact hzero (Shrinks.foldl (I := Numbered) (fun p ref hp => ⟨hp.remove ref, .remove hp ref⟩) refs h)
  | styled refs ds =>
    exact hzero (Shrinks.foldl (I := fun _ => True) (fun p ref _ => ⟨trivial, .setStyles p ref ds⟩)
      refs trivial)
  | declassed refs className =>
    exact hzero (Shrinks.foldl (I := fun _ => True)
      (fun p ref _ => ⟨trivial, .update (Element.Restyled.removeClass className) p ref⟩) refs trivial)
  | @cleared directives _ =>
    exact hzero (Shrinks.foldl (I := fun _ => True)
      (fun p d _ => ⟨trivial, .withJar (CookieJar.pagePath_write d now)⟩) directives trivial)
  | opened _ => exact hzero (.putSheet p _)
  | ruled _ _ => exact hzero (.putSheet p _)
  | unruled _ _ => exact hzero (.putSheet p _)

theorem Trail.shrinks (h : p.Numbered) (ht : Trail began ops p q) : p.Shrinks ops.length q := by
  induction ht with
  | nil => exact .refl _
  | reload _ ih =>
    exact ((Shrinks.reload _).trans (ih ⟨h.nodup, h.lt⟩)).mono (by simp)
  | touch _ ht _ ih =>
    refine ((shrinks_touched h ht).trans (ih (h.touched ht))).mono ?_
    rw [List.length_cons]
    omega

/-! ### Cookies -/

theorem cookies_setCookies {host : String} (hhost : ';' ∉ host.toList) (hnow : 0 ≤ now.seconds)
    {directives : List String} (hd : ∀ d ∈ directives, IsDeletion host d) (p : Page) :
    (Scene.setCookies p now directives).jar.cookies.Sublist p.jar.cookies := by
  unfold Scene.setCookies
  induction directives generalizing p with
  | nil => exact .refl _
  | cons d ds ih =>
    exact (ih (fun d' hd' => hd d' (List.mem_cons_of_mem _ hd')) _).trans
      (p.jar.write_deletion (hd d List.mem_cons_self) hhost hnow)

/-- **No operation stores a cookie.** -/
theorem cookies_touched (hhost : ';' ∉ p.hostname.toList) (hnow : 0 ≤ now.seconds)
    (ht : p.Touched now q) : q.jar.cookies.Sublist p.jar.cookies := by
  have hsame : ∀ {r : Page}, r.jar = p.jar → r.jar.cookies.Sublist p.jar.cookies := fun hr =>
    hr ▸ .refl _
  cases ht with
  | idle => exact .refl _
  | clicked _ => exact .refl _
  | removed refs => exact hsame (foldl_keeps (fun p ref => (rfl : (p.remove ref).jar = p.jar)) refs p)
  | styled refs ds =>
    have hset : ∀ (ref : Nat) (p : Page), (ds.foldl (fun p d => p.setStyle ref d.1 d.2) p).jar = p.jar :=
      fun ref p => foldl_keeps (fun p d => (rfl : (p.setStyle ref d.1 d.2).jar = p.jar)) ds p
    exact hsame (foldl_keeps (fun p ref => hset ref p) refs p)
  | declassed refs className =>
    exact hsame (foldl_keeps (fun p ref => (rfl : (p.removeClass ref className).jar = p.jar)) refs p)
  | cleared hd => exact cookies_setCookies hhost hnow hd p
  | opened _ => exact .refl _
  | ruled _ _ => exact .refl _
  | unruled _ _ => exact .refl _

theorem Trail.cookies (hhost : ';' ∉ p.hostname.toList) (hbegan : 0 ≤ began.seconds)
    (ht : Trail began ops p q) : q.jar.cookies.Sublist p.jar.cookies := by
  induction ht with
  | nil => exact .refl _
  | reload _ ih => exact ih hhost
  | @touch p q r op ops hop ms ht _ ih =>
    have hnow : 0 ≤ (began.later ms).seconds := Int.le_trans hbegan (began.seconds_le_later ms)
    have hrest := hostname_touched ht
    exact (ih (hrest ▸ hhost)).trans (cookies_touched hhost hnow ht)

end Page

/-- **A pass only takes away.** Whatever a schema says, a pass leaves the page with its host, its path and its
head, and all stylesheets but its own; below each place it leaves some of the elements that were there, in
their order, and all elements are restyled at most and clicked no more often than the pass counts operations;
a reload is counted just if the pass halted. On a host without a semicolon and after the beginning of 1970 it
leaves some of the cookies, as they were and in their order. Elements are told apart by their numbers on every
page that can be reached (`Page.Reachable.numbered`). -/
theorem pass_only_shrinks {p : Page} (h : p.Numbered) (i : Sweeper) (began : Instant) (schema : Json) :
    let r := i.run began schema p
    p.Shrinks r.executed r.scene.page ∧
    r.scene.page.reloads = p.reloads + (if r.halted then 1 else 0) ∧
    (';' ∉ p.hostname.toList → 0 ≤ began.seconds →
      r.scene.page.jar.cookies.Sublist p.jar.cookies) := by
  intro r
  obtain ⟨ops, htrail, hlen, hcount⟩ := i.run_trail began schema p
  refine ⟨hlen ▸ htrail.shrinks h, ?_, fun hhost hbegan => htrail.cookies hhost hbegan⟩
  rw [htrail.reloads, hcount]
  show _ + UInt32.ofNat (if r.halted then 1 else 0) = _
  cases r.halted <;> rfl

/-- A page with an element and a cookie, for a schema that brings attributes along in a name. -/
def cookiePage : Page :=
  ((Page.new "shop.example").add none "div" [("class", "note wide")]).1.setCookie "seen=1; path=/a" .epoch

theorem pass_only_shrinks_cookiePage :
    let schema := Json.arr [
      .obj [("action", .str "clearCookie"), ("target", .str "x=1; Max-Age=9; path=/a")],
      .obj [("action", .str "removeClass"), ("target", .str ".note"), ("className", .str "wide")]]
    let r := (Sweeper.new 32).run .epoch schema cookiePage
    cookiePage.Numbered ∧ cookiePage.Shrinks r.executed r.scene.page ∧
      r.scene.page.reloads = cookiePage.reloads + (if r.halted then 1 else 0) ∧
      r.scene.page.jar.cookies.Sublist cookiePage.jar.cookies := by
  intro schema r
  have hadded := (Page.numbered_new "shop.example").append none (.ofTag "div" [("class", "note wide")])
  have hnum : cookiePage.Numbered := ⟨hadded.nodup, hadded.lt⟩
  obtain ⟨hshrinks, hreloads, hcookies⟩ := pass_only_shrinks hnum (Sweeper.new 32) .epoch schema
  exact ⟨hnum, hshrinks, hreloads, hcookies (by decide) (by decide)⟩

/-- **Clicks get no fewer in a pass** that has room to count as many as it carries out operations. -/
theorem Sweeper.clicks_le_run {p : Page} (h : p.Numbered) (i : Sweeper) (began : Instant) (schema : Json) {ref : Nat}
    {e : Element} (he : p.element? ref = some e) (hroom : e.clicks.toNat + (i.run began schema p).executed < 2 ^ 32) :
    ∃ e', (i.run began schema p).scene.page.element? ref = some e' ∧ e.clicks.toNat ≤ e'.clicks.toNat := by
  obtain ⟨ops, htrail, hlen, -⟩ := i.run_trail began schema p
  have hshrinks : p.Shrinks (i.run began schema p).executed (i.run began schema p).scene.page :=
    hlen ▸ htrail.shrinks h
  exact hshrinks.clicks_le he hroom

end PageSweep
