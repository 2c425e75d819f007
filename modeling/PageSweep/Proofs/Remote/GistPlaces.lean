import PageSweep.Gist
import PageSweep.Proofs.Text.Pieces

/-!
# Where an address names a gist

An address is looked through from its front for `host/owner/id`, and if that stands nowhere, for `host/id` at its end.
The host may be in any case, an owner is whatever lies between two slashes, and an id are the hexadecimal digits from
its slash on, as many as there are: what comes after them does not matter behind an owner.

* `ownedId?_eq_some_iff`, `bareId?_eq_some_iff`: the two forms, each at one place.
* `firstAt?_eq_some_iff`: the first place of a form.
* `id?_eq_some_iff`: the id that is found is that of the gist that the address names.
* `names_page`, `id?_barePage`: the addresses of gist pages.
-/

namespace PageSweep.Gist

open Text

/-! ### The two forms -/

/-- The host of gists, in any case. -/
def IsHost (name : List Char) : Prop := name.map fold = host.toList

/-- **An id**: hexadecimal digits, at least one. -/
def IsId (id : List Char) : Prop := id ≠ [] ∧ ∀ c ∈ id, isHexDigit c = true

instance (id : List Char) : Decidable (IsId id) :=
  decidable_of_iff ((!id.isEmpty && id.all isHexDigit) = true) (by simp [IsId])

/-- **`host/owner/id`** in front of the rest of an address. The id is as long as it can be. -/
inductive Owned : (place id rest : List Char) → Prop
  | intro {name owner id rest : List Char} (hname : IsHost name) (hne : owner ≠ []) (howner : '/' ∉ owner)
      (hid : IsId id) (hstop : ∀ c ∈ rest.head?, isHexDigit c = false) :
      Owned (name ++ '/' :: (owner ++ '/' :: (id ++ rest))) id rest

/-- **`host/id`** at the end of an address, or before one slash at its end. -/
inductive Bare : (place id rest : List Char) → Prop
  | intro {name id rest : List Char} (hname : IsHost name) (hid : IsId id) (hrest : rest = [] ∨ rest = ['/']) :
      Bare (name ++ '/' :: (id ++ rest)) id rest

theorem isHost_host : IsHost host.toList := by
  unfold IsHost
  decide

theorem afterFolded?_eq_some_iff {start cs rest : List Char} :
    afterFolded? start cs = some rest ↔ ∃ name, name.map fold = start ∧ cs = name ++ rest := by
  induction start generalizing cs with
  | nil => simp [afterFolded?, eq_comm]
  | cons p ps ih =>
    cases cs with
    | nil => simp [afterFolded?]
    | cons c cs =>
      rw [afterFolded?]
      constructor
      · intro h
        split at h
        · rename_i hp
          obtain ⟨name, rfl, rfl⟩ := ih.1 h
          exact ⟨c :: name, by rw [List.map_cons, hp], rfl⟩
        · cases h
      · rintro ⟨name, hname, heq⟩
        cases name with
        | nil => cases hname
        | cons d name =>
          obtain ⟨rfl, rfl⟩ := List.cons.inj heq
          obtain ⟨hp, hname⟩ := List.cons.inj hname
          rw [if_pos hp.symm]
          exact ih.2 ⟨name, hname, rfl⟩

/-- What stands behind the host. -/
theorem IsHost.afterFolded? {name : List Char} (h : IsHost name) (rest : List Char) :
    afterFolded? host.toList (name ++ rest) = some rest :=
  afterFolded?_eq_some_iff.2 ⟨name, h, rfl⟩

theorem isHexDigit_slash : isHexDigit '/' = false := by decide

theorem idInFront?_eq_some_iff {cs id : List Char} : idInFront? cs = some id ↔
    ∃ rest, cs = id ++ rest ∧ IsId id ∧ ∀ c ∈ rest.head?, isHexDigit c = false := by
  have hfront : idInFront? cs = if cs.takeWhile isHexDigit = [] then none else some (cs.takeWhile isHexDigit) := by
    simp only [idInFront?, List.isEmpty_iff]
  rw [hfront]
  constructor
  · intro h
    split at h
    · cases h
    · rename_i hne
      obtain rfl := Option.some.inj h
      exact ⟨cs.dropWhile isHexDigit, List.takeWhile_append_dropWhile.symm,
        ⟨hne, fun c hc => List.mem_takeWhile_imp hc⟩, head_dropWhile isHexDigit cs⟩
  · rintro ⟨rest, rfl, ⟨hne, hid⟩, hstop⟩
    rw [takeWhile_append_of_stop hid hstop, if_neg hne]

/-- **The form with an owner**, at one place. -/
theorem ownedId?_eq_some_iff {place id : List Char} : ownedId? place = some id ↔ ∃ rest, Owned place id rest := by
  constructor
  · intro h
    unfold ownedId? at h
    split at h
    · rename_i r hafter
      obtain ⟨name, hname, rfl⟩ := afterFolded?_eq_some_iff.1 hafter
      split at h
      · rename_i t hdrop
        split at h
        · cases h
        · rename_i hhead
          obtain ⟨rest, rfl, hid, hstop⟩ := idInFront?_eq_some_iff.1 h
          -- The owner is what stands before the second slash.
          have hsplit : r = r.takeWhile (· ≠ '/') ++ '/' :: (id ++ rest) := by
            rw [← hdrop, List.takeWhile_append_dropWhile]
          have howner : '/' ∉ r.takeWhile (· ≠ '/') := fun hc => by simpa using List.mem_takeWhile_imp hc
          have hne : r.takeWhile (· ≠ '/') ≠ [] := by
            intro hnil
            rw [hnil] at hsplit
            exact hhead (by rw [hsplit]; rfl)
          rw [hsplit]
          exact ⟨rest, .intro hname hne howner hid hstop⟩
      · cases h
    · cases h
  · rintro ⟨rest, h⟩
    cases h with
    | @intro name owner _ _ hname hne howner hid hstop =>
      have hfree : ∀ c ∈ owner, (fun c : Char => decide (c ≠ '/')) c = true := by
        intro c hc
        exact decide_eq_true fun heq : c = '/' => howner (heq ▸ hc)
      have hdrop : (owner ++ '/' :: (id ++ rest)).dropWhile (fun c => decide (c ≠ '/')) = '/' :: (id ++ rest) :=
        dropWhile_append_of_stop hfree (by simp)
      have hhead : (owner ++ '/' :: (id ++ rest)).head? ≠ some '/' := by
        cases owner with
        | nil => exact absurd rfl hne
        | cons c cs => simpa using fun heq : c = '/' => howner (by simp [heq])
      unfold ownedId?
      rw [hname.afterFolded?]
      simp only [hdrop, if_neg hhead]
      exact idInFront?_eq_some_iff.2 ⟨rest, rfl, hid, hstop⟩

/-- **The form without an owner**, at one place. -/
theorem bareId?_eq_some_iff {place id : List Char} : bareId? place = some id ↔ ∃ rest, Bare place id rest := by
  constructor
  · intro h
    unfold bareId? at h
    split at h
    · rename_i r hafter
      obtain ⟨name, hname, rfl⟩ := afterFolded?_eq_some_iff.1 hafter
      -- The same is read whichever of the two ends is there.
      have hends : (∃ rest, r.dropWhile isHexDigit = rest ∧ (rest = [] ∨ rest = ['/'])) ∧ idInFront? r = some id := by
        split at h
        · rename_i hdrop
          exact ⟨⟨_, hdrop, .inl rfl⟩, h⟩
        · rename_i hdrop
          exact ⟨⟨_, hdrop, .inr rfl⟩, h⟩
        · cases h
      obtain ⟨⟨rest, hdrop, hrest⟩, hfront⟩ := hends
      obtain ⟨rest', rfl, hid, hstop⟩ := idInFront?_eq_some_iff.1 hfront
      rw [dropWhile_append_of_stop hid.2 hstop] at hdrop
      subst hdrop
      exact ⟨rest', .intro hname hid hrest⟩
    · cases h
  · rintro ⟨rest, h⟩
    cases h with
    | @intro name _ _ hname hid hrest =>
      have hstop : ∀ c ∈ rest.head?, isHexDigit c = false := by
        rcases hrest with rfl | rfl
        · simp
        · simpa using isHexDigit_slash
      have hfront := idInFront?_eq_some_iff.2 ⟨rest, rfl, hid, hstop⟩
      unfold bareId?
      rw [hname.afterFolded?]
      simp only [dropWhile_append_of_stop hid.2 hstop]
      rcases hrest with rfl | rfl
      · exact hfront
      · exact hfront

/-! ### The first place -/

/-- **The first place of a text** at which something stands, as the rest of the text from there. -/
inductive FirstAt (P : List Char → Prop) : (text place : List Char) → Prop
  | here {cs : List Char} (h : P cs) : FirstAt P cs cs
  | later {c : Char} {cs place : List Char} (hnot : ¬ P (c :: cs)) (h : FirstAt P cs place) : FirstAt P (c :: cs) place

theorem FirstAt.suffix {P : List Char → Prop} {text place : List Char} (h : FirstAt P text place) :
    place <:+ text := by
  induction h with
  | here _ => exact List.suffix_rfl
  | later _ _ ih => exact ih.trans (List.suffix_cons _ _)

/-- What stands nowhere in a front is first where it is first behind it. -/
theorem FirstAt.append {P : List Char → Prop} {front text place : List Char} (h : FirstAt P text place)
    (hfront : ∀ c ∈ front, ∀ cs, ¬ P (c :: cs)) : FirstAt P (front ++ text) place := by
  induction front with
  | nil => exact h
  | cons c front ih =>
    refine .later (hfront c List.mem_cons_self _) (ih fun d hd => ?_)
    exact hfront d (List.mem_cons_of_mem _ hd)

variable {α : Type} {f : List Char → Option α}

/-- **What is found first** is found at the first place at which there is something. -/
theorem firstAt?_eq_some_iff {text : List Char} {a : α} : firstAt? f text = some a ↔
    ∃ place, FirstAt (fun cs => ∃ b, f cs = some b) text place ∧ f place = some a := by
  induction text with
  | nil =>
    rw [firstAt?]
    constructor
    · intro h
      exact ⟨[], .here ⟨a, h⟩, h⟩
    · rintro ⟨place, hfirst, h⟩
      cases hfirst with
      | here _ => exact h
  | cons c cs ih =>
    rw [firstAt?]
    cases hc : f (c :: cs) with
    | some b =>
      rw [Option.some_or]
      constructor
      · intro h
        exact ⟨c :: cs, .here ⟨b, hc⟩, hc.trans h⟩
      · rintro ⟨place, hfirst, h⟩
        cases hfirst with
        | here _ => exact hc.symm.trans h
        | later hnot _ => exact absurd ⟨b, hc⟩ hnot
    | none =>
      have hnot : ¬ ∃ b, f (c :: cs) = some b := by simp [hc]
      rw [Option.none_or, ih]
      constructor
      · rintro ⟨place, hfirst, h⟩
        exact ⟨place, .later hnot hfirst, h⟩
      · rintro ⟨place, hfirst, h⟩
        cases hfirst with
        | here hhere => exact absurd hhere hnot
        | later _ hfirst => exact ⟨place, hfirst, h⟩

theorem firstAt?_eq_none_iff {text : List Char} :
    firstAt? f text = none ↔ ∀ place, place <:+ text → f place = none := by
  induction text with
  | nil => simp [firstAt?]
  | cons c cs ih => simp [firstAt?, Option.or_eq_none_iff, ih, List.suffix_cons_iff]

/-! ### The gist of an address -/

def IsOwned (place : List Char) : Prop := ∃ id rest, Owned place id rest

def IsBare (place : List Char) : Prop := ∃ id rest, Bare place id rest

/-- **The gist that an address names**, with what the address goes on with behind its id: the first one with an owner,
and where there is none, the first one without. -/
inductive Names (url : List Char) : (id rest : List Char) → Prop
  | owned {place id rest : List Char} (hfirst : FirstAt IsOwned url place) (h : Owned place id rest) : Names url id rest
  | bare {place id rest : List Char} (hnone : ∀ cs, cs <:+ url → ¬ IsOwned cs) (hfirst : FirstAt IsBare url place)
      (h : Bare place id rest) : Names url id rest

/-- **The id that is found is that of the gist that the address names.** -/
theorem id?_eq_some_iff {url id : List Char} : id? url = some id ↔ ∃ rest, Names url id rest := by
  have howned : (fun cs => ∃ b, ownedId? cs = some b) = IsOwned := by
    funext cs
    simp only [ownedId?_eq_some_iff]
    rfl
  have hbare : (fun cs => ∃ b, bareId? cs = some b) = IsBare := by
    funext cs
    simp only [bareId?_eq_some_iff]
    rfl
  have hnone : firstAt? ownedId? url = none ↔ ∀ cs, cs <:+ url → ¬ IsOwned cs := by
    rw [firstAt?_eq_none_iff]
    simp only [← howned, Option.eq_none_iff_forall_ne_some, not_exists, ne_eq]
  rw [id?, Option.or_eq_some_iff, hnone, firstAt?_eq_some_iff, firstAt?_eq_some_iff, howned, hbare]
  simp only [ownedId?_eq_some_iff, bareId?_eq_some_iff]
  constructor
  · rintro (⟨place, hfirst, rest, h⟩ | ⟨hnone, place, hfirst, rest, h⟩)
    · exact ⟨rest, .owned hfirst h⟩
    · exact ⟨rest, .bare hnone hfirst h⟩
  · rintro ⟨rest, h⟩
    cases h with
    | owned hfirst h => exact .inl ⟨_, hfirst, rest, h⟩
    | bare hnone hfirst h => exact .inr ⟨hnone, _, hfirst, rest, h⟩

/-- An id stands behind a slash. -/
theorem Names.split {url id rest : List Char} (h : Names url id rest) :
    IsId id ∧ ∃ before, url = before ++ '/' :: (id ++ rest) := by
  have hbehind : ∀ front, front ++ '/' :: (id ++ rest) <:+ url → ∃ before, url = before ++ '/' :: (id ++ rest) := by
    rintro front ⟨start, rfl⟩
    exact ⟨start ++ front, by rw [List.append_assoc]⟩
  cases h with
  | owned hfirst h =>
    cases h with
    | @intro name owner _ _ _ _ _ hid _ =>
      have hsuffix := hfirst.suffix
      rw [← List.cons_append, ← List.append_assoc] at hsuffix
      exact ⟨hid, hbehind _ hsuffix⟩
  | bare _ hfirst h =>
    cases h with
    | intro _ hid _ => exact ⟨hid, hbehind _ hfirst.suffix⟩

/-! ### Page addresses -/

/-- What the addresses of gist pages begin with. -/
def site : List Char := "https://gist.github.com/".toList

theorem not_isOwned_cons {c : Char} (hc : fold c ≠ 'g') (cs : List Char) : ¬ IsOwned (c :: cs) := by
  rintro ⟨id, rest, h⟩
  have hid := ownedId?_eq_some_iff.2 ⟨rest, h⟩
  have hafter : afterFolded? host.toList (c :: cs) = none := if_neg (Ne.symm hc)
  rw [ownedId?, hafter] at hid
  cases hid

/-- **The address of a page with an owner** names its gist, whatever stands behind the id. -/
theorem names_page {owner id rest : List Char} (hne : owner ≠ []) (howner : '/' ∉ owner) (hid : IsId id)
    (hstop : ∀ c ∈ rest.head?, isHexDigit c = false) : Names (site ++ (owner ++ '/' :: (id ++ rest))) id rest := by
  have hplace := Owned.intro isHost_host hne howner hid hstop
  have hscheme : "https://".toList.all (fun c => fold c != 'g') = true := by decide
  have hfirst := (FirstAt.here (P := IsOwned) ⟨id, rest, hplace⟩).append fun c hc =>
    not_isOwned_cons (by simpa using List.all_eq_true.1 hscheme c hc)
  exact .owned hfirst hplace

/-- No hexadecimal digit is the letter that the host begins with. -/
theorem fold_ne_of_isHexDigit {c : Char} (h : isHexDigit c = true) : fold c ≠ 'g' := by
  intro hfold
  unfold fold at hfold
  split at hfold
  · cases hfold
  · have hlower := toNat_toLower c
    have hg : 'g'.toNat = 103 := rfl
    rw [hfold, hg] at hlower
    have hcode : c.toNat = 'g'.toNat ∨ c.toNat = 'G'.toNat := by
      show c.toNat = 103 ∨ c.toNat = 71
      split at hlower <;> omega
    have hletters : isHexDigit 'g' = false ∧ isHexDigit 'G' = false := by decide
    rcases hcode with hcode | hcode
    · rw [Char.toNat_inj.1 hcode, hletters.1] at h
      cases h
    · rw [Char.toNat_inj.1 hcode, hletters.2] at h
      cases h

/-- **The address of a page without an owner**: its id is not taken for an owner, since no other id follows. -/
theorem id?_barePage {id rest : List Char} (hid : IsId id) (hrest : rest = [] ∨ rest = ['/']) :
    id? (site ++ (id ++ rest)) = some id := by
  have hfree : ∀ c ∈ id, (fun c : Char => decide (c ≠ '/')) c = true := by
    intro c hc
    refine decide_eq_true fun heq : c = '/' => ?_
    have hhex := hid.2 c hc
    rw [heq, isHexDigit_slash] at hhex
    cases hhex
  have hdrop : (id ++ rest).dropWhile (fun c => decide (c ≠ '/')) = rest := by
    refine dropWhile_append_of_stop hfree ?_
    rcases hrest with rfl | rfl
    · simp
    · simp
  have hnot : ownedId? (host.toList ++ '/' :: (id ++ rest)) = none := by
    rw [ownedId?, isHost_host.afterFolded?]
    simp only [hdrop]
    rcases hrest with rfl | rfl
    · rfl
    · simp [idInFront?]
  -- The host cannot begin in the id either.
  have hfold : ∀ c ∈ id ++ rest, fold c ≠ 'g' := by
    intro c hc
    rcases List.mem_append.1 hc with hc | hc
    · exact fold_ne_of_isHexDigit (hid.2 c hc)
    · rcases hrest with rfl | rfl
      · cases hc
      · rw [List.mem_singleton.1 hc]
        decide
  have hbehind : firstAt? ownedId? (id ++ rest) = none := by
    rw [firstAt?_eq_none_iff]
    intro place hsuffix
    cases place with
    | nil => rfl
    | cons c cs =>
      have hc := hfold c (hsuffix.subset List.mem_cons_self)
      exact Option.eq_none_iff_forall_ne_some.2 fun id' h => not_isOwned_cons hc cs ⟨id', ownedId?_eq_some_iff.1 h⟩
  have howned : firstAt? ownedId? (site ++ (id ++ rest)) =
      (ownedId? (host.toList ++ '/' :: (id ++ rest))).or (firstAt? ownedId? (id ++ rest)) := rfl
  have hbare : firstAt? bareId? (site ++ (id ++ rest)) =
      (bareId? (host.toList ++ '/' :: (id ++ rest))).or (firstAt? bareId? (id ++ rest)) := rfl
  rw [id?, howned, hnot, hbehind, hbare, bareId?_eq_some_iff.2 ⟨rest, .intro isHost_host hid hrest⟩]
  rfl

end PageSweep.Gist
