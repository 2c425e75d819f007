import PageSweep.Proofs.Remote.GistPlaces

/-!
# Addresses of gists

An address that holds the host of gists and does not mention `raw` is replaced by the raw address of the gist that it
names. Since that one mentions `raw`, nothing is replaced twice. The addresses of pages become those of their gists.

Behind an owner the id need not be a whole segment of the path: of a segment that begins with hexadecimal digits and
goes on with other characters, those digits are taken for the id.

* `rewritten_iff`, `Names.rawAddress_eq`: which addresses are replaced, and by what.
* `gist_pages_rewritten`: the addresses of gist pages.
* `rewritten_by_front_of_segment`: which segment an id is taken from, and when it is the whole one.
* `front_taken_for_id`: an address that names no gist and is replaced.
-/

namespace PageSweep.Gist

open Text

/-! ### What is fetched instead -/

/-- The address of the raw text of a gist. -/
def rawPage (id : String) : String := "https://gist.githubusercontent.com/raw/" ++ id ++ "/"

theorem toList_rawPage (id : String) :
    (rawPage id).toList = "https://gist.githubusercontent.com/raw/".toList ++ (id.toList ++ "/".toList) := by
  unfold rawPage
  rw [String.toList_append, String.toList_append, List.append_assoc]

theorem raw_infix_rawPage (id : String) : "raw".toList <:+: (rawPage id).toList := by
  have hsite : "https://gist.githubusercontent.com/raw/".toList =
      "https://gist.githubusercontent.com/".toList ++ "raw".toList ++ ['/'] := by decide
  have hraw : "raw".toList <:+: "https://gist.githubusercontent.com/raw/".toList := ⟨_, _, hsite.symm⟩
  rw [toList_rawPage]
  exact hraw.trans (List.prefix_append _ _).isInfix

theorem rawPage_inj {id id' : String} (h : rawPage id = rawPage id') : id = id' := by
  have hlist := congrArg String.toList h
  rw [toList_rawPage, toList_rawPage] at hlist
  exact String.toList_inj.1 (List.append_cancel_right (List.append_cancel_left hlist))

/-- An address in which a gist is looked for. -/
def IsGistAddress (url : String) : Prop := host.toList <:+: url.toList ∧ ¬ "raw".toList <:+: url.toList

theorem isGistAddress_iff {url : String} : IsGistAddress url ↔ (!holds host url || holds "raw" url) = false := by
  unfold IsGistAddress
  rw [← holds_iff, ← holds_iff, Bool.not_eq_true, Bool.or_eq_false_iff, Bool.not_eq_false']

theorem rawAddress_of_other {url : String} (h : ¬ IsGistAddress url) : rawAddress url = (url, []) := by
  rw [isGistAddress_iff, Bool.not_eq_false] at h
  rw [rawAddress, if_pos h]

theorem rawAddress_of_gist {url : String} (h : IsGistAddress url) : rawAddress url =
    match id? url.toList with
    | some id => (rawPage (String.ofList id), [])
    | none => (url, [.gistWithoutId url]) := by
  rw [isGistAddress_iff] at h
  rw [rawAddress, h, if_neg Bool.false_ne_true]
  cases id? url.toList with
  | none => rfl
  | some id => rfl

theorem rawPage_ne {url : String} (h : IsGistAddress url) (id : String) : rawPage id ≠ url := by
  intro heq
  rw [← heq] at h
  exact h.2 (raw_infix_rawPage id)

/-- **What an address is replaced by**, if a gist is named in it. -/
theorem Names.rawAddress_eq {url : String} {id rest : List Char} (h : Names url.toList id rest)
    (hgist : IsGistAddress url) : rawAddress url = (rawPage (String.ofList id), []) := by
  rw [rawAddress_of_gist hgist, id?_eq_some_iff.2 ⟨rest, h⟩]

/-- **Which addresses are replaced.** -/
theorem rewritten_iff {url : String} : (rawAddress url).1 ≠ url ↔
    IsGistAddress url ∧ ∃ id rest, Names url.toList id rest := by
  constructor
  · intro h
    by_cases hgist : IsGistAddress url
    · refine ⟨hgist, ?_⟩
      rw [rawAddress_of_gist hgist] at h
      cases hid : id? url.toList with
      | none =>
        rw [hid] at h
        exact absurd rfl h
      | some id => exact ⟨id, id?_eq_some_iff.1 hid⟩
    · rw [rawAddress_of_other hgist] at h
      exact absurd rfl h
  · rintro ⟨hgist, id, rest, hnames⟩
    rw [hnames.rawAddress_eq hgist]
    exact rawPage_ne hgist _

/-! ### Pages -/

theorem isGistAddress_page {url : String} {cs : List Char} (h : url.toList = site ++ cs)
    (hraw : ¬ "raw".toList <:+: url.toList) : IsGistAddress url := by
  have hsplit : site = "https://".toList ++ host.toList ++ ['/'] := by
    unfold site
    decide
  have hhost : host.toList <:+: site := ⟨_, _, hsplit.symm⟩
  refine ⟨?_, hraw⟩
  rw [h]
  exact hhost.trans (List.prefix_append site cs).isInfix

theorem toList_ownedPage (owner id rest : String) : ("https://gist.github.com/" ++ owner ++ "/" ++ id ++ rest).toList =
    site ++ (owner.toList ++ '/' :: (id.toList ++ rest.toList)) := by
  have hslash : "/".toList = ['/'] := rfl
  unfold site
  rw [String.toList_append, String.toList_append, String.toList_append, String.toList_append, hslash]
  simp only [List.append_assoc, List.cons_append, List.nil_append]

theorem toList_barePage (id rest : String) : ("https://gist.github.com/" ++ id ++ rest).toList =
    site ++ (id.toList ++ rest.toList) := by
  unfold site
  rw [String.toList_append, String.toList_append, List.append_assoc]

/-- What an address becomes is not replaced again. -/
theorem rawAddress_idem (url : String) : (rawAddress (rawAddress url).1).1 = (rawAddress url).1 := by
  by_cases h : (rawAddress url).1 = url
  · rw [h, h]
  · obtain ⟨hgist, id, rest, hnames⟩ := rewritten_iff.1 h
    have hother : ¬ IsGistAddress (rawPage (String.ofList id)) := fun hraw => hraw.2 (raw_infix_rawPage _)
    rw [hnames.rawAddress_eq hgist, rawAddress_of_other hother]

/-- The id in an address that is replaced. -/
theorem exists_id_of_rewritten {url : String} (h : (rawAddress url).1 ≠ url) : ∃ before id rest : String,
    url = before ++ "/" ++ id ++ rest ∧ IsId id.toList ∧ (rawAddress url).1 = rawPage id := by
  obtain ⟨hgist, id, rest, hnames⟩ := rewritten_iff.1 h
  obtain ⟨hid, before, hsplit⟩ := hnames.split
  refine ⟨String.ofList before, String.ofList id, String.ofList rest, ?_, ?_, ?_⟩
  · have hslash : "/".toList = ['/'] := rfl
    rw [← String.toList_inj, String.toList_append, String.toList_append, String.toList_append, hslash, hsplit]
    simp only [String.toList_ofList, List.append_assoc, List.cons_append, List.nil_append]
  · rwa [String.toList_ofList]
  · rw [hnames.rawAddress_eq hgist]

/-- An address in which a gist is named by a text. -/
theorem rewritten_of_names {url id : String} {rest : List Char} (hgist : IsGistAddress url)
    (h : Names url.toList id.toList rest) : rawAddress url = (rawPage id, []) ∧ (rawAddress url).1 ≠ url := by
  have heq := h.rawAddress_eq hgist
  rw [String.ofList_toList] at heq
  exact ⟨heq, rewritten_iff.2 ⟨hgist, _, _, h⟩⟩

theorem ownedPage_rewritten {owner id rest : String} (hne : owner ≠ "") (howner : '/' ∉ owner.toList)
    (hid : IsId id.toList) (hrest : rest = "" ∨ ∃ more, rest = "/" ++ more) :
    let url := "https://gist.github.com/" ++ owner ++ "/" ++ id ++ rest
    ¬ "raw".toList <:+: url.toList → rawAddress url = (rawPage id, []) ∧ (rawAddress url).1 ≠ url := by
  intro url hraw
  have hlist : url.toList = site ++ (owner.toList ++ '/' :: (id.toList ++ rest.toList)) := toList_ownedPage owner id rest
  have hne' : owner.toList ≠ [] := fun hnil => hne (String.toList_eq_nil_iff.1 hnil)
  have hstop : ∀ c ∈ rest.toList.head?, isHexDigit c = false := by
    rcases hrest with rfl | ⟨more, rfl⟩
    · exact fun c hc => by cases hc
    · rw [String.toList_append]
      exact fun c hc => Option.mem_some_iff.1 hc ▸ isHexDigit_slash
  have hnames : Names url.toList id.toList rest.toList := by
    rw [hlist]
    exact names_page hne' howner hid hstop
  exact rewritten_of_names (isGistAddress_page hlist hraw) hnames

theorem barePage_rewritten {id rest : String} (hid : IsId id.toList) (hrest : rest = "" ∨ rest = "/") :
    let url := "https://gist.github.com/" ++ id ++ rest
    ¬ "raw".toList <:+: url.toList → rawAddress url = (rawPage id, []) ∧ (rawAddress url).1 ≠ url := by
  intro url hraw
  have hlist : url.toList = site ++ (id.toList ++ rest.toList) := toList_barePage id rest
  have hends : rest.toList = [] ∨ rest.toList = ['/'] := by
    rcases hrest with rfl | rfl
    · exact .inl rfl
    · exact .inr rfl
  have hfound : id? url.toList = some id.toList := by
    rw [hlist]
    exact id?_barePage hid hends
  obtain ⟨rest', hnames⟩ := id?_eq_some_iff.1 hfound
  exact rewritten_of_names (isGistAddress_page hlist hraw) hnames

/-- **The pages of gists are fetched raw.** Replacing an address twice is replacing it once. An address that is changed
holds the host of gists and does not mention `raw`, and it becomes the raw address of an id that stands in it behind a
slash. The address of a page, with an owner and perhaps a slash and anything behind the id, or without an owner and
with a slash behind the id at most, becomes the raw address of that very id, if `raw` is not mentioned in it; there is
nothing to report then. -/
theorem gist_pages_rewritten :
    (∀ url, (rawAddress (rawAddress url).1).1 = (rawAddress url).1) ∧
    (∀ url, (rawAddress url).1 ≠ url →
      host.toList <:+: url.toList ∧ ¬ "raw".toList <:+: url.toList ∧
        ∃ before id rest : String, url = before ++ "/" ++ id ++ rest ∧ IsId id.toList ∧
          (rawAddress url).1 = "https://gist.githubusercontent.com/raw/" ++ id ++ "/") ∧
    (∀ owner id rest : String, owner ≠ "" → '/' ∉ owner.toList → IsId id.toList →
      (rest = "" ∨ ∃ more, rest = "/" ++ more) →
        let url := "https://gist.github.com/" ++ owner ++ "/" ++ id ++ rest
        ¬ "raw".toList <:+: url.toList →
          rawAddress url = ("https://gist.githubusercontent.com/raw/" ++ id ++ "/", []) ∧ (rawAddress url).1 ≠ url) ∧
    ∀ id rest : String, IsId id.toList → (rest = "" ∨ rest = "/") →
      let url := "https://gist.github.com/" ++ id ++ rest
      ¬ "raw".toList <:+: url.toList →
        rawAddress url = ("https://gist.githubusercontent.com/raw/" ++ id ++ "/", []) ∧ (rawAddress url).1 ≠ url := by
  refine ⟨rawAddress_idem, fun url h => ?_, ?_, ?_⟩
  · obtain ⟨hgist, -⟩ := rewritten_iff.1 h
    exact ⟨hgist.1, hgist.2, exists_id_of_rewritten h⟩
  · intro owner id rest hne howner hid hrest
    exact ownedPage_rewritten hne howner hid hrest
  · intro id rest hid hrest
    exact barePage_rewritten hid hrest

/-- The page of an owner whose name is an id as well, with a file of the gist behind a slash, and a page without an
owner. -/
theorem gist_pages_rewritten_deadBeef :
    let url := "https://gist.github.com/dead/BEEF0/rules#file"
    "dead" ≠ "" ∧ '/' ∉ "dead".toList ∧ IsId "BEEF0".toList ∧ ¬ "raw".toList <:+: url.toList ∧
      rawAddress url = ("https://gist.githubusercontent.com/raw/BEEF0/", []) ∧ (rawAddress url).1 ≠ url ∧
      (∃ before id rest : String, url = before ++ "/" ++ id ++ rest ∧ IsId id.toList ∧
        (rawAddress url).1 = "https://gist.githubusercontent.com/raw/" ++ id ++ "/") ∧
      IsId "c3a4".toList ∧ ¬ "raw".toList <:+: "https://gist.github.com/c3a4/".toList ∧
      rawAddress "https://gist.github.com/c3a4/" = ("https://gist.githubusercontent.com/raw/c3a4/", []) := by
  intro url
  have hid : IsId "BEEF0".toList := by decide
  have hid' : IsId "c3a4".toList := by decide
  have hraw : ¬ "raw".toList <:+: url.toList := by
    rw [← holds_iff]
    decide
  have hraw' : ¬ "raw".toList <:+: "https://gist.github.com/c3a4/".toList := by
    rw [← holds_iff]
    decide
  obtain ⟨-, hchanged, howned, hbare⟩ := gist_pages_rewritten
  obtain ⟨hpage, hne⟩ := howned "dead" "BEEF0" "/rules#file" (by decide) (by decide) hid (.inr ⟨"rules#file", rfl⟩) hraw
  have hpage' := (hbare "c3a4" "/" hid' (.inr rfl) hraw').1
  exact ⟨by decide, by decide, hid, hraw, hpage, hne, (hchanged url hne).2.2, hid', hraw', hpage'⟩

/-! ### Segments -/

/-- Whether a character ends a segment of the path of an address. -/
def endsSegment (c : Char) : Bool := c == '/' || c == '?' || c == '#'

/-- Whether a segment is over where the rest of an address begins. -/
def IsOver (rest : List Char) : Prop := ∀ c ∈ rest.head?, endsSegment c = true

instance (rest : List Char) : Decidable (IsOver rest) :=
  decidable_of_iff (rest.head?.all endsSegment = true) (Option.all_eq_true ..)

/-- **A whole segment**: behind a slash, up to a slash, a question mark, a number sign or the end. -/
def IsSegment (segment url : List Char) : Prop :=
  ∃ before rest, url = before ++ '/' :: (segment ++ rest) ∧ IsOver rest

theorem isSegment_cons_iff {segment cs : List Char} {c : Char} : IsSegment segment (c :: cs) ↔
    (c = '/' ∧ ∃ rest ∈ after? segment cs, IsOver rest) ∨ IsSegment segment cs := by
  constructor
  · rintro ⟨before, rest, hsplit, hover⟩
    cases before with
    | nil =>
      obtain ⟨rfl, hcs⟩ := List.cons.inj hsplit
      exact .inl ⟨rfl, rest, after?_eq_some_iff.2 hcs, hover⟩
    | cons d before => exact .inr ⟨before, rest, (List.cons.inj hsplit).2, hover⟩
  · rintro (⟨rfl, rest, hrest, hover⟩ | ⟨before, rest, rfl, hover⟩)
    · exact ⟨[], rest, by rw [after?_eq_some_iff.1 hrest]; rfl, hover⟩
    · exact ⟨c :: before, rest, rfl, hover⟩

theorem not_isSegment_nil (segment : List Char) : ¬ IsSegment segment [] := by
  rintro ⟨before, rest, hsplit, -⟩
  cases before <;> cases hsplit

instance decidableIsSegment (segment : List Char) : (url : List Char) → Decidable (IsSegment segment url)
  | [] => isFalse (not_isSegment_nil segment)
  | _ :: cs =>
    have := decidableIsSegment segment cs
    decidable_of_iff' _ isSegment_cons_iff

/-- **A segment goes on** behind hexadecimal digits with characters of other kinds. -/
structure GoesOn (id more : List Char) : Prop where
  id : IsId id
  ne_nil : more ≠ []
  stops : ∀ c ∈ more.head?, isHexDigit c = false
  inside : ∀ c ∈ more, endsSegment c = false

/-- **An id is a whole segment or the front of one**, and a front only behind an owner. -/
theorem Names.segment {url id rest : List Char} (h : Names url id rest) :
    IsOver rest ∧ IsSegment id url ∨
      ¬ IsOver rest ∧ (∃ place, FirstAt IsOwned url place ∧ Owned place id rest) ∧
        ∃ more, GoesOn id more ∧ IsSegment (id ++ more) url := by
  obtain ⟨hid, before, hsplit⟩ := h.split
  by_cases hover : IsOver rest
  · exact .inl ⟨hover, before, rest, hsplit, hover⟩
  · refine .inr ⟨hover, ?_⟩
    cases h with
    | bare _ _ h =>
      -- At the end of an address the segment is over.
      cases h with
      | intro _ _ hrest =>
        refine absurd ?_ hover
        rcases hrest with rfl | rfl
        · decide
        · decide
    | @owned place _ _ hfirst h =>
      refine ⟨⟨place, hfirst, h⟩, ?_⟩
      cases h with
      | intro _ _ _ _ hstop =>
        -- The segment goes on up to the first character that ends it.
        have hrest : rest.takeWhile (!endsSegment ·) ++ rest.dropWhile (!endsSegment ·) = rest :=
          List.takeWhile_append_dropWhile
        generalize hmore : rest.takeWhile (!endsSegment ·) = more at hrest
        have hover' : IsOver (rest.dropWhile (!endsSegment ·)) := fun c hc => by simpa using head_dropWhile _ rest c hc
        generalize rest.dropWhile (!endsSegment ·) = rest' at hrest hover'
        have hne : more ≠ [] := by
          rintro rfl
          exact hover (hrest ▸ hover')
        have hstops : ∀ c ∈ more.head?, isHexDigit c = false := by
          intro c hc
          refine hstop c ?_
          rw [← hrest, List.head?_append, hc]
          rfl
        have hinside : ∀ c ∈ more, endsSegment c = false := by
          intro c hc
          rw [← hmore] at hc
          simpa using List.mem_takeWhile_imp hc
        refine ⟨more, ⟨hid, hne, hstops, hinside⟩, before, rest', ?_, hover'⟩
        rw [hsplit, ← hrest, List.append_assoc]

/-- **An address is replaced by the front of a segment.** An address is replaced by the raw address of an id just if it
holds the host of gists, does not mention `raw`, and the id is that of the gist that it names. That id is a whole
segment of the path if nothing else stands behind it in its segment. If something does, then the gist was named with an
owner, the first one in the address, and the segment begins with the id and goes on with characters of other kinds. -/
theorem rewritten_by_front_of_segment (url : String) (id : List Char) :
    ((rawAddress url).1 ≠ url ∧ (rawAddress url).1 = rawPage (String.ofList id) ↔
      IsGistAddress url ∧ ∃ rest, Names url.toList id rest) ∧
    ∀ rest, Names url.toList id rest →
      (IsOver rest → IsSegment id url.toList) ∧
      (¬ IsOver rest → (∃ place, FirstAt IsOwned url.toList place ∧ Owned place id rest) ∧
        ∃ more, GoesOn id more ∧ IsSegment (id ++ more) url.toList) := by
  refine ⟨⟨?_, ?_⟩, fun rest hnames => ⟨fun hover => ?_, fun hover => ?_⟩⟩
  · rintro ⟨hne, heq⟩
    obtain ⟨hgist, id', rest, hnames⟩ := rewritten_iff.1 hne
    rw [hnames.rawAddress_eq hgist] at heq
    have hid : id' = id := String.ofList_injective (rawPage_inj heq)
    exact ⟨hgist, rest, hid ▸ hnames⟩
  · rintro ⟨hgist, rest, hnames⟩
    exact ⟨rewritten_iff.2 ⟨hgist, id, rest, hnames⟩, by rw [hnames.rawAddress_eq hgist]⟩
  · rcases hnames.segment with ⟨-, hsegment⟩ | ⟨hnot, -⟩
    · exact hsegment
    · exact absurd hover hnot
  · rcases hnames.segment with ⟨hover', -⟩ | ⟨-, hgoes⟩
    · exact absurd hover' hover
    · exact hgoes

/-- An id in front of a number sign is a whole segment. -/
theorem rewritten_by_front_of_segment_notes :
    let url := "https://gist.github.com/alice/BEEF0#notes"
    IsGistAddress url ∧ Names url.toList "BEEF0".toList "#notes".toList ∧ IsOver "#notes".toList ∧
      (rawAddress url).1 = rawPage "BEEF0" ∧ IsSegment "BEEF0".toList url.toList := by
  intro url
  have hgist : IsGistAddress url := isGistAddress_iff.2 (by decide)
  have hid : IsId "BEEF0".toList := by decide
  have hstop : ∀ c ∈ "#notes".toList.head?, isHexDigit c = false := by
    rintro c ⟨⟩
    rfl
  have hne : "alice".toList ≠ [] := by decide
  have hsplit : url.toList = site ++ ("alice".toList ++ '/' :: ("BEEF0".toList ++ "#notes".toList)) := by decide
  have hnames : Names url.toList "BEEF0".toList "#notes".toList := by
    rw [hsplit]
    exact names_page hne (by decide) hid hstop
  have hover : IsOver "#notes".toList := by decide
  obtain ⟨hiff, hsegment⟩ := rewritten_by_front_of_segment url "BEEF0".toList
  exact ⟨hgist, hnames, hover, (hiff.2 ⟨hgist, _, hnames⟩).2, (hsegment _ hnames).1 hover⟩

/-- **The front of a segment is taken for an id.** None of the segments of the address is an id, but the last one begins
with hexadecimal digits. -/
theorem front_taken_for_id :
    let url := "https://gist.github.com/alice/feed-list"
    rawAddress url = ("https://gist.githubusercontent.com/raw/feed/", []) ∧ ¬ IsSegment "feed".toList url.toList := by
  decide

end PageSweep.Gist
