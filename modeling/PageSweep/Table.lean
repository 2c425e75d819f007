/-!
# Tables

Values under text keys, in the order of the keys: attributes, stylesheets, injected styles, cached schemas.
A key stands once. The operations work on plain lists of entries, since JSON objects are such lists too; a
`Table` is a list together with the proof that its keys increase.

* `get?_insert`, `get?_erase`, `get?_map`: what an entry operation does to look-up.
* `Increasing.insert`, `Increasing.erase`: the operations keep the order of the keys.
* `Table.ext_get?`: a table is determined by look-up.
-/

namespace PageSweep

variable {β γ : Type}

namespace Entries

/-- Puts a value under a key, at the key's place; a value already there is replaced. -/
def insert (k : String) (v : β) : List (String × β) → List (String × β)
  | [] => [(k, v)]
  | e :: es =>
    if k < e.1 then (k, v) :: e :: es
    else if k = e.1 then (k, v) :: es
    else e :: insert k v es

/-- The value under a key. -/
def get? (k : String) : List (String × β) → Option β
  | [] => none
  | e :: es => if e.1 = k then some e.2 else get? k es

/-- The entries without those under a key. -/
def erase (k : String) (es : List (String × β)) : List (String × β) := es.filter (·.1 ≠ k)

/-- Entries put in one after the other. -/
def ofList (es : List (String × β)) : List (String × β) := es.foldl (fun t e => insert e.1 e.2 t) []

/-- The keys strictly increase. -/
def Increasing (es : List (String × β)) : Prop := es.Pairwise fun a b => a.1 < b.1

theorem mem_insert {k : String} {v : β} {a : String × β} {es : List (String × β)}
    (h : a ∈ insert k v es) : a = (k, v) ∨ a ∈ es := by
  induction es with
  | nil => simpa [insert] using h
  | cons e es ih =>
    rw [insert] at h
    split at h
    · simpa using h
    · split at h
      · rcases List.mem_cons.1 h with h | h
        · exact .inl h
        · exact .inr (List.mem_cons_of_mem _ h)
      · rcases List.mem_cons.1 h with h | h
        · exact .inr (h ▸ List.mem_cons_self)
        · exact (ih h).imp id (List.mem_cons_of_mem _)

theorem Increasing.insert {es : List (String × β)} (h : Increasing es) (k : String) (v : β) :
    Increasing (insert k v es) := by
  induction es with
  | nil => simp [Entries.insert, Increasing]
  | cons e es ih =>
    obtain ⟨hhead, htail⟩ := List.pairwise_cons.1 h
    rw [Entries.insert]
    split
    · rename_i hk
      refine List.pairwise_cons.2 ⟨fun a ha => ?_, h⟩
      rcases List.mem_cons.1 ha with ha | ha
      · exact ha ▸ hk
      · exact String.lt_trans hk (hhead a ha)
    · rename_i hk
      split
      · rename_i he
        exact List.pairwise_cons.2 ⟨fun a ha => he ▸ hhead a ha, htail⟩
      · rename_i he
        refine List.pairwise_cons.2 ⟨fun a ha => ?_, ih htail⟩
        rcases mem_insert ha with ha | ha
        · subst ha
          have hle : e.1 ≤ k := String.not_lt.1 hk
          by_cases hlt : e.1 < k
          · exact hlt
          · exact absurd (String.le_antisymm (String.not_lt.1 hlt) hle) he
        · exact hhead a ha

theorem Increasing.erase {es : List (String × β)} (h : Increasing es) (k : String) :
    Increasing (erase k es) := List.Pairwise.filter _ h

theorem Increasing.map {es : List (String × β)} (h : Increasing es) (f : β → γ) :
    Increasing (es.map fun e => (e.1, f e.2)) := List.pairwise_map.2 h

theorem Increasing.ofList (es : List (String × β)) : Increasing (ofList es) := by
  unfold Entries.ofList
  suffices ∀ t : List (String × β), Increasing t →
      Increasing (es.foldl (fun t e => Entries.insert e.1 e.2 t) t) from this [] .nil
  induction es with
  | nil => exact fun t h => h
  | cons e es ih => exact fun t h => ih _ (h.insert _ _)

theorem get?_insert (k j : String) (v : β) (es : List (String × β)) :
    get? j (insert k v es) = if k = j then some v else get? j es := by
  induction es with
  | nil => simp [insert, get?]
  | cons e es ih =>
    rw [insert]
    split
    · rw [get?]
    · split
      · rename_i he
        rw [get?, get?, ← he]
        split <;> rfl
      · rename_i he
        rw [get?, get?, ih]
        by_cases h : e.1 = j
        · have : k ≠ j := fun hk => he (hk.trans h.symm)
          simp [h, this]
        · simp [h]

/-- Every entry that is put in can be looked up under its key, though a later one may have taken its place. -/
theorem isSome_get?_ofList {k : String} {es : List (String × β)} :
    (get? k (ofList es)).isSome = true ↔ k ∈ es.map Prod.fst := by
  suffices h : ∀ t : List (String × β), (get? k (es.foldl (fun t e => insert e.1 e.2 t) t)).isSome = true ↔
      k ∈ es.map Prod.fst ∨ (get? k t).isSome = true by
    simpa [ofList, get?] using h []
  induction es with
  | nil => simp
  | cons e es ih =>
    intro t
    rw [List.foldl_cons, ih, get?_insert, List.map_cons, List.mem_cons]
    by_cases he : e.1 = k
    · simp [he]
    · simp [he, Ne.symm he]

theorem get?_erase (k j : String) (es : List (String × β)) :
    get? j (erase k es) = if k = j then none else get? j es := by
  induction es with
  | nil => simp [erase, get?]
  | cons e es ih =>
    rw [erase] at *
    by_cases he : e.1 = k
    · rw [List.filter_cons_of_neg (by simpa using he), ih, get?]
      by_cases h : k = j
      · simp [h]
      · simp [h, he]
    · rw [List.filter_cons_of_pos (by simpa using he), get?, ih, get?]
      by_cases h : e.1 = j
      · have : k ≠ j := fun hk => he (h.trans hk.symm)
        simp [h, this]
      · simp [h]

theorem get?_map (f : β → γ) (k : String) (es : List (String × β)) :
    get? k (es.map fun e => (e.1, f e.2)) = (get? k es).map f := by
  induction es with
  | nil => rfl
  | cons e es ih =>
    rw [List.map_cons, get?, get?, ih]
    split
    · rfl
    · rfl

theorem mem_of_get? {k : String} {v : β} {es : List (String × β)} (h : get? k es = some v) :
    (k, v) ∈ es := by
  induction es with
  | nil => simp [get?] at h
  | cons e es ih =>
    rw [get?] at h
    split at h
    · rename_i he
      have hv : e.2 = v := by simpa using h
      exact List.mem_cons.2 (.inl (by rw [← he, ← hv]))
    · exact List.mem_cons_of_mem _ (ih h)

theorem get?_eq_some_iff {k : String} {v : β} {es : List (String × β)} (h : Increasing es) :
    get? k es = some v ↔ (k, v) ∈ es := by
  refine ⟨mem_of_get?, fun hm => ?_⟩
  induction es with
  | nil => simp at hm
  | cons e es ih =>
    obtain ⟨hhead, htail⟩ := List.pairwise_cons.1 h
    rw [get?]
    rcases List.mem_cons.1 hm with hm | hm
    · subst hm; simp
    · have : e.1 ≠ k := fun he => String.lt_irrefl _ (he ▸ hhead _ hm)
      rw [if_neg this, ih htail hm]

/-- Two increasing lists with the same members are equal. -/
theorem Increasing.ext {es fs : List (String × β)} (he : Increasing es) (hf : Increasing fs)
    (h : ∀ a, a ∈ es ↔ a ∈ fs) : es = fs := by
  induction es generalizing fs with
  | nil =>
    cases fs with
    | nil => rfl
    | cons f fs => exact absurd ((h f).2 List.mem_cons_self) (by simp)
  | cons e es ih =>
    cases fs with
    | nil => exact absurd ((h e).1 List.mem_cons_self) (by simp)
    | cons f fs =>
      obtain ⟨he1, he2⟩ := List.pairwise_cons.1 he
      obtain ⟨hf1, hf2⟩ := List.pairwise_cons.1 hf
      have hef : e = f := by
        rcases List.mem_cons.1 ((h e).1 List.mem_cons_self) with h1 | h1
        · exact h1
        · rcases List.mem_cons.1 ((h f).2 List.mem_cons_self) with h2 | h2
          · exact h2.symm
          · exact absurd (hf1 e h1) (String.lt_asymm (he1 f h2))
      subst hef
      refine congrArg _ (ih he2 hf2 fun a => ⟨fun ha => ?_, fun ha => ?_⟩)
      · rcases List.mem_cons.1 ((h a).1 (List.mem_cons_of_mem _ ha)) with h1 | h1
        · exact absurd (he1 a ha) (h1 ▸ String.lt_irrefl _)
        · exact h1
      · rcases List.mem_cons.1 ((h a).2 (List.mem_cons_of_mem _ ha)) with h1 | h1
        · exact absurd (hf1 a ha) (h1 ▸ String.lt_irrefl _)
        · exact h1

end Entries

/-- Values under keys that strictly increase. -/
structure Table (β : Type) where
  entries : List (String × β)
  increasing : Entries.Increasing entries

namespace Table

def empty : Table β := ⟨[], .nil⟩

instance : Inhabited (Table β) := ⟨empty⟩

def get? (t : Table β) (k : String) : Option β := Entries.get? k t.entries

def contains (t : Table β) (k : String) : Bool := (t.get? k).isSome

def insert (t : Table β) (k : String) (v : β) : Table β :=
  ⟨Entries.insert k v t.entries, t.increasing.insert k v⟩

def erase (t : Table β) (k : String) : Table β := ⟨Entries.erase k t.entries, t.increasing.erase k⟩

def map (t : Table β) (f : β → γ) : Table γ :=
  ⟨t.entries.map fun e => (e.1, f e.2), t.increasing.map f⟩

def ofList (es : List (String × β)) : Table β := ⟨Entries.ofList es, .ofList es⟩

def size (t : Table β) : Nat := t.entries.length

def isEmpty (t : Table β) : Bool := t.entries.isEmpty

instance [DecidableEq β] : DecidableEq (Table β) := fun a b =>
  if h : a.entries = b.entries then isTrue (by cases a; cases b; cases h; rfl)
  else isFalse fun he => h (he ▸ rfl)

theorem ext_entries {t u : Table β} (h : t.entries = u.entries) : t = u := by
  cases t; cases u; cases h; rfl

@[simp] theorem get?_empty (k : String) : (empty : Table β).get? k = none := rfl

@[simp] theorem get?_insert (t : Table β) (k j : String) (v : β) :
    (t.insert k v).get? j = if k = j then some v else t.get? j := Entries.get?_insert k j v _

@[simp] theorem get?_erase (t : Table β) (k j : String) :
    (t.erase k).get? j = if k = j then none else t.get? j := Entries.get?_erase k j _

/-- **A table is determined by look-up.** -/
theorem ext_get? {t u : Table β} (h : ∀ k, t.get? k = u.get? k) : t = u := by
  refine ext_entries (t.increasing.ext u.increasing fun ⟨k, v⟩ => ?_)
  rw [← Entries.get?_eq_some_iff t.increasing, ← Entries.get?_eq_some_iff u.increasing]
  exact iff_of_eq (congrArg (· = some v) (h k))

@[simp] theorem get?_map (t : Table β) (f : β → γ) (k : String) : (t.map f).get? k = (t.get? k).map f :=
  Entries.get?_map f k t.entries

/-- Putting in what is there changes nothing. -/
theorem insert_eq_self {t : Table β} {k : String} {v : β} (h : t.get? k = some v) : t.insert k v = t := by
  apply ext_get?
  intro j
  rw [get?_insert]
  split
  · rename_i hkj
    rw [← hkj, h]
  · rfl

theorem map_insert (t : Table β) (f : β → γ) (k : String) (v : β) :
    (t.insert k v).map f = (t.map f).insert k (f v) := by
  apply ext_get?
  intro j
  rw [get?_map, get?_insert, get?_insert, get?_map]
  split
  · rfl
  · rfl

end Table

end PageSweep
