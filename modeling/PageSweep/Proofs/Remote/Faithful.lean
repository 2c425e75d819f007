import PageSweep.Remote.Cache

/-!
# Caches that are faithful to the answers

As long as an address is always answered in the same way, a cache only ever keeps what the answers carry. What
a reference resolves to is then the same whether it is in the cache, no longer fresh or asked for anew: neither
the cache nor the time makes a difference.

* `Faithful.look`, `Faithful.take`: the two halves of a fetch.
* `Faithful.resolve`: what a reference resolves to.
* `Reached.faithful`: the caches that resolving and clearing lead to.
-/

namespace PageSweep

/-- The schema that an answer carries. -/
def Answer.content? (a : Answer) : Option String :=
  match a with
  | .reply _ body => if a.isSuccess then some body else none
  | .unreachable => none

namespace SchemaCache

/-- **All that is kept under an address is what the answer for it carries.** -/
def Faithful (answers : String → Answer) (c : SchemaCache) : Prop :=
  ∀ address s, c.schemas.get? address = some s → (answers address).content? = some s.content

/-- **The caches that can come about** while all addresses are answered as they are: by resolving, at any times,
and by clearing. -/
inductive Reached (answers : String → Answer) : SchemaCache → Prop where
  | new (ttl : Nat) : Reached answers (new ttl)
  | resolve {c : SchemaCache} (h : Reached answers c) (now : Nat) (reference : String) :
      Reached answers (c.resolve answers now reference).cache
  | clear {c : SchemaCache} (h : Reached answers c) : Reached answers c.clear

variable {answers : String → Answer} {c : SchemaCache}

theorem faithful_new (answers : String → Answer) (ttl : Nat) : (new ttl).Faithful answers :=
  fun _ _ h => by cases h

/-- Looking drops a schema at most, and finds what the answer carries. -/
theorem Faithful.look (h : c.Faithful answers) (now : Nat) (address : String) :
    (c.look now address).2.Faithful answers ∧
      ∀ content, (c.look now address).1 = some content → (answers address).content? = some content := by
  unfold SchemaCache.look
  cases hget : c.schemas.get? address with
  | none => exact ⟨h, fun _ hnone => by cases hnone⟩
  | some s =>
    simp only
    split
    · refine ⟨h, fun content hcontent => ?_⟩
      rw [h address s hget, ← Option.some.inj hcontent]
    · refine ⟨fun address' s' hs' => ?_, fun _ hnone => by cases hnone⟩
      rw [Table.get?_erase] at hs'
      split at hs'
      · cases hs'
      · exact h address' s' hs'

/-- An answer is taken in as it is. -/
theorem Faithful.take (h : c.Faithful answers) (now : Nat) (address : String) :
    (c.take now address (answers address)).2.Faithful answers ∧
      (c.take now address (answers address)).1.toOption = (answers address).content? := by
  cases hanswer : answers address with
  | unreachable => exact ⟨h, rfl⟩
  | reply status body =>
    rw [SchemaCache.take, Answer.content?]
    split
    · rename_i hsuccess
      refine ⟨fun address' s' hs' => ?_, rfl⟩
      rw [Table.get?_insert] at hs'
      split at hs'
      · rename_i haddress
        rw [← haddress, hanswer, Answer.content?, if_pos hsuccess, ← Option.some.inj hs']
      · exact h address' s' hs'
    · exact ⟨h, rfl⟩

/-- **A reference resolves to what the answer for its address carries**, whatever the cache holds and whatever
the time is. -/
theorem Faithful.resolve (h : c.Faithful answers) (now : Nat) (reference : String) :
    (c.resolve answers now reference).cache.Faithful answers ∧
      (c.resolve answers now reference).result.toOption =
        (answers (Gist.rawAddress reference).1).content? := by
  unfold SchemaCache.resolve
  obtain ⟨hlook, hfound⟩ := h.look now (Gist.rawAddress reference).1
  cases hl : c.look now (Gist.rawAddress reference).1 with
  | mk found c' =>
    rw [hl] at hlook hfound
    cases found with
    | some content =>
      simp only [hl]
      exact ⟨hlook, (hfound content rfl).symm⟩
    | none =>
      simp only [hl]
      exact hlook.take now _

/-- **Whatever was resolved and cleared before**, all that is kept is what the answers carry. -/
theorem Reached.faithful (h : c.Reached answers) : c.Faithful answers := by
  induction h with
  | new ttl => exact faithful_new answers ttl
  | resolve _ now reference ih => exact (ih.resolve now reference).1
  | clear _ _ => exact faithful_new answers _

end SchemaCache

end PageSweep
