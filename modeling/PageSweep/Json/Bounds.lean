import PageSweep.Json.Reader

/-!
# A string is shorter than its text

A text that reads as a string has more characters than the string: its quotes are two, and each escape is
longer than the character it stands for. So unwrapping texts inside texts comes to an end.

* `kind_of_readNumber`, `list_of_readItems`, `object_of_readFields`: what each reader gives.
* `readValue_cases`: how strings and objects are read.
* `length_lt_of_read_str`: the main statement.
-/

namespace PageSweep

/-- What goes well in steps goes well in each. -/
theorem bind_eq_ok {ε α β : Type} {x : Except ε α} {f : α → Except ε β} {b : β} :
    (x >>= f) = .ok b ↔ ∃ a, x = .ok a ∧ f a = .ok b := by
  cases x with
  | error e => simp [bind, Except.bind]
  | ok a => simp [bind, Except.bind]

namespace Json

/-! ### Lengths -/

theorem length_readUnit {cs r : List Char} {n : Nat} (h : readUnit cs = .ok (n, r)) :
    r.length < cs.length := by
  unfold readUnit at h
  split at h
  · simp [faultAt] at h
  · split at h
    · split at h
      · simp only [Except.ok.injEq, Prod.mk.injEq] at h
        obtain ⟨_, rfl⟩ := h
        simp only [List.length_cons]; omega
      · simp at h
    · simp at h

theorem length_readLowUnit {high : Nat} {cs r : List Char} {c : Char}
    (h : readLowUnit high cs = .ok (c, r)) : r.length < cs.length := by
  unfold readLowUnit at h
  split at h
  · simp [faultAt] at h
  · simp [faultAt] at h
  · rename_i t
    obtain ⟨⟨low, t'⟩, hunit, h⟩ := bind_eq_ok.1 h
    have hlen := length_readUnit hunit
    simp only at h
    split at h
    · simp only [Except.ok.injEq, Prod.mk.injEq] at h
      obtain ⟨_, rfl⟩ := h
      simp only [List.length_cons]; omega
    · simp [faultAt] at h
  · simp [faultNext] at h
  · simp [faultNext] at h

theorem length_readEscape {cs r : List Char} {c : Char} (h : readEscape cs = .ok (c, r)) :
    r.length < cs.length := by
  unfold readEscape at h
  split at h
  case h_10 t =>
    obtain ⟨⟨unit, t'⟩, hunit, h⟩ := bind_eq_ok.1 h
    have hlen := length_readUnit hunit
    simp only at h
    split at h
    · simp [faultAt] at h
    · split at h
      · have := length_readLowUnit h
        simp only [List.length_cons]; omega
      · simp only [Except.ok.injEq, Prod.mk.injEq] at h
        obtain ⟨_, rfl⟩ := h
        simp only [List.length_cons]; omega
  all_goals simp only [faultAt, faultNext, reduceCtorEq, Except.ok.injEq, Prod.mk.injEq] at h
  all_goals
    obtain ⟨_, rfl⟩ := h
    simp only [List.length_cons]
    omega

theorem length_readChars {fuel : Nat} {read cs r : List Char} {s : String}
    (h : readChars fuel read cs = .ok (s, r)) : s.length < read.length + cs.length := by
  induction fuel generalizing read cs with
  | zero => simp [readChars, faultAt] at h
  | succ fuel ih =>
    unfold readChars at h
    split at h
    · simp [faultAt] at h
    · simp only [Except.ok.injEq, Prod.mk.injEq] at h
      obtain ⟨rfl, _⟩ := h
      simp
    · rename_i t
      split at h
      · rename_i c t' he
        have hlen := length_readEscape he
        have := ih h
        simp only [List.length_cons] at *; omega
      · simp at h
    · split at h
      · simp [faultNext] at h
      · have := ih h
        simp only [List.length_cons] at *; omega

theorem length_readString {cs r : List Char} {s : String} (h : readString cs = .ok (s, r)) :
    s.length < cs.length := by
  have := length_readChars h
  simpa using this

/-! ### What a reader gives -/

theorem kind_of_signedDouble {negative : Bool} {n : Nat} {e : Int} {t r : List Char} {v : Json}
    (h : signedDouble negative n e t = .ok (v, r)) : v.kind = "number" := by
  unfold signedDouble at h
  split at h
  · cases h; rfl
  · cases h

theorem kind_of_readExponent {negative : Bool} {n : Nat} {e : Int} {cs r : List Char} {v : Json}
    (h : readExponent negative n e cs = .ok (v, r)) : v.kind = "number" := by
  unfold readExponent at h
  split at h
  split at h
  · cases h
  · split at h
    · cases h
    · split at h
      split at h
      · split at h
        · split at h
          · cases h
          · cases h; rfl
        · exact kind_of_signedDouble h
      · exact kind_of_signedDouble h

theorem kind_of_readScaled {negative : Bool} {n : Nat} {e : Int} {cs r : List Char} {v : Json}
    (h : readScaled negative n e cs = .ok (v, r)) : v.kind = "number" := by
  unfold readScaled at h
  split at h
  · exact kind_of_readExponent h
  · exact kind_of_readExponent h
  · exact kind_of_signedDouble h

theorem kind_of_readFraction {negative : Bool} {n : Nat} {e : Int} {cs r : List Char} {v : Json}
    (h : readFraction negative n e cs = .ok (v, r)) : v.kind = "number" := by
  unfold readFraction at h
  split at h
  dsimp only at h
  split at h
  · split at h <;> cases h
  · exact kind_of_readScaled h

theorem kind_of_wholeNumber (negative : Bool) (n : Nat) : (wholeNumber negative n).kind = "number" := by
  unfold wholeNumber
  split
  · rfl
  · split <;> rfl

theorem kind_of_readNumber {negative : Bool} {cs r : List Char} {v : Json}
    (h : readNumber negative cs = .ok (v, r)) : v.kind = "number" := by
  unfold readNumber at h
  split at h
  · cases h
  · split at h
    · cases h
    · split at h
      dsimp only at h
      split at h
      · cases h
      · split at h
        · exact kind_of_readFraction h
        · exact kind_of_readExponent h
        · exact kind_of_readExponent h
        · split at h
          · cases h; exact kind_of_wholeNumber _ _
          · exact kind_of_signedDouble h

theorem list_of_readItems {fuel room : Nat} {read : List Json} {cs r : List Char} {v : Json}
    (h : readItems fuel room read cs = .ok (v, r)) : ∃ items, v = .arr items := by
  induction fuel generalizing read cs with
  | zero => cases h
  | succ fuel ih =>
    obtain ⟨⟨more, t⟩, -, h⟩ := bind_eq_ok.1 h
    cases more with
    | false =>
      cases h
      exact ⟨_, rfl⟩
    | true =>
      obtain ⟨⟨item, t'⟩, -, h⟩ := bind_eq_ok.1 h
      exact ih h

/-- The fields of an object are put in one after the other, each in its place. -/
theorem object_of_readFields {fuel room : Nat} {last : Option String} {read : List (String × Json)}
    {cs r : List Char} {v : Json} (h : readFields fuel room last read cs = .ok (v, r))
    (hread : Entries.Increasing read) : ∃ fields, v = .obj fields ∧ Entries.Increasing fields := by
  induction fuel generalizing last read cs with
  | zero => cases h
  | succ fuel ih =>
    obtain ⟨⟨more, t⟩, -, h⟩ := bind_eq_ok.1 h
    cases more with
    | false =>
      cases h
      exact ⟨read, rfl, hread⟩
    | true =>
      obtain ⟨⟨key, t₁⟩, -, h⟩ := bind_eq_ok.1 h
      obtain ⟨t₂, -, h⟩ := bind_eq_ok.1 h
      obtain ⟨⟨field, t₃⟩, -, h⟩ := bind_eq_ok.1 h
      exact ih h (hread.insert _ _)

/-- **How strings and objects are read**: a string after its quote, an object with its fields in order. -/
theorem readValue_cases {fuel room : Nat} {cs r : List Char} {v : Json} (h : readValue fuel room cs = .ok (v, r)) :
    (∃ t s, skipSpace cs = '"' :: t ∧ readString t = .ok (s, r) ∧ v = str s) ∨
      (∃ fields, v = obj fields ∧ Entries.Increasing fields) ∨ (v.kind ≠ "string" ∧ v.kind ≠ "object") := by
  have hnumber : v.kind = "number" → v.kind ≠ "string" ∧ v.kind ≠ "object" := by
    intro hkind
    rw [hkind]
    decide
  cases fuel with
  | zero => cases h
  | succ fuel =>
    rw [readValue] at h
    split at h
    case h_1 => cases h
    case h_2 =>
      obtain ⟨t, -, h⟩ := bind_eq_ok.1 h
      cases h
      exact .inr (.inr (by decide))
    case h_3 =>
      obtain ⟨t, -, h⟩ := bind_eq_ok.1 h
      cases h
      exact .inr (.inr (by decide))
    case h_4 =>
      obtain ⟨t, -, h⟩ := bind_eq_ok.1 h
      cases h
      exact .inr (.inr (by decide))
    case h_5 => exact .inr (.inr (hnumber (kind_of_readNumber h)))
    case h_6 t ht =>
      obtain ⟨⟨s, t'⟩, hs, h⟩ := bind_eq_ok.1 h
      cases h
      exact .inl ⟨t, s, ht, hs, rfl⟩
    case h_7 =>
      split at h
      · cases h
      · obtain ⟨items, rfl⟩ := list_of_readItems h
        exact .inr (.inr ⟨by simp [kind], by simp [kind]⟩)
    case h_8 =>
      split at h
      · cases h
      · exact .inr (.inl (object_of_readFields h .nil))
    case h_9 =>
      split at h
      · exact .inr (.inr (hnumber (kind_of_readNumber h)))
      · cases h

theorem length_skipSpace (cs : List Char) : (skipSpace cs).length ≤ cs.length :=
  (List.dropWhile_sublist _).length_le

theorem length_lt_of_readValue {fuel room : Nat} {cs r : List Char} {s : String}
    (h : readValue fuel room cs = .ok (str s, r)) : s.length < cs.length := by
  obtain ⟨t, s', ht, hs, heq⟩ | ⟨fields, heq, -⟩ | ⟨hkind, -⟩ := readValue_cases h
  · cases heq
    have hstring := length_readString hs
    have hspace := length_skipSpace cs
    rw [ht, List.length_cons] at hspace
    omega
  · cases heq
  · exact absurd rfl hkind

/-- **A string is shorter than its text.** -/
theorem length_lt_of_read_str {text s : String} (h : read text = .ok (str s)) :
    s.length < text.length := by
  obtain ⟨r, hr, _⟩ := read_eq_value.1 h
  have := length_lt_of_readValue hr
  rwa [String.length_toList] at this

end Json

end PageSweep
