import PageSweep.Number.Numeral
import PageSweep.Proofs.Text.Pieces

/-!
# Numerals are read back

The digits of a number are digits, and no zero stands in front of them, so what reads digits reads the number again.

* `readDigits?_digits`: reading what was written.
* `readCount?_eq_some_iff`: what is read as a count.
* `head_digits`: what stands in front.
* `ofDigits_padded`, `length_padded`: numbers with zeros in front.
-/

namespace PageSweep.Number

theorem digits_ne_nil (n : Nat) : digits n ≠ [] := Nat.toDigits_ne_nil

theorem isDigit_of_mem_digits {n : Nat} {c : Char} (h : c ∈ digits n) : c.isDigit = true :=
  Nat.isDigit_of_mem_toDigits (by decide) (by decide) h

theorem ofDigits_digits (n : Nat) : ofDigits 10 (digits n) = n := by
  have hread : Nat.ofDigitChars 10 (Nat.toDigits 10 n) 0 = n := Nat.ofDigitChars_toDigits (by decide) (by decide)
  have hstep : (fun n c => n * 10 + digitValue c) = fun (n : Nat) (c : Char) => 10 * n + (c.toNat - '0'.toNat) := by
    funext n c
    rw [digitValue, Nat.mul_comm]
  rw [ofDigits, hstep]
  exact hread

/-- **Digits are read as the number that they were written for.** -/
theorem readDigits?_digits (n : Nat) : readDigits? (digits n) = some n := by
  have hall : (digits n).all Char.isDigit = true := List.all_eq_true.2 fun c hc => isDigit_of_mem_digits hc
  simp [readDigits?, hall, digits_ne_nil, ofDigits_digits]

theorem readDigits?_eq_some_iff {cs : List Char} {n : Nat} :
    readDigits? cs = some n ↔ cs ≠ [] ∧ (∀ c ∈ cs, c.isDigit = true) ∧ ofDigits 10 cs = n := by
  unfold readDigits?
  split
  · rename_i h
    rw [Bool.and_eq_true, Bool.not_eq_true', List.isEmpty_eq_false_iff, List.all_eq_true] at h
    exact ⟨fun hn => ⟨h.1, h.2, Option.some.inj hn⟩, fun hn => congrArg some hn.2.2⟩
  · rename_i h
    refine ⟨nofun, fun hn => absurd ?_ h⟩
    rw [Bool.and_eq_true, Bool.not_eq_true', List.isEmpty_eq_false_iff, List.all_eq_true]
    exact ⟨hn.1, hn.2.1⟩

/-- **What spells a number**: digits, perhaps after a plus sign. -/
def Spells (cs : List Char) (n : Nat) : Prop :=
  ∃ sign ds : List Char, (sign = [] ∨ sign = ['+']) ∧ cs = sign ++ ds ∧
    ds ≠ [] ∧ (∀ c ∈ ds, c.isDigit = true) ∧ ofDigits 10 ds = n

theorem spells_digits (n : Nat) : Spells (digits n) n :=
  ⟨[], digits n, .inl rfl, rfl, digits_ne_nil n, fun _ hc => isDigit_of_mem_digits hc, ofDigits_digits n⟩

/-- **A count is read from what spells a number in range**, and from nothing else. -/
theorem readCount?_eq_some_iff {max n : Nat} {cs : List Char} :
    readCount? max cs = some n ↔ Spells cs n ∧ n ≤ max := by
  -- A plus sign is no digit, so it is the sign if it stands in front.
  have hsign : ∀ {ds : List Char}, (∀ c ∈ ds, c.isDigit = true) → ∀ rest, ds ≠ '+' :: rest := by
    rintro ds hds rest rfl
    exact absurd (hds '+' List.mem_cons_self) (by decide)
  simp only [readCount?, Option.filter_eq_some_iff, decide_eq_true_eq]
  refine and_congr_left fun _ => ?_
  split
  · rename_i ds
    rw [readDigits?_eq_some_iff]
    constructor
    · rintro ⟨hne, hds, hn⟩
      exact ⟨['+'], ds, .inr rfl, rfl, hne, hds, hn⟩
    · rintro ⟨sign, ds', rfl | rfl, hcs, hne, hds, hn⟩
      · exact absurd hcs.symm (hsign hds ds)
      · obtain rfl : ds = ds' := (List.cons.inj hcs).2
        exact ⟨hne, hds, hn⟩
  · rename_i hplus
    rw [readDigits?_eq_some_iff]
    constructor
    · rintro ⟨hne, hds, hn⟩
      exact ⟨[], cs, .inl rfl, rfl, hne, hds, hn⟩
    · rintro ⟨sign, ds, rfl | rfl, rfl, hne, hds, hn⟩
      · exact ⟨hne, hds, hn⟩
      · exact absurd rfl (hplus ds)

/-- No zero stands in front of a number. -/
theorem head_digits {n : Nat} (hn : n ≠ 0) : ∀ c ∈ (digits n).head?, c ≠ '0' := by
  induction n using Nat.strongRecOn with
  | ind n ih =>
    rw [digits, Nat.toDigits_eq_if (by decide)]
    split
    · rename_i hlt
      have hone : ∀ m < 10, m ≠ 0 → Nat.digitChar m ≠ '0' := by decide
      intro c hc
      rw [List.head?_cons, Option.mem_some_iff] at hc
      exact hc ▸ hone n hlt hn
    · rw [List.head?_append, Option.or_of_isSome (by simp [Nat.toDigits_ne_nil])]
      exact ih (n / 10) (by omega) (by omega)

/-- There are ten digits. -/
theorem isDigit_cases {c : Char} (h : c.isDigit = true) : c ∈ "0123456789".toList := by
  have hall : ∀ n ≤ 57, 48 ≤ n → Char.ofNat n ∈ "0123456789".toList := by decide
  simp only [Char.isDigit, Bool.and_eq_true, decide_eq_true_eq, ge_iff_le, UInt32.le_iff_toNat_le] at h
  have hc := hall c.toNat h.2 h.1
  rwa [Char.ofNat_toNat] at hc

theorem isBlank_of_isDigit {c : Char} (h : c.isDigit = true) : Text.isBlank c = false := by
  have hall : "0123456789".toList.all (fun d => !Text.isBlank d) = true := by decide
  exact Text.isBlank_of_all hall c (isDigit_cases h)

/-! ### Zeros in front -/

theorem padded_ne_nil (w n : Nat) : padded w n ≠ [] := by
  intro h
  exact digits_ne_nil n (List.append_eq_nil_iff.1 h).2

theorem isDigit_of_mem_padded {w n : Nat} {c : Char} (h : c ∈ padded w n) : c.isDigit = true := by
  rcases List.mem_append.1 h with h | h
  · rw [List.eq_of_mem_replicate h]; decide
  · exact isDigit_of_mem_digits h

theorem ofDigits_padded (w n : Nat) : ofDigits 10 (padded w n) = n := by
  have hzeros : ∀ k : Nat, (List.replicate k '0').foldl (fun n c => n * 10 + digitValue c) 0 = 0 := by
    intro k
    induction k with
    | zero => rfl
    | succ k ih => rw [List.replicate_succ, List.foldl_cons]; exact ih
  rw [padded, ofDigits, List.foldl_append, hzeros]
  exact ofDigits_digits n

theorem length_padded {w n : Nat} (hw : 0 < w) (h : n < Nat.pow 10 w) : (padded w n).length = w := by
  have hle : (digits n).length ≤ w := (Nat.length_toDigits_le_iff (by decide) hw).2 h
  rw [padded, List.length_append, List.length_replicate]
  omega

theorem le_length_padded (w n : Nat) : w ≤ (padded w n).length := by
  rw [padded, List.length_append, List.length_replicate]
  omega

end PageSweep.Number
