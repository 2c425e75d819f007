import PageSweep.Host
import PageSweep.Proofs.Cookie.Jar

/-!
# The domains of a host

A cookie may be for the whole of a domain, which is the host or what is behind one of its dots. Written as it is
stored, such a domain is one of the host, wherever the host has dots.

* `Host.isTail_baseDomain`: the last two labels of a host.
* `domainCovers_of_isTail`: the domains that a host takes.
-/

namespace PageSweep

open Text

/-- Whether a text is a host or what is behind one of its dots. -/
def Host.IsTail (tail host : String) : Prop :=
  ∃ front : List Char, host.toList = front ++ tail.toList ∧ ∀ c ∈ front.getLast?, c = '.'

theorem Host.isTail_self (host : String) : IsTail host host :=
  ⟨[], rfl, fun _ hc => absurd hc (Option.not_mem_none _)⟩

/-- **The last two labels of a host** are behind one of its dots, if they are not all that there is. -/
theorem Host.isTail_baseDomain (host : String) : IsTail (baseDomain host) host := by
  have hbase : (baseDomain host).toList =
      joinList ['.'] ((splitAt '.' host.toList).drop ((splitAt '.' host.toList).length - 2)) := by
    simp [baseDomain, join, split, List.map_drop, Function.comp_def]
  have hhost := joinList_splitAt '.' host.toList
  unfold IsTail
  rw [hbase]
  generalize splitAt '.' host.toList = labels at hhost ⊢
  by_cases hlen : labels.length ≤ 2
  · refine ⟨[], ?_, fun _ hc => absurd hc (Option.not_mem_none _)⟩
    rw [Nat.sub_eq_zero_of_le hlen, List.drop_zero, hhost, List.nil_append]
  · have hfront : labels.take (labels.length - 2) ≠ [] := by
      intro h
      have := congrArg List.length h
      simp at this
      omega
    have hback : labels.drop (labels.length - 2) ≠ [] := by
      intro h
      have := congrArg List.length h
      simp at this
      omega
    have hsplit := joinList_append ['.'] hfront hback
    rw [List.take_append_drop, hhost] at hsplit
    exact ⟨_, hsplit, by simp⟩

variable {host tail : String}

/-- A domain without blanks loses the dots in front when it is stored. -/
theorem toList_normalizeDomain (h : ∀ c ∈ tail.toList, isBlank c = false) :
    (normalizeDomain tail).toList = lowerList (tail.toList.dropWhile (· == '.')) := by
  rw [normalizeDomain, trimList_eq_self h, String.toList_ofList]

/-- One more dot in front makes no difference. -/
theorem normalizeDomain_dot (h : ∀ c ∈ tail.toList, isBlank c = false) :
    normalizeDomain ("." ++ tail) = normalizeDomain tail := by
  have hdot : ∀ c ∈ ("." ++ tail).toList, isBlank c = false := by
    intro c hc
    rw [String.toList_append] at hc
    rcases List.mem_append.1 hc with hc | hc
    · rw [show c = '.' from List.mem_singleton.1 hc]
      rfl
    · exact h c hc
  apply String.toList_inj.1
  rw [toList_normalizeDomain hdot, toList_normalizeDomain h, String.toList_append]
  rfl

/-- **The domains that a host takes**: itself and what is behind its dots, without blanks. -/
theorem domainCovers_of_isTail (h : ∀ c ∈ tail.toList, isBlank c = false) (ht : Host.IsTail tail host) :
    domainCovers (normalizeDomain tail) (lower host) = true := by
  obtain ⟨front, hfront, hdot⟩ := ht
  -- What is in front of the stored domain ends with a dot, in the tail or before it.
  have hsplit : host.toList = (front ++ tail.toList.takeWhile (· == '.')) ++ tail.toList.dropWhile (· == '.') := by
    rw [List.append_assoc, List.takeWhile_append_dropWhile, hfront]
  have hlast : ∀ c ∈ (front ++ tail.toList.takeWhile (· == '.')).getLast?, c = '.' := by
    intro c hc
    rw [List.getLast?_append] at hc
    cases hdots : (tail.toList.takeWhile (· == '.')).getLast? with
    | none =>
      rw [hdots, Option.none_or] at hc
      exact hdot c hc
    | some d =>
      rw [hdots, Option.some_or] at hc
      cases hc
      have hd := List.mem_takeWhile_imp (List.mem_of_getLast? hdots)
      exact beq_iff_eq.1 hd
  generalize front ++ tail.toList.takeWhile (· == '.') = before at hsplit hlast
  have hlower : (lower host).toList = lowerList before ++ (normalizeDomain tail).toList := by
    rw [toList_normalizeDomain h, lower, String.toList_ofList, hsplit]
    exact List.map_append
  rw [domainCovers, Bool.or_eq_true]
  rcases List.eq_nil_or_concat before with rfl | ⟨init, c, rfl⟩
  · have hsame : (lower host).toList = (normalizeDomain tail).toList := by
      rw [hlower, lowerList, List.map_nil, List.nil_append]
    exact .inl (beq_iff_eq.2 (String.toList_inj.1 hsame))
  · rw [List.concat_eq_append] at hlast hlower
    have hc : c = '.' := hlast c List.getLast?_concat
    have htext : (lower host).toList = lowerList init ++ ("." ++ normalizeDomain tail).toList := by
      rw [hlower, hc, String.toList_append, lowerList, List.map_append, List.append_assoc]
      rfl
    exact .inr (endsWithList_iff.2 ⟨lowerList init, htext⟩)

end PageSweep
