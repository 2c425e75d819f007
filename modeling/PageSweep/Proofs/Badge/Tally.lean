import Mathlib.Algebra.GroupWithZero.Nat
import Mathlib.Data.List.DropRight
import PageSweep.Proofs.Badge.Stored

/-!
# What a total should be

A total that stops at the greatest count is the exact one, cut off there. To stop early does no harm: amounts only
come in on top, and going back to nothing forgets what was cut off. So it makes no difference where a row of messages
is divided, nor whether the badge is stored and loaded again in between.

* `owed_append`: what is owed after two rows is what is owed after the second one, from what was owed before it.
* `Badge.total_applyAll`: the total of a badge after messages.
* `Badge.foldlM_stored`: the same over several runs, the badge being stored after each.
-/

namespace PageSweep

open Number

/-- What happens to a total: an amount more, or back to nothing. -/
inductive Booking where
  | more (amount : Nat)
  | anew
deriving DecidableEq

namespace Booking

def amount : Booking → Nat
  | more n => n
  | anew => 0

end Booking

/-- **What is owed after bookings**: the sum of the amounts since the total was last put back to nothing, and, if it
never was, what it started from. -/
def owed (start : Nat) (bs : List Booking) : Nat :=
  ((bs.rtakeWhile (· ≠ .anew)).map Booking.amount).sum + if .anew ∈ bs then 0 else start

section

variable {start : Nat} {bs : List Booking}

@[simp] theorem owed_nil : owed start [] = start := Nat.zero_add start

@[simp] theorem owed_concat_more (start : Nat) (bs : List Booking) (n : Nat) :
    owed start (bs ++ [.more n]) = owed start bs + n := by
  rw [owed, owed, List.rtakeWhile_concat_pos _ _ _ (by simp), List.map_append, List.sum_append, Nat.add_right_comm]
  simp [Booking.amount]

@[simp] theorem owed_concat_anew (start : Nat) (bs : List Booking) : owed start (bs ++ [.anew]) = 0 := by
  rw [owed, List.rtakeWhile_concat_neg _ _ _ (by simp)]
  simp

/-- **Bookings one row after the other.** -/
theorem owed_append (bs' : List Booking) : owed start (bs ++ bs') = owed (owed start bs) bs' := by
  induction bs' using List.reverseRecOn with
  | nil => rw [List.append_nil, owed_nil]
  | append_singleton bs' b ih =>
    rw [← List.append_assoc]
    cases b with
    | more n => rw [owed_concat_more, owed_concat_more, ih]
    | anew => rw [owed_concat_anew, owed_concat_anew]

/-- If the total is never put back, all amounts come on top of what it started from. -/
theorem owed_of_not_mem (h : .anew ∉ bs) : owed start bs = start + (bs.map Booking.amount).sum := by
  have hall : bs.rtakeWhile (· ≠ .anew) = bs := by
    rw [List.rtakeWhile_eq_self_iff]
    rintro b hb
    rw [decide_eq_true_iff]
    rintro rfl
    exact h hb
  rw [owed, hall, if_neg h, Nat.add_comm]

end

/-- What a message does to the total. -/
def Message.booking : Message → Booking
  | updateCounter n => .more n
  | clearAllCookies => .more 0
  | resetCounter => .anew

theorem Message.amount_booking (m : Message) : m.booking.amount = m.count := by
  cases m <;> rfl

theorem Message.booking_eq_anew {m : Message} : m.booking = .anew ↔ m = .resetCounter := by
  cases m <;> simp [Message.booking]

namespace Badge

variable {b : Badge}

/-- One message. -/
theorem total_apply {owing : Nat} (hb : b.total = min owing maxCount) (m : Message) :
    (b.apply m).total = min (owed owing [m.booking]) maxCount := by
  cases m with
  | updateCounter n =>
    have hone : owed owing [.more n] = owing + n := by simpa using owed_concat_more owing [] n
    rw [total_apply_updateCounter, Message.booking, hone, hb]
    omega
  | clearAllCookies =>
    have hone : owed owing [.more 0] = owing := by simpa using owed_concat_more owing [] 0
    rw [apply_clearAllCookies, Message.booking, hone, hb]
  | resetCounter =>
    have hone : owed owing [.anew] = 0 := owed_concat_anew owing []
    rw [total_apply_resetCounter, Message.booking, hone, Nat.zero_min]

/-- **The total after messages is what is owed, as far as it can be counted**, even if what it started from was cut
off before. -/
theorem total_applyAll {owing : Nat} (hb : b.total = min owing maxCount) (ms : List Message) :
    (b.applyAll ms).total = min (owed owing (ms.map Message.booking)) maxCount := by
  induction ms generalizing b owing with
  | nil => rw [List.map_nil, owed_nil, ← hb]; rfl
  | cons m ms ih =>
    have hsplit : (m :: ms).map Message.booking = [m.booking] ++ ms.map Message.booking := rfl
    rw [hsplit, owed_append]
    exact ih (total_apply hb m)

theorem total_applyAll_self (b : Badge) (ms : List Message) :
    (b.applyAll ms).total = min (owed b.total (ms.map Message.booking)) maxCount :=
  total_applyAll (Nat.min_eq_left b.total_le).symm ms

/-- **It makes no difference how messages are divided among runs**, each of which stores the badge for the next. -/
theorem foldlM_stored (b : Badge) (mss : List (List Message)) :
    mss.foldlM (fun b ms => readYaml (b.applyAll ms).writeYaml) b = .ok (b.applyAll mss.flatten) := by
  induction mss generalizing b with
  | nil => rfl
  | cons ms mss ih =>
    have hnext : (b.applyAll ms).applyAll mss.flatten = b.applyAll (ms :: mss).flatten :=
      (List.foldl_append).symm
    rw [List.foldlM_cons, readYaml_writeYaml, ← hnext]
    exact ih (b.applyAll ms)

end Badge

end PageSweep
