/-
  EsFeatures.Text.Slice

  Ranges of a sequence given by two integer bounds.  A negative bound counts from
  the end, and a bound outside the sequence is moved to the nearer end, so every
  pair of integers names a range.
-/

namespace EsFeatures.Text

/-- The place in a sequence of `size` items that the bound `i` names. -/
def bound (size : Nat) (i : Int) : Nat :=
  if i < 0 then (size + i).toNat else min i.toNat size

/-- The items from bound `start` up to bound `stop`; none when the bounds cross. -/
def slice {α : Type} (items : List α) (start stop : Int) : List α :=
  (items.take (bound items.length stop)).drop (bound items.length start)

/-- The part of a text from bound `start` up to bound `stop`, in characters. -/
def substring (text : String) (start stop : Int) : String :=
  String.ofList (slice text.toList start stop)

theorem bound_le (size : Nat) (i : Int) : bound size i ≤ size := by
  unfold bound
  split <;> omega

theorem bound_of_nonneg (size : Nat) {i : Int} (h : 0 ≤ i) : bound size i = min i.toNat size := by
  rw [bound, if_neg (by omega)]

@[simp] theorem bound_natCast (size n : Nat) : bound size (n : Int) = min n size := by
  rw [bound_of_nonneg size (by omega), Int.toNat_natCast]

end EsFeatures.Text
