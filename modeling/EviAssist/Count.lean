/-!
# Bounded counts

Lines, columns and lengths are 32-bit numbers. Where a rule adds to or takes from one, it stops
at the least and the greatest number instead of wrapping, or it has no result there.

* `Count.pred`, `Count.succ`, `Count.add`: the operations, with their values as natural numbers.
* `Count.succ?`: the successor of a number that is not the greatest.
-/

namespace EviAssist.Count

/-- One less, and zero for zero. -/
def pred (n : UInt32) : UInt32 :=
  if n = 0 then 0 else n - 1

/-- The sum, or the greatest number where the sum is greater. -/
def add (n m : UInt32) : UInt32 :=
  if n.toNat + m.toNat < UInt32.size then n + m else UInt32.ofNat (UInt32.size - 1)

/-- One more, and the greatest number for itself. -/
def succ (n : UInt32) : UInt32 :=
  add n 1

/-- One more; the greatest number has no successor. -/
def succ? (n : UInt32) : Option UInt32 :=
  if n.toNat + 1 < UInt32.size then some (n + 1) else none

theorem toNat_pred (n : UInt32) : (pred n).toNat = n.toNat - 1 := by
  unfold pred
  split
  · simp_all
  · rename_i h
    have h0 : n.toNat ≠ 0 := fun h' => h (UInt32.toNat_inj.1 h')
    rw [UInt32.toNat_sub_of_le n 1 (by simp [UInt32.le_iff_toNat_le]; omega)]
    simp

theorem toNat_add (n m : UInt32) : (add n m).toNat = min (n.toNat + m.toNat) (UInt32.size - 1) := by
  unfold add
  split
  · rw [UInt32.toNat_add, Nat.mod_eq_of_lt ‹_›]
    omega
  · have h : (UInt32.ofNat (UInt32.size - 1)).toNat = UInt32.size - 1 := by decide
    rw [h]
    omega

theorem toNat_succ (n : UInt32) : (succ n).toNat = min (n.toNat + 1) (UInt32.size - 1) := by
  rw [succ, toNat_add]
  rfl

theorem succ?_eq_some_iff {n k : UInt32} : succ? n = some k ↔ k.toNat = n.toNat + 1 := by
  have hk : k.toNat < UInt32.size := k.toNat_lt
  unfold succ?
  split
  · rename_i h
    have hn : (n + 1).toNat = n.toNat + 1 := (UInt32.toNat_add n 1).trans (Nat.mod_eq_of_lt h)
    rw [Option.some.injEq, ← UInt32.toNat_inj, hn]
    exact eq_comm
  · rename_i h
    exact iff_of_false nofun (by omega)

theorem succ?_eq_none_iff {n : UInt32} : succ? n = none ↔ UInt32.size ≤ n.toNat + 1 := by
  rw [succ?, ite_eq_right_iff]
  simp

end EviAssist.Count
