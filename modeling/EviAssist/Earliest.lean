/-!
# The first of several moments

Schedules look for what happens next among things that are each due at some moment.

* `Earliest.take?`: the thing due first, and the others.
* `Earliest.notAfter`: comparing moments of which one may never come.
-/

namespace EviAssist.Earliest

/-- The first of the elements with the least moment, and the others in their order. -/
def take? {α : Type} (due : α → Nat) : List α → Option (α × List α)
  | [] => none
  | a :: rest =>
    match take? due rest with
    | none => some (a, [])
    | some (b, others) => if due a ≤ due b then some (a, rest) else some (b, a :: others)

theorem take?_eq_none {α : Type} {due : α → Nat} {l : List α} (h : take? due l = none) :
    l = [] := by
  cases l with
  | nil => rfl
  | cons a rest =>
    unfold take? at h
    split at h
    · cases h
    · split at h <;> cases h

theorem take?_perm {α : Type} {due : α → Nat} {l others : List α} {a : α}
    (h : take? due l = some (a, others)) : l.Perm (a :: others) := by
  induction l generalizing a others with
  | nil => cases h
  | cons b rest ih =>
    unfold take? at h
    split at h
    · rename_i hn
      cases h
      rw [take?_eq_none hn]
    · rename_i hs
      split at h <;> cases h
      · exact .refl _
      · exact ((ih hs).cons b).trans (.swap _ _ _)

theorem take?_length {α : Type} {due : α → Nat} {l others : List α} {a : α}
    (h : take? due l = some (a, others)) : others.length + 1 = l.length :=
  (take?_perm h).length_eq.symm

/-- What is due first is due no later than the others. -/
theorem take?_le {α : Type} {due : α → Nat} {l others : List α} {a : α}
    (h : take? due l = some (a, others)) : ∀ b ∈ l, due a ≤ due b := by
  induction l generalizing a others with
  | nil => cases h
  | cons c rest ih =>
    intro b hb
    unfold take? at h
    split at h
    · rename_i hn
      cases h
      rw [take?_eq_none hn, List.mem_singleton] at hb
      exact hb ▸ Nat.le_refl _
    · rename_i first _ hs
      obtain rfl | hb := List.mem_cons.1 hb
      · split at h <;> cases h
        · exact Nat.le_refl _
        · omega
      · have hf := ih hs b hb
        split at h <;> cases h
        · omega
        · exact hf

theorem take?_eq_erase {α : Type} [DecidableEq α] {due : α → Nat} {l others : List α} {a : α}
    (h : take? due l = some (a, others)) : others = l.erase a := by
  induction l generalizing a others with
  | nil => cases h
  | cons b rest ih =>
    unfold take? at h
    split at h
    · rename_i hn
      cases h
      rw [List.erase_cons_head, take?_eq_none hn]
    · rename_i hs
      split at h <;> cases h
      · rw [List.erase_cons_head]
      · rename_i hlt
        have hne : b ≠ a := fun heq => hlt (heq ▸ Nat.le_refl _)
        rw [List.erase_cons_tail (by simpa using hne), ih hs]

/-- Whether the first moment comes and the second comes no earlier. -/
def notAfter : Option Nat → Option Nat → Bool
  | some a, some b => a ≤ b
  | some _, none => true
  | none, _ => false

end EviAssist.Earliest
