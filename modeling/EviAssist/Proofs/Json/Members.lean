import EviAssist.Json
import Mathlib.Data.String.Basic

/-!
# Members of objects

An object keeps its members sorted by name, each name once. Of members with different names none is
lost, and a member is found by its name.

* `Json.memberOf?_ofMembers`: the last member with a name is the one that is found.
* `Json.member?_ofOptions`: a member without a value is left out.
* `Json.ofMembers_perm`: of members with different names all are kept.
* `Json.ofMembers_sorted`: they are sorted by their names.
* `Json.mem_ofMembers_iff`: an object holds the last member of each name.
-/

namespace EviAssist.Json

theorem memberOf?_cons (name : String) (m : String × Json) (members : List (String × Json)) :
    memberOf? name (m :: members) = if m.1 = name then some m.2 else memberOf? name members := by
  by_cases h : m.1 = name <;> simp [memberOf?, h]

theorem memberOf?_cons_self (name : String) (value : Json) (members : List (String × Json)) :
    memberOf? name ((name, value) :: members) = some value := by
  rw [memberOf?_cons, if_pos rfl]

theorem memberOf?_cons_ne {name other : String} (hne : other ≠ name) (value : Json)
    (members : List (String × Json)) :
    memberOf? name ((other, value) :: members) = memberOf? name members := by
  rw [memberOf?_cons, if_neg hne]

theorem memberOf?_append (name : String) (members later : List (String × Json)) :
    memberOf? name (members ++ later) =
      (memberOf? name members).or (memberOf? name later) := by
  induction members with
  | nil => rfl
  | cons m members ih =>
    rw [List.cons_append, memberOf?_cons, memberOf?_cons, ih]
    split <;> rfl

theorem memberOf?_insertMember (name : String) (value : Json) (members : List (String × Json))
    (other : String) :
    memberOf? other (insertMember name value members) =
      if name = other then some value else memberOf? other members := by
  induction members with
  | nil => rw [insertMember, memberOf?_cons]
  | cons m members ih =>
    obtain ⟨name', value'⟩ := m
    rw [insertMember]
    by_cases hlt : name < name'
    · rw [if_pos hlt, memberOf?_cons]
    · rw [if_neg hlt]
      by_cases heq : name = name'
      · rw [if_pos heq, memberOf?_cons, memberOf?_cons, heq]
        split <;> rfl
      · rw [if_neg heq, memberOf?_cons, memberOf?_cons, ih]
        by_cases h : name' = other
        · have hne : name ≠ other := fun hn => heq (hn.trans h.symm)
          rw [if_pos h, if_neg hne, if_pos h]
        · rw [if_neg h, if_neg h]

/-- The last member with a name is the one that is found. -/
theorem memberOf?_ofMembers (name : String) (members : List (String × Json)) :
    memberOf? name (ofMembers members) = memberOf? name members.reverse := by
  have hfold : ∀ sorted, memberOf? name
      (members.foldl (fun sorted m => insertMember m.1 m.2 sorted) sorted) =
        (memberOf? name members.reverse).or (memberOf? name sorted) := by
    induction members with
    | nil => exact fun _ => rfl
    | cons m members ih =>
      intro sorted
      rw [List.foldl_cons, ih, memberOf?_insertMember, List.reverse_cons, memberOf?_append,
        memberOf?_cons, Option.or_assoc]
      split <;> rfl
  rw [ofMembers, hfold]
  exact Option.or_none

theorem memberOf?_eq_none_iff {name : String} {members : List (String × Json)} :
    memberOf? name members = none ↔ ∀ m ∈ members, m.1 ≠ name := by
  simp [memberOf?]

theorem mem_of_memberOf? {name : String} {value : Json} {members : List (String × Json)}
    (h : memberOf? name members = some value) : (name, value) ∈ members := by
  induction members with
  | nil => cases h
  | cons m members ih =>
    rw [memberOf?_cons] at h
    split at h
    · rename_i heq
      cases h
      exact heq ▸ .head _
    · exact .tail _ (ih h)

theorem memberOf?_ofMembers_of_mem {name : String} {value : Json}
    {members : List (String × Json)} (hm : (name, value) ∈ members)
    (hu : ∀ m ∈ members, m.1 = name → m.2 = value) :
    memberOf? name (ofMembers members) = some value := by
  rw [memberOf?_ofMembers]
  cases h : memberOf? name members.reverse with
  | none =>
    have := memberOf?_eq_none_iff.1 h (name, value) (List.mem_reverse.2 hm)
    exact absurd rfl this
  | some found => exact congrArg some (hu _ (List.mem_reverse.1 (mem_of_memberOf? h)) rfl)

theorem memberOf?_ofMembers_eq_none {name : String} {members : List (String × Json)}
    (h : ∀ m ∈ members, m.1 ≠ name) : memberOf? name (ofMembers members) = none := by
  rw [memberOf?_ofMembers, memberOf?_eq_none_iff]
  intro m hm
  exact h m (List.mem_reverse.1 hm)

/-- A member of an object made of members with and without values has its value. -/
theorem member?_ofOptions {name : String} {value : Option Json}
    {members : List (String × Option Json)} (hm : (name, value) ∈ members)
    (hu : ∀ m ∈ members, m.1 = name → m.2 = value) :
    (ofOptions members).member? name = value := by
  cases value with
  | none =>
    refine memberOf?_ofMembers_eq_none fun m h heq => ?_
    obtain ⟨option, ho, he⟩ := List.mem_filterMap.1 h
    obtain ⟨value, hv, rfl⟩ := Option.map_eq_some_iff.1 he
    cases (hu option ho heq).symm.trans hv
  | some value =>
    refine memberOf?_ofMembers_of_mem (List.mem_filterMap.2 ⟨_, hm, rfl⟩) fun m h heq => ?_
    obtain ⟨option, ho, he⟩ := List.mem_filterMap.1 h
    obtain ⟨value', hv, rfl⟩ := Option.map_eq_some_iff.1 he
    exact Option.some.inj (hv.symm.trans (hu option ho heq))

theorem mem_of_mem_insertMember {name : String} {value : Json} {m : String × Json}
    {members : List (String × Json)} (h : m ∈ insertMember name value members) :
    m = (name, value) ∨ m ∈ members := by
  induction members with
  | nil => exact .inl (List.mem_singleton.1 h)
  | cons other members ih =>
    rw [insertMember] at h
    split at h
    · exact List.mem_cons.1 h
    · split at h
      · exact (List.mem_cons.1 h).imp_right (.tail _)
      · rcases List.mem_cons.1 h with rfl | h
        · exact .inr (.head _)
        · exact (ih h).imp_right (.tail _)

theorem insertMember_perm {name : String} {members : List (String × Json)}
    (h : ∀ m ∈ members, m.1 ≠ name) (value : Json) :
    (insertMember name value members).Perm ((name, value) :: members) := by
  induction members with
  | nil => exact .refl _
  | cons m members ih =>
    obtain ⟨name', value'⟩ := m
    rw [insertMember]
    split
    · exact .refl _
    · rw [if_neg fun heq => h _ (.head _) heq.symm]
      exact ((ih fun m hm => h m (.tail _ hm)).cons _).trans (.swap _ _ _)

/-- Of members with different names none is lost. -/
theorem ofMembers_perm {members : List (String × Json)} (h : (members.map (·.1)).Nodup) :
    (ofMembers members).Perm members := by
  have hfold : ∀ sorted : List (String × Json),
      (∀ m ∈ members, ∀ s ∈ sorted, s.1 ≠ m.1) →
      (members.foldl (fun sorted m => insertMember m.1 m.2 sorted) sorted).Perm
        (members ++ sorted) := by
    induction members with
    | nil => exact fun _ _ => .refl _
    | cons m members ih =>
      intro sorted hs
      obtain ⟨hm, hnodup⟩ := List.nodup_cons.1 h
      have hp : (insertMember m.1 m.2 sorted).Perm (m :: sorted) :=
        insertMember_perm (hs m (.head _)) m.2
      refine (ih hnodup _ ?_).trans ((hp.append_left members).trans List.perm_middle)
      intro other ho s hmem
      rcases List.mem_cons.1 (hp.mem_iff.1 hmem) with rfl | hmem
      · exact fun heq => hm (List.mem_map.2 ⟨other, ho, heq.symm⟩)
      · exact hs other (.tail _ ho) s hmem
  have hp := hfold [] fun _ _ => nofun
  rwa [List.append_nil] at hp

theorem insertMember_sorted {members : List (String × Json)}
    (h : members.Pairwise fun a b => a.1 < b.1) (name : String) (value : Json) :
    (insertMember name value members).Pairwise fun a b => a.1 < b.1 := by
  induction members with
  | nil => exact List.pairwise_singleton _ _
  | cons m members ih =>
    obtain ⟨name', value'⟩ := m
    obtain ⟨hfirst, hrest⟩ := List.pairwise_cons.1 h
    rw [insertMember]
    by_cases hlt : name < name'
    · rw [if_pos hlt]
      refine List.pairwise_cons.2 ⟨?_, h⟩
      rintro m (_ | ⟨_, hm⟩)
      · exact hlt
      · exact hlt.trans (hfirst m hm)
    · rw [if_neg hlt]
      by_cases heq : name = name'
      · rw [if_pos heq, heq]
        exact List.pairwise_cons.2 ⟨hfirst, hrest⟩
      · rw [if_neg heq]
        refine List.pairwise_cons.2 ⟨?_, ih hrest⟩
        intro m hm
        rcases mem_of_mem_insertMember hm with rfl | hm
        · exact lt_of_le_of_ne (not_lt.1 hlt) (Ne.symm heq)
        · exact hfirst m hm

/-- Members are sorted by their names, each name once. -/
theorem ofMembers_sorted (members : List (String × Json)) :
    (ofMembers members).Pairwise fun a b => a.1 < b.1 := by
  have hfold : ∀ sorted : List (String × Json), sorted.Pairwise (fun a b => a.1 < b.1) →
      (members.foldl (fun sorted m => insertMember m.1 m.2 sorted) sorted).Pairwise
        fun a b => a.1 < b.1 := by
    induction members with
    | nil => exact fun _ h => h
    | cons m members ih => exact fun _ h => ih _ (insertMember_sorted h m.1 m.2)
  exact hfold [] .nil

theorem memberOf?_of_mem {name : String} {value : Json} {members : List (String × Json)}
    (h : members.Pairwise fun a b => a.1 < b.1) (hm : (name, value) ∈ members) :
    memberOf? name members = some value := by
  induction members with
  | nil => cases hm
  | cons m members ih =>
    obtain ⟨hfirst, hrest⟩ := List.pairwise_cons.1 h
    rcases List.mem_cons.1 hm with rfl | hm
    · exact memberOf?_cons_self name value members
    · rw [memberOf?_cons, if_neg (hfirst _ hm).ne]
      exact ih hrest hm

/-- An object holds the last member of each name. -/
theorem mem_ofMembers_iff {name : String} {value : Json} {members : List (String × Json)} :
    (name, value) ∈ ofMembers members ↔ memberOf? name members.reverse = some value := by
  rw [← memberOf?_ofMembers]
  exact ⟨memberOf?_of_mem (ofMembers_sorted members), mem_of_memberOf?⟩

end EviAssist.Json
