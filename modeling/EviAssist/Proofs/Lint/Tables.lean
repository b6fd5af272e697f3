import EviAssist.Proofs.Json.Members
import EviAssist.Proofs.Json.Reading
import EviAssist.Proofs.Lint.Accepted
import EviAssist.Proofs.Text.Utf8
import Mathlib.Data.List.Sort

/-!
# Tables of symbols

evi writes the symbols that it knows as one object with a member for each. A name may be written
several times, in any order; the table that is read from it is sorted, holds each name once and
leaves none out but the empty one.

* `Lint.IsTable`: the table of some members.
* `Lint.decode_knownFunctions_iff`, `Lint.decode_knownVariables_iff`: the texts that are read, and
  their tables.
-/

namespace EviAssist.Lint

open Json (IsObjectText deepest ofMembers)

/-! ## What a table holds -/

/-- The value of the last member with a name. -/
def lastOf? (name : String) (written : List (String × Json)) : Option Json :=
  Json.memberOf? name written.reverse

/-- Whether symbols are the table of the members of an object. -/
structure IsTable {α : Type} (identifier : α → String) (reads : String → Json → α → Prop)
    (written : List (String × Json)) (found : List α) : Prop where
  /-- They are sorted by the bytes of their names, each name once. -/
  sorted : found.Pairwise fun a b =>
    Utf8.encode (identifier a).toList < Utf8.encode (identifier b).toList
  /-- Their names are those that are written, without the empty one. -/
  names : ∀ name, name ∈ found.map identifier ↔ name ≠ "" ∧ name ∈ written.map (·.1)
  /-- Each is read from the last value that is written under its name. -/
  values : ∀ a ∈ found, ∃ v, lastOf? (identifier a) written = some v ∧ reads (identifier a) v a

variable {α : Type} {identifier : α → String} {reads : String → Json → α → Prop}
  {ms written : List (String × Json)} {found : List α}

theorem lt_iff_encode_lt {s t : String} :
    s < t ↔ Utf8.encode s.toList < Utf8.encode t.toList := by
  rw [String.lt_iff_toList_lt, Utf8.encode_lt_encode_iff]

theorem mem_names_iff {name : String} :
    name ∈ written.map (·.1) ↔ ∃ v, lastOf? name written = some v := by
  rw [← Option.isSome_iff_exists, ← Option.ne_none_iff_isSome, lastOf?, ne_eq,
    Json.memberOf?_eq_none_iff]
  simp only [List.mem_reverse, List.mem_map]
  grind

theorem mem_kept_iff {name : String} {v : Json} :
    (name, v) ∈ (ofMembers written).filter (·.1 ≠ "") ↔
      name ≠ "" ∧ lastOf? name written = some v := by
  rw [List.mem_filter, Json.mem_ofMembers_iff, and_comm, lastOf?]
  simp

theorem mem_names_kept_iff {name : String} :
    name ∈ ((ofMembers written).filter (·.1 ≠ "")).map (·.1) ↔
      name ≠ "" ∧ name ∈ written.map (·.1) := by
  rw [List.mem_map, mem_names_iff, ← exists_and_left]
  simp only [Prod.exists, mem_kept_iff, exists_and_right, exists_eq_right]

theorem map_eq_of_forall₂
    (h : List.Forall₂ (fun m a => identifier a = m.1 ∧ reads m.1 m.2 a) ms found) :
    found.map identifier = ms.map (·.1) ∧
      ∀ a ∈ found, ∃ v, (identifier a, v) ∈ ms ∧ reads (identifier a) v a := by
  induction h with
  | nil => exact ⟨rfl, nofun⟩
  | @cons m a ms found ha _ ih =>
    obtain ⟨hname, hreads⟩ := ha
    refine ⟨by rw [List.map_cons, List.map_cons, hname, ih.1], ?_⟩
    rw [List.forall_mem_cons, hname]
    refine ⟨⟨m.2, .head _, hreads⟩, fun b hb => ?_⟩
    obtain ⟨v, hv, hb⟩ := ih.2 b hb
    exact ⟨v, .tail _ hv, hb⟩

theorem forall₂_of_map_eq (h : found.map identifier = ms.map (·.1))
    (hr : ∀ a ∈ found, ∀ v, (identifier a, v) ∈ ms → reads (identifier a) v a) :
    List.Forall₂ (fun m a => identifier a = m.1 ∧ reads m.1 m.2 a) ms found := by
  induction found generalizing ms with
  | nil =>
    rw [List.map_eq_nil_iff.1 h.symm]
    exact .nil
  | cons a found ih =>
    cases ms with
    | nil => cases h
    | cons m ms =>
      obtain ⟨hname, hnames⟩ := List.cons.inj h
      refine .cons ⟨hname, ?_⟩ (ih hnames fun b hb v hv => hr b (.tail _ hb) v (.tail _ hv))
      have hread := hr a (.head _) m.2
      rw [hname] at hread
      exact hread (.head _)

theorem sorted_names_kept (written : List (String × Json)) :
    (((ofMembers written).filter (·.1 ≠ "")).map (·.1)).Pairwise (· < ·) :=
  List.pairwise_map.2 ((Json.ofMembers_sorted written).filter _)

/-- **The table of some members** is what reads the last of each name one by one, in the order of
the names. -/
theorem isTable_iff :
    IsTable identifier reads written found ↔
      List.Forall₂ (fun m a => identifier a = m.1 ∧ reads m.1 m.2 a)
        ((ofMembers written).filter (·.1 ≠ "")) found := by
  constructor
  · intro h
    have hsorted : (found.map identifier).Pairwise (· < ·) :=
      List.pairwise_map.2 (h.sorted.imp lt_iff_encode_lt.2)
    have hmap := hsorted.eq_of_mem_iff (sorted_names_kept written) fun name =>
      (h.names name).trans mem_names_kept_iff.symm
    refine forall₂_of_map_eq hmap fun a ha v hv => ?_
    obtain ⟨v', hlast, hread⟩ := h.values a ha
    cases hlast.symm.trans (mem_kept_iff.1 hv).2
    exact hread
  · intro h
    obtain ⟨hmap, hvalues⟩ := map_eq_of_forall₂ h
    have hsorted := sorted_names_kept written
    rw [← hmap, List.pairwise_map] at hsorted
    refine ⟨hsorted.imp lt_iff_encode_lt.1, fun name => by rw [hmap, mem_names_kept_iff], ?_⟩
    intro a ha
    obtain ⟨v, hv, hread⟩ := hvalues a ha
    exact ⟨v, (mem_kept_iff.1 hv).2, hread⟩

/-! ## What is decoded -/

/-- Whether a function is read from an entry. -/
def ReadsFunction (name : String) (v : Json) (f : FunctionSignature) : Prop :=
  Shape.signature name v = .ok f

/-- Whether a variable is read from an entry. -/
def ReadsVariable (name : String) (v : Json) (x : Variable) : Prop :=
  x.identifier = name ∧ v = .text x.typeName

/-- The table of functions. -/
abbrev IsFunctionTable : List (String × Json) → List FunctionSignature → Prop :=
  IsTable FunctionSignature.identifier ReadsFunction

/-- The table of variables. -/
abbrev IsVariableTable : List (String × Json) → List Variable → Prop :=
  IsTable Variable.identifier ReadsVariable

theorem ReadsFunction.identifier_eq {name : String} {v : Json} {f : FunctionSignature}
    (h : ReadsFunction name v f) : f.identifier = name := by
  unfold ReadsFunction at h
  cases v with
  | object ms => exact (Shape.signature_object.1 h).1
  | array vs => exact (Shape.signature_array.1 h).1
  | _ => cases h

theorem decode_eq_ok_iff {kind : LintKind} {stdout : String} {r : LintResult} :
    decode kind stdout = .ok r ↔
      ∃ v, Json.parse? (Text.trim stdout.toList) = some v ∧ decodeValue kind v = .ok r := by
  unfold decode
  cases Json.parse? (Text.trim stdout.toList) with
  | none => exact ⟨nofun, nofun⟩
  | some v =>
    simp only [Option.some.injEq, exists_eq_left']
    cases decodeValue kind v with
    | error reason => exact ⟨nofun, nofun⟩
    | ok found =>
      exact ⟨fun h => congrArg _ (Except.ok.inj h), fun h => congrArg _ (Except.ok.inj h)⟩

theorem decodeFunctions_object {found : List FunctionSignature} :
    decodeFunctions (.object (ofMembers written)) = .ok found ↔ IsFunctionTable written found := by
  have hentry (m : String × Json) (f : FunctionSignature) :
      Shape.signature m.1 m.2 = .ok f ↔ f.identifier = m.1 ∧ ReadsFunction m.1 m.2 f :=
    ⟨fun h => ⟨ReadsFunction.identifier_eq h, h⟩, fun h => h.2⟩
  rw [decodeFunctions_eq_ok_iff, IsFunctionTable, isTable_iff]
  simp only [hentry, Json.object.injEq, exists_eq_left']

theorem forall₂_filter {all : List Variable}
    (h : List.Forall₂ (fun m x => ReadsVariable m.1 m.2 x) ms all) :
    List.Forall₂ (fun m x => x.identifier = m.1 ∧ ReadsVariable m.1 m.2 x) (ms.filter (·.1 ≠ ""))
      (all.filter (·.identifier ≠ "")) := by
  refine List.rel_filter (fun m x hx => ?_) (h.imp fun m x hx => ⟨hx.1, hx⟩)
  simp [hx.1]

theorem decodeVariables_object {found : List Variable} :
    decodeVariables (.object (ofMembers written)) = .ok found ↔
      IsVariableTable written found ∧ ∀ v, lastOf? "" written = some v → IsText v := by
  have hdecode : decodeVariables (.object (ofMembers written)) = .ok found ↔
      ∃ all, List.Forall₂ (fun m x => ReadsVariable m.1 m.2 x) (ofMembers written) all ∧
        found = all.filter (·.identifier ≠ "") := by
    rw [decodeVariables_eq_ok_iff]
    simp only [Json.object.injEq, exists_and_left, exists_eq_left']
    rfl
  rw [hdecode]
  constructor
  · rintro ⟨all, hall, rfl⟩
    refine ⟨isTable_iff.2 (forall₂_filter hall), fun v hv => ?_⟩
    obtain ⟨x, -, hx⟩ := exists_forall₂_iff.1 ⟨all, hall⟩ _ (Json.mem_ofMembers_iff.2 hv)
    exact ⟨_, hx⟩
  · rintro ⟨htable, hunnamed⟩
    have hentries : ∀ m ∈ ofMembers written, ∃ x, ReadsVariable m.1 m.2 x := by
      intro m hm
      have hlast : lastOf? m.1 written = some m.2 := Json.mem_ofMembers_iff.1 hm
      by_cases hname : m.1 = ""
      · rw [hname] at hlast
        obtain ⟨s, hs⟩ := hunnamed _ hlast
        exact ⟨⟨m.1, s⟩, rfl, hs⟩
      · obtain ⟨x, hx, hid⟩ := List.mem_map.1
          ((htable.names m.1).2 ⟨hname, mem_names_iff.2 ⟨_, hlast⟩⟩)
        obtain ⟨v, hv, hread⟩ := htable.values x hx
        rw [hid] at hv hread
        cases hlast.symm.trans hv
        exact ⟨x, hread⟩
    obtain ⟨all, hall⟩ := exists_forall₂_iff.2 hentries
    refine ⟨all, hall, ?_⟩
    -- Both lists are read from the same entries.
    refine List.right_unique_forall₂' ?_ (isTable_iff.1 htable) (forall₂_filter hall)
    rintro m ⟨_, _⟩ ⟨_, _⟩ ⟨rfl, -, hx⟩ ⟨rfl, -, hy⟩
    cases hx.symm.trans hy
    rfl

theorem decode_object_iff {kind : LintKind} {stdout : String} {r : LintResult}
    (hobject : ∀ v, decodeValue kind v = .ok r → ∃ ms, v = .object ms) :
    decode kind stdout = .ok r ↔
      ∃ written, IsObjectText (deepest - 1) written (Text.trim stdout.toList) ∧
        decodeValue kind (.object (ofMembers written)) = .ok r := by
  rw [decode_eq_ok_iff]
  constructor
  · rintro ⟨v, hv, h⟩
    obtain ⟨ms, rfl⟩ := hobject v h
    obtain ⟨written, hwritten, rfl⟩ := Json.parse?_eq_object_iff.1 hv
    exact ⟨written, hwritten, h⟩
  · rintro ⟨written, hwritten, h⟩
    exact ⟨_, Json.parse?_eq_object_iff.2 ⟨written, hwritten, rfl⟩, h⟩

/-- **The functions that a text is read as** are the table of the object that it is. -/
theorem decode_knownFunctions_iff {stdout : String} {r : LintResult} :
    decode .knownFunctions stdout = .ok r ↔
      ∃ written found, IsObjectText (deepest - 1) written (Text.trim stdout.toList) ∧
        r = .knownFunctions found ∧ IsFunctionTable written found := by
  have hvalue (v : Json) : decodeValue .knownFunctions v = .ok r ↔
      ∃ found, r = .knownFunctions found ∧ decodeFunctions v = .ok found :=
    Shape.map_eq_ok_iff.trans (exists_congr fun _ => and_comm.trans (and_congr_left' eq_comm))
  rw [decode_object_iff]
  · simp only [hvalue, decodeFunctions_object, exists_and_left]
  · intro v h
    obtain ⟨found, -, hfound⟩ := (hvalue v).1 h
    obtain ⟨ms, rfl, -⟩ := decodeFunctions_eq_ok_iff.1 hfound
    exact ⟨ms, rfl⟩

/-- **The variables that a text is read as** are the table of the object that it is, where an entry
without a name must be a text too. -/
theorem decode_knownVariables_iff {stdout : String} {r : LintResult} :
    decode .knownVariables stdout = .ok r ↔
      ∃ written found, IsObjectText (deepest - 1) written (Text.trim stdout.toList) ∧
        r = .knownVariables found ∧ IsVariableTable written found ∧
        ∀ v, lastOf? "" written = some v → IsText v := by
  have hvalue (v : Json) : decodeValue .knownVariables v = .ok r ↔
      ∃ found, r = .knownVariables found ∧ decodeVariables v = .ok found :=
    Shape.map_eq_ok_iff.trans (exists_congr fun _ => and_comm.trans (and_congr_left' eq_comm))
  rw [decode_object_iff]
  · simp only [hvalue, decodeVariables_object, exists_and_left]
  · intro v h
    obtain ⟨found, -, hfound⟩ := (hvalue v).1 h
    obtain ⟨ms, _, rfl, -⟩ := decodeVariables_eq_ok_iff.1 hfound
    exact ⟨ms, rfl⟩

/-! ## Entries -/

theorem lastOf?_eq {cs : List Char} {written' : List (String × Json)}
    (h : IsObjectText (deepest - 1) written cs) (h' : IsObjectText (deepest - 1) written' cs)
    (name : String) : lastOf? name written = lastOf? name written' := by
  have hparse := Json.parse?_eq_object_iff.2 ⟨written, h, rfl⟩
  have hparse' := Json.parse?_eq_object_iff.2 ⟨written', h', rfl⟩
  have hmembers := Json.object.inj (Option.some.inj (hparse.symm.trans hparse'))
  rw [lastOf?, lastOf?, ← Json.memberOf?_ofMembers, hmembers, Json.memberOf?_ofMembers]

theorem IsTable.exists_reads (h : IsTable identifier reads written found) {name : String} {v : Json}
    (hname : name ≠ "") (hv : lastOf? name written = some v) : ∃ a, reads name v a := by
  obtain ⟨a, ha, rfl⟩ := List.mem_map.1 ((h.names name).2 ⟨hname, mem_names_iff.2 ⟨v, hv⟩⟩)
  obtain ⟨v', hv', hread⟩ := h.values a ha
  cases hv.symm.trans hv'
  exact ⟨a, hread⟩

/-- An entry that cannot be read spoils the whole table, wherever it stands. -/
theorem decode_eq_malformedOutput {kind : LintKind} {stdout name : String} {v : Json}
    (htable : ∀ r, decode kind stdout = .ok r → ∃ written' found,
      IsObjectText (deepest - 1) written' (Text.trim stdout.toList) ∧
        IsTable identifier reads written' found)
    (hw : IsObjectText (deepest - 1) written (Text.trim stdout.toList)) (hname : name ≠ "")
    (hv : lastOf? name written = some v) (hno : ∀ a, ¬reads name v a) :
    ∃ reason, decode kind stdout = .error (.malformedOutput kind reason) := by
  cases h : decode kind stdout with
  | error e =>
    obtain ⟨reason, rfl⟩ := eq_malformedOutput_of_decode h
    exact ⟨reason, rfl⟩
  | ok r =>
    obtain ⟨written', found, hw', hfound⟩ := htable r h
    rw [lastOf?_eq hw hw'] at hv
    obtain ⟨a, hread⟩ := hfound.exists_reads hname hv
    exact absurd hread (hno a)

theorem IsTable.filter_eq (h : IsTable identifier reads written found) (name : String) :
    found.filter (identifier · == name) = (found.find? (identifier · == name)).toList := by
  have hne : found.Pairwise fun a b => identifier a ≠ identifier b := by
    refine h.sorted.imp ?_
    intro a b hlt heq
    rw [heq] at hlt
    exact List.lt_irrefl _ hlt
  clear h
  induction found with
  | nil => rfl
  | cons a found ih =>
    obtain ⟨hfirst, hrest⟩ := List.pairwise_cons.1 hne
    by_cases hname : identifier a = name
    · have hnone : found.filter (identifier · == name) = [] := by
        rw [List.filter_eq_nil_iff]
        intro b hb heq
        exact hfirst b hb (hname.trans (eq_of_beq heq).symm)
      simp [hname, hnone]
    · simp [hname, ih hrest]

end EviAssist.Lint
