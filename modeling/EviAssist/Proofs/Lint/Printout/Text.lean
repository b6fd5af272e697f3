import EviAssist.Proofs.Json.Printer
import EviAssist.Proofs.Lint.Printout.Reading

/-!
# Texts of what evi prints

No value that evi prints nests deeper than the parser allows, so every text of it is read.

* `Lint.Printout.Spells.depth_le`: how deep the spellings of a value nest.
* `Lint.Printout.decode_eq_result`: every text of a value is read as the answer it stands for.
-/

namespace EviAssist.Lint

/-! ## Depth -/

theorem SpellsNumber.depth_eq {n : UInt32} {v : Json} (h : SpellsNumber n v) : v.depth = 0 := by
  cases h <;> rfl

theorem SpellsFlag.depth_eq {b : Bool} {v : Json} (h : SpellsFlag b v) : v.depth = 0 := by
  cases h <;> rfl

theorem SpellsOptional.depth_le {name : String} {isDefault : Prop} {spells : Json → Prop}
    {fields : List (String × Json)} (h : SpellsOptional name isDefault spells fields) {d : Nat}
    (hd : ∀ v, spells v → v.depth ≤ d) : ∀ m ∈ fields, m.2.depth ≤ d := by
  cases h with
  | @written v h => simpa using hd v h
  | null h => simp [Json.depth]
  | absent h => nofun

theorem SpellsPlace.depth_eq {p : PrintedPlace} {fields : List (String × Json)}
    (h : SpellsPlace p fields) : ∀ m ∈ fields, m.2.depth = 0 := by
  obtain ⟨line, column, length, hline, hcolumn, hlength, rfl⟩ := h
  simp [hline.depth_eq, hcolumn.depth_eq, hlength.depth_eq, Json.depth]

/-- A record nests deeper than its fields by one, and what else it holds is as deep as may be. -/
theorem IsRecord.depth_le {known : List String} {fields : List (String × Json)} {v : Json}
    (h : IsRecord known fields v) {d : Nat} (hd : Json.deepest ≤ d + 4)
    (hf : ∀ m ∈ fields, m.2.depth ≤ d) : v.depth ≤ d + 1 := by
  obtain ⟨members, others, rfl, hperm, hothers⟩ := h
  rw [Json.depth, Nat.add_le_add_iff_right, Json.depthMembers_le_iff]
  intro m hm
  rcases List.mem_append.1 (hperm.mem_iff.1 hm) with hm | hm
  · exact hf m hm
  · have := (hothers m hm).2
    omega

theorem SpellsValid.depth_le {fields : List (String × Json)} (h : SpellsValid fields) (d : Nat) :
    ∀ m ∈ fields, m.2.depth ≤ d :=
  SpellsOptional.depth_le h fun _ hv => hv.depth_eq.trans_le d.zero_le

theorem SpellsInvalid.depth_le {v : Json} (h : SpellsInvalid v) : v.depth ≤ 124 := by
  obtain ⟨mark, hmark, hrecord⟩ := h
  refine hrecord.depth_le (by decide) ?_
  simp [hmark.depth_eq]

theorem SpellsDeclaration.depth_le {p : PrintedPlace} {v : Json} (h : SpellsDeclaration p v) :
    v.depth ≤ 124 := by
  obtain ⟨mark, place, hmark, hplace, hrecord⟩ := h
  refine hrecord.depth_le (by decide) fun m hm => ?_
  rcases List.mem_append.1 hm with hm | hm
  · exact hmark.depth_le _ m hm
  · exact (hplace.depth_eq m hm).trans_le (by decide)

theorem SpellsNote.depth_le {n : PrintedNote} {v : Json} (h : SpellsNote n v) : v.depth ≤ 124 := by
  obtain ⟨mark, place, hmark, hplace, hrecord⟩ := h
  refine hrecord.depth_le (by decide) fun m hm => ?_
  rcases List.mem_append.1 hm with hm | _ | ⟨_, hm⟩
  · exact hmark.depth_le _ m hm
  · exact Nat.zero_le _
  · exact (hplace.depth_eq m hm).trans_le (by decide)

theorem SpellsEntries.depth_le {α : Type} {spells : α → Json → Prop} {entries : List (Option α)}
    {v : Json} (h : SpellsEntries spells entries v) {d : Nat} (hd : 124 ≤ d)
    (hspells : ∀ a v, spells a v → v.depth ≤ d) : v.depth ≤ d + 1 := by
  obtain ⟨items, rfl, hitems⟩ := h
  rw [Json.depth, Nat.add_le_add_iff_right, Json.depthItems_le_iff]
  intro item hitem
  obtain ⟨entry, hentry⟩ : ∃ entry, SpellsEntry spells entry item := by
    obtain ⟨i, hi, rfl⟩ := List.mem_iff_getElem.1 hitem
    exact ⟨_, hitems.get (hitems.length_eq ▸ hi) hi⟩
  cases entry with
  | none => exact hentry.depth_le.trans hd
  | some a => exact hspells a item hentry

theorem SpellsDiagnostic.depth_le {d : PrintedDiagnostic} {v : Json} (h : SpellsDiagnostic d v) :
    v.depth ≤ 126 := by
  obtain ⟨mark, notes, place, hmark, hnotes, hplace, hrecord⟩ := h
  refine hrecord.depth_le (by decide) fun m hm => ?_
  rcases List.mem_append.1 hm with hm | _ | ⟨_, _ | ⟨_, hm⟩⟩
  · rcases List.mem_append.1 hm with hm | hm
    · exact hmark.depth_le _ m hm
    · exact hnotes.depth_le (fun _ hv => hv.depth_le le_rfl fun _ _ hn => hn.depth_le) m hm
  · exact Nat.zero_le _
  · exact Nat.zero_le _
  · exact (hplace.depth_eq m hm).trans_le (by decide)

theorem SpellsFunction.depth_le {f : FunctionSignature} {v : Json} (h : SpellsFunction f v) :
    v.depth ≤ 124 := by
  obtain ⟨name, parameters, variadic, -, hparameters, hvariadic, hrecord⟩ := h
  have hlist : ∀ v, v = Json.array (f.parameters.map .text) → v.depth ≤ 123 := by
    rintro _ rfl
    rw [Json.depth]
    have htexts : Json.depthItems (f.parameters.map .text) ≤ 0 :=
      Json.depthItems_le_iff.2 fun item hitem => by
        obtain ⟨s, -, rfl⟩ := List.mem_map.1 hitem
        exact le_rfl
    omega
  refine hrecord.depth_le (by decide) fun m hm => ?_
  rcases List.mem_append.1 hm with hm | hm
  · rcases List.mem_cons.1 hm with rfl | hm
    · exact Nat.zero_le _
    · exact hparameters.depth_le hlist m hm
  · exact hvariadic.depth_le (fun _ hv => hv.depth_eq.trans_le (by decide)) m hm

theorem SpellsTable.depth_le {α : Type} {name : α → String} {spells : α → Json → Prop}
    {symbols : List α} {v : Json} (h : SpellsTable name spells symbols v) {d : Nat}
    (hspells : ∀ a v, spells a v → v.depth ≤ d) : v.depth ≤ d + 1 := by
  obtain ⟨-, members, rfl, hmembers⟩ := h
  rw [Json.depth, Nat.add_le_add_iff_right, Json.depthMembers_le_iff]
  intro m hm
  obtain ⟨i, hi, rfl⟩ := List.mem_iff_getElem.1 hm
  exact hspells _ _ (hmembers.get (hmembers.length_eq ▸ hi) hi).2

namespace Printout

theorem Spells.depth_le {p : Printout} {v : Json} (h : p.Spells v) : v.depth ≤ Json.deepest := by
  match p with
  | declaration none =>
    rcases h with h | rfl
    · exact h.depth_le.trans (by decide)
    · decide
  | declaration (some place) => exact (SpellsDeclaration.depth_le h).trans (by decide)
  | diagnostics entries =>
    exact SpellsEntries.depth_le h (by decide) fun _ _ hd => hd.depth_le
  | knownFunctions found =>
    exact (SpellsTable.depth_le h fun _ _ hf => hf.depth_le).trans (by decide)
  | knownVariables found =>
    refine (SpellsTable.depth_le h ?_ (d := 0)).trans (by decide)
    rintro x _ rfl
    exact le_rfl

/-! ## Texts -/

/-- **Every text of a value, with blanks around it, is read as the answer it stands for.** -/
theorem decode_eq_result {p : Printout} {v : Json} {before text after : List Char} (h : p.Spells v)
    (ht : v.Writes text) (hb : ∀ c ∈ before ++ after, Text.isBlank c = true) :
    decode p.kind (String.ofList (before ++ text ++ after)) = .ok p.result := by
  have htrim : Text.trim (before ++ text ++ after) = text := by
    refine Text.trim_append (fun c hc => hb c (List.mem_append_left _ hc))
      (fun c hc => hb c (List.mem_append_right _ hc)) ?_ ?_
    · obtain ⟨c, u, rfl, hc⟩ := ht.opens
      rintro _ ⟨⟩
      exact hc.isBlank_eq
    · obtain ⟨u, c, rfl, hc⟩ := ht.closes
      simpa using hc.isBlank_eq
  rw [decode, String.toList_ofList, htrim, Json.parse?_of_writes ht h.depth_le]
  simp only [decodeValue_eq h]
  rfl

/-- Two diagnostics, the first of which evi could not fill in, nor the last note of the second. -/
def redefinition : Json :=
  .array [.object [("invalid", .text "true")],
    .object [("length", .text "3"), ("column", .nat 1), ("line", .text "7"),
      ("file", .text "/src/a.evi"), ("type", .text "error"), ("message", .text "redefinition"),
      ("related", .array [
        .object [("length", .nat 3), ("column", .text "1"), ("line", .nat 0),
          ("file", .text "/src/a.evi"), ("message", .text "previous")],
        .object [("invalid", .bool true)]])]]

/-- What evi could not fill in is left out, and line zero stays zero. -/
theorem decode_redefinition :
    decode .diagnostics ("\n" ++ Json.compact redefinition ++ " ") =
      .ok (.diagnostics [⟨⟨⟨"/src/a.evi"⟩, 6, 1, 3⟩, "redefinition", .error,
        [⟨⟨⟨"/src/a.evi"⟩, 0, 1, 3⟩, "previous"⟩]⟩]) := by
  have hinvalid {b : Json} (hb : SpellsFlag true b) : SpellsInvalid (.object [("invalid", b)]) :=
    ⟨b, hb, _, [], rfl, .refl _, nofun⟩
  have hnote : SpellsNote ⟨⟨"/src/a.evi", 0, 1, 3⟩, "previous"⟩ _ :=
    ⟨[], _, .absent trivial, ⟨_, _, _, .number, .digits, .number, rfl⟩, _, [], rfl,
      List.reverse_perm _, nofun⟩
  have hdiagnostic : SpellsDiagnostic ⟨⟨"/src/a.evi", 7, 1, 3⟩, "redefinition", .error,
      [some ⟨⟨"/src/a.evi", 0, 1, 3⟩, "previous"⟩, none]⟩ _ :=
    ⟨[], _, _, .absent trivial,
      .written ⟨_, rfl, .cons hnote (.cons (hinvalid (.flag true)) .nil)⟩,
      ⟨_, _, _, .digits, .number, .digits, rfl⟩, _, [], rfl, List.reverse_perm _, nofun⟩
  have hspells : Spells (.diagnostics [none, some _]) redefinition :=
    ⟨_, rfl, .cons (hinvalid .true) (.cons hdiagnostic .nil)⟩
  have hblank : ∀ c ∈ ['\n'] ++ [' '], Text.isBlank c = true :=
    List.all_eq_true.1 rfl
  have h := decode_eq_result hspells (Json.writes_write redefinition rfl) hblank
  simp only [String.ofList_append] at h
  exact h

end Printout

end EviAssist.Lint
