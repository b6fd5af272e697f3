import EviAssist.Proofs.Json.Members
import EviAssist.Proofs.Lint.Decode
import EviAssist.Proofs.Lint.Printout
import EviAssist.Proofs.Text.Utf8
import Mathlib.Data.List.Nodup
import Mathlib.Data.List.Perm.Basic

/-!
# Reading what evi prints

However a value is spelled, it is read as the answer that it stands for. A record is looked at
twice, for its mark and for its fields, and both times only by the names that are known.

* `Lint.IsRecord.memberOf?`: what a record holds under the names that are known.
* `Lint.SpellsNote.readNote_eq`, `Lint.SpellsDiagnostic.decodeDiagnostic_eq`,
  `Lint.SpellsFunction.signature_eq`: records.
* `Lint.SpellsEntries.reads`, `Lint.SpellsTable.normal_eq`: lists and tables.
* `Lint.Printout.decodeValue_eq`: every spelling is read as the answer.
-/

namespace EviAssist.Lint

/-! ## Fields -/

open Shape

theorem SpellsOptional.names_sublist {name : String} {isDefault : Prop} {spells : Json → Prop}
    {fields : List (String × Json)} (h : SpellsOptional name isDefault spells fields) :
    (fields.map (·.1)).Sublist [name] := by
  cases h with
  | written | null => exact .refl _
  | absent => exact List.nil_sublist _

theorem SpellsOptional.memberOf?_ne {name : String} {isDefault : Prop} {spells : Json → Prop}
    {fields : List (String × Json)} (h : SpellsOptional name isDefault spells fields)
    {other : String} (hne : name ≠ other) : Json.memberOf? other fields = none := by
  rw [Json.memberOf?_eq_none_iff]
  intro m hm
  have hname := h.names_sublist.subset (List.mem_map_of_mem hm)
  rw [List.mem_singleton.1 hname]
  exact hne

theorem SpellsOptional.memberOf?_append {name : String} {isDefault : Prop} {spells : Json → Prop}
    {fields : List (String × Json)} (h : SpellsOptional name isDefault spells fields)
    (later : List (String × Json)) {other : String} (hne : name ≠ other) :
    Json.memberOf? other (fields ++ later) = Json.memberOf? other later := by
  rw [Json.memberOf?_append, h.memberOf?_ne hne, Option.none_or]

/-- What a record holds under the names that are known. -/
theorem IsRecord.memberOf? {known : List String} {fields : List (String × Json)} {v : Json}
    (h : IsRecord known fields v) (hn : known.Nodup) (hs : (fields.map (·.1)).Sublist known) :
    ∃ members, v.normal = .object members ∧
      ∀ name ∈ known,
        Json.memberOf? name members = (Json.memberOf? name fields).map Json.normal := by
  obtain ⟨members, others, rfl, hperm, hothers⟩ := h
  refine ⟨_, rfl, fun name hname => ?_⟩
  have hfield : ∀ m ∈ members, m.1 = name → m ∈ fields := by
    intro m hm heq
    rcases List.mem_append.1 (hperm.mem_iff.1 hm) with hm | hm
    · exact hm
    · exact absurd (heq ▸ hname) (hothers m hm).1
  rw [Json.normalMembers_eq_map]
  cases hf : Json.memberOf? name fields with
  | none =>
    refine Json.memberOf?_ofMembers_eq_none fun m hm => ?_
    obtain ⟨m', hm', rfl⟩ := List.mem_map.1 hm
    exact fun heq => Json.memberOf?_eq_none_iff.1 hf m' (hfield m' hm' heq) heq
  | some value =>
    have hvalue := Json.mem_of_memberOf? hf
    refine Json.memberOf?_ofMembers_of_mem ?_ fun m hm heq => ?_
    · exact List.mem_map.2 ⟨_, hperm.mem_iff.2 (List.mem_append_left _ hvalue), rfl⟩
    · obtain ⟨m', hm', rfl⟩ := List.mem_map.1 hm
      have hpair := List.inj_on_of_nodup_map (hs.nodup hn) (hfield m' hm' heq) hvalue heq
      rw [hpair]

/-! ## Numbers, flags and places -/

theorem trim_decimal (n : Nat) : Text.trim (Text.decimal n) = Text.decimal n := by
  have hblank : ∀ c ∈ Text.decimal n, Text.isBlank c = false :=
    fun c hc => Text.isBlank_of_isDigit (Text.isDigit_of_mem_decimal hc)
  have htrim := @Text.trim_append [] (Text.decimal n) []
    (List.forall_mem_nil _) (List.forall_mem_nil _)
    (fun c hc => hblank c (List.mem_of_mem_head? hc))
    (fun c hc => hblank c (List.mem_of_getLast? hc))
  rwa [List.nil_append, List.append_nil] at htrim

theorem SpellsNumber.number_eq {n : UInt32} {v : Json} (h : SpellsNumber n v) :
    Shape.number v.normal = .ok n := by
  rw [number_eq_ok_iff]
  cases h with
  | number => exact .inl rfl
  | digits =>
    refine .inr ⟨_, rfl, ?_⟩
    rw [String.toList_ofList, trim_decimal, Text.readUInt32?_decimal]

theorem SpellsFlag.flag_eq {b : Bool} {v : Json} (h : SpellsFlag b v) :
    Shape.flag v.normal = .ok b := by
  cases h <;> rfl

theorem SpellsOptional.mayHaveField {α : Type} {name : String} {isDefault : Prop}
    {spells : Json → Prop} {fields members : List (String × Json)} {read : Json → Reading α}
    {default a : α} (h : SpellsOptional name isDefault spells fields)
    (hread : ∀ v, spells v → read v.normal = .ok a) (hnull : isDefault → read .null = .ok a)
    (hdefault : isDefault → a = default)
    (hm : Json.memberOf? name members = (Json.memberOf? name fields).map Json.normal) :
    MayHaveField members name read default a := by
  cases h with
  | @written v h =>
    rw [Json.memberOf?_cons_self] at hm
    exact .inr ⟨v.normal, hm, hread v h⟩
  | null h =>
    rw [Json.memberOf?_cons_self] at hm
    exact .inr ⟨.null, hm, hnull h⟩
  | absent h => exact .inl ⟨hm, hdefault h⟩

theorem SpellsOptional.holdsList {name : String} {isDefault : Prop} {spells : Json → Prop}
    {fields members : List (String × Json)} {IsSpelled : List Json → Prop}
    (h : SpellsOptional name isDefault spells fields)
    (hwritten : ∀ v, spells v → ∃ items, v.normal = .array items ∧ IsSpelled items)
    (hdefault : isDefault → IsSpelled [])
    (hm : Json.memberOf? name members = (Json.memberOf? name fields).map Json.normal) :
    ∃ items, HoldsList members name items ∧ IsSpelled items := by
  cases h with
  | @written v hv =>
    obtain ⟨items, hv, hitems⟩ := hwritten v hv
    rw [Json.memberOf?_cons_self, Option.map_some, hv] at hm
    exact ⟨items, .inr hm, hitems⟩
  | null hd =>
    rw [Json.memberOf?_cons_self] at hm
    exact ⟨[], .inl ⟨.inr hm, rfl⟩, hdefault hd⟩
  | absent hd => exact ⟨[], .inl ⟨.inl hm, rfl⟩, hdefault hd⟩

theorem SpellsPlace.placeOfMembers_eq {p : PrintedPlace} {fields members : List (String × Json)}
    (h : SpellsPlace p fields)
    (hm : ∀ name ∈ ["file", "line", "column", "length"],
      Json.memberOf? name members = (Json.memberOf? name fields).map Json.normal) :
    placeOfMembers members = .ok p.position := by
  obtain ⟨line, column, length, hline, hcolumn, hlength, rfl⟩ := h
  simp only [List.forall_mem_cons, Json.memberOf?_cons] at hm
  obtain ⟨hfile', hline', hcolumn', hlength', -⟩ := hm
  exact placeOfMembers_eq_ok_iff.2 ⟨p.file, p.line, p.column, p.length, ⟨_, hfile', rfl⟩,
    ⟨_, hline', hline.number_eq⟩, ⟨_, hcolumn', hcolumn.number_eq⟩,
    ⟨_, hlength', hlength.number_eq⟩, rfl⟩

/-! ## Records -/

theorem SpellsInvalid.marker_eq {v : Json} (h : SpellsInvalid v) : marker v.normal = .ok true := by
  obtain ⟨mark, hmark, hrecord⟩ := h
  obtain ⟨members, hv, hm⟩ := hrecord.memberOf? (by decide) (.refl _)
  rw [hv, marker_object]
  exact .inr ⟨_, hm "invalid" (by decide), hmark.flag_eq⟩

theorem SpellsValid.marker_eq {mark members : List (String × Json)} (h : SpellsValid mark)
    (hm : Json.memberOf? "invalid" members = (Json.memberOf? "invalid" mark).map Json.normal) :
    marker (.object members) = .ok false :=
  marker_object.2 (h.mayHaveField (fun _ hv => hv.flag_eq) (fun _ => rfl) (fun _ => rfl) hm)

theorem SpellsPlace.memberOf?_ne {p : PrintedPlace} {fields : List (String × Json)}
    (h : SpellsPlace p fields) {name : String} (hn : name ∉ ["file", "line", "column", "length"]) :
    Json.memberOf? name fields = none := by
  obtain ⟨line, column, length, -, -, -, rfl⟩ := h
  rw [Json.memberOf?_eq_none_iff]
  rintro m hm rfl
  exact hn (List.mem_map_of_mem hm)

theorem SpellsPlace.names_eq {p : PrintedPlace} {fields : List (String × Json)}
    (h : SpellsPlace p fields) : fields.map (·.1) = ["file", "line", "column", "length"] := by
  obtain ⟨line, column, length, -, -, -, rfl⟩ := h
  rfl

theorem SpellsDeclaration.decodeDeclaration_eq {p : PrintedPlace} {v : Json}
    (h : SpellsDeclaration p v) : decodeDeclaration v.normal = .ok (some p.position) := by
  obtain ⟨mark, place, hmark, hplace, hrecord⟩ := h
  have hnames : ((mark ++ place).map (·.1)).Sublist placeNames := by
    rw [List.map_append, hplace.names_eq]
    exact hmark.names_sublist.append (.refl _)
  obtain ⟨members, hv, hm⟩ := hrecord.memberOf? (by decide) hnames
  have hinvalid : marker (.object members) = .ok false := by
    refine hmark.marker_eq ((hm "invalid" (by decide)).trans ?_)
    rw [Json.memberOf?_append, hplace.memberOf?_ne (by decide), Option.or_none]
  have hposition : placeOfMembers members = .ok p.position := by
    refine hplace.placeOfMembers_eq fun name hname => ?_
    rw [hm name (.tail _ hname), hmark.memberOf?_append]
    rintro rfl
    exact absurd hname (by decide)
  have hne : members ≠ [] := by
    rintro rfl
    cases hposition
  refine decodeDeclaration_eq_ok_iff.2 (.inr ⟨hv ▸ hinvalid, .inr ⟨?_, _, ?_, rfl⟩⟩)
  · rw [hv]
    exact fun heq => hne (Json.object.inj heq)
  · rw [hv]
    exact hposition

theorem SpellsNote.readNote_eq {n : PrintedNote} {v : Json} (h : SpellsNote n v) :
    marker v.normal = .ok false ∧ readNote v.normal = .ok n.note := by
  obtain ⟨mark, place, hmark, hplace, hrecord⟩ := h
  have hnames : ((mark ++ ("message", Json.text n.message) :: place).map (·.1)).Sublist
      noteNames := by
    rw [List.map_append, List.map_cons, hplace.names_eq]
    exact hmark.names_sublist.append (.refl _)
  obtain ⟨members, hv, hm⟩ := hrecord.memberOf? (by decide) hnames
  have hinvalid : marker (.object members) = .ok false := by
    refine hmark.marker_eq ((hm "invalid" (by decide)).trans ?_)
    rw [Json.memberOf?_append, Json.memberOf?_cons_ne (by decide),
      hplace.memberOf?_ne (by decide), Option.or_none]
  have hmessage := hm "message" (by decide)
  rw [hmark.memberOf?_append _ (by decide), Json.memberOf?_cons_self] at hmessage
  have hposition : placeOfMembers members = .ok n.place.position := by
    refine hplace.placeOfMembers_eq fun name hname => ?_
    have hne : "invalid" ≠ name ∧ "message" ≠ name := by
      constructor <;> (rintro rfl; exact absurd hname (by decide))
    rw [hm name (.tail _ (.tail _ hname)), hmark.memberOf?_append _ hne.1,
      Json.memberOf?_cons_ne hne.2]
  rw [hv]
  exact ⟨hinvalid, readNote_eq_ok_iff.2 ⟨members, rfl, ⟨_, hmessage, rfl⟩, hposition⟩⟩

/-- Entries that are marked are left out, and the others are read in their order. -/
theorem SpellsEntries.reads {α β : Type} {spells : α → Json → Prop}
    {read : Json → Except Malformed β} {f : α → β} {entries : List (Option α)} {v : Json}
    (h : SpellsEntries spells entries v)
    (hread : ∀ a v, spells a v → marker v.normal = .ok false ∧ read v.normal = .ok (f a)) :
    ∃ items, v.normal = .array items ∧
      List.Forall₂ (ReadsEntry read) items (entries.map (Option.map f)) := by
  obtain ⟨items, rfl, hitems⟩ := h
  refine ⟨_, congrArg _ (Json.normalItems_eq_map items), ?_⟩
  rw [List.forall₂_map_left_iff, List.forall₂_map_right_iff]
  refine hitems.flip.imp fun v entry hentry => ?_
  cases entry with
  | none => exact hentry.marker_eq
  | some a => exact hread a v hentry

theorem SpellsDiagnostic.decodeDiagnostic_eq {d : PrintedDiagnostic} {v : Json}
    (h : SpellsDiagnostic d v) :
    marker v.normal = .ok false ∧ decodeDiagnostic v.normal = .ok d.diagnostic := by
  obtain ⟨mark, notes, place, hmark, hnotes, hplace, hrecord⟩ := h
  have hnames : ((mark ++ notes ++ ("message", Json.text d.message) ::
      ("type", Json.text d.severity.name) :: place).map (·.1)).Sublist diagnosticNames := by
    rw [List.map_append, List.map_append, List.map_cons, List.map_cons, hplace.names_eq]
    exact (hmark.names_sublist.append hnotes.names_sublist).append (.refl _)
  obtain ⟨members, hv, hm⟩ := hrecord.memberOf? (by decide) hnames
  rw [List.append_assoc] at hm
  have hinvalid : marker (.object members) = .ok false := by
    refine hmark.marker_eq ((hm "invalid" (by decide)).trans ?_)
    rw [Json.memberOf?_append, hnotes.memberOf?_append _ (by decide),
      Json.memberOf?_cons_ne (by decide), Json.memberOf?_cons_ne (by decide),
      hplace.memberOf?_ne (by decide), Option.or_none]
  have hmessage := hm "message" (by decide)
  rw [hmark.memberOf?_append _ (by decide), hnotes.memberOf?_append _ (by decide),
    Json.memberOf?_cons_self] at hmessage
  have htype := hm "type" (by decide)
  rw [hmark.memberOf?_append _ (by decide), hnotes.memberOf?_append _ (by decide),
    Json.memberOf?_cons_ne (by decide), Json.memberOf?_cons_self] at htype
  have hseverity : HasField members "type" severity d.severity :=
    ⟨_, htype, severity_eq_ok_iff.2 (.inl rfl)⟩
  have hposition : placeOfMembers members = .ok d.place.position := by
    refine hplace.placeOfMembers_eq fun name hname => ?_
    have hne : "invalid" ≠ name ∧ "related" ≠ name ∧ "message" ≠ name ∧ "type" ≠ name := by
      refine ⟨?_, ?_, ?_, ?_⟩ <;> (rintro rfl; exact absurd hname (by decide))
    rw [hm name (.tail _ (.tail _ (.tail _ (.tail _ hname)))), hmark.memberOf?_append _ hne.1,
      hnotes.memberOf?_append _ hne.2.1, Json.memberOf?_cons_ne hne.2.2.1,
      Json.memberOf?_cons_ne hne.2.2.2]
  have hrelated : Json.memberOf? "related" members = (Json.memberOf? "related" notes).map
      Json.normal := by
    rw [hm "related" (by decide), hmark.memberOf?_append _ (by decide), Json.memberOf?_append,
      Json.memberOf?_cons_ne (by decide), Json.memberOf?_cons_ne (by decide),
      hplace.memberOf?_ne (by decide), Option.or_none]
  obtain ⟨items, hitems, hentries⟩ := hnotes.holdsList
    (fun _ hw => hw.reads fun _ _ hn => hn.readNote_eq) (fun hnil => hnil ▸ .nil) hrelated
  rw [hv]
  exact ⟨hinvalid, decodeDiagnostic_eq_ok_iff.2 ⟨members, items, _, rfl, ⟨_, hmessage, rfl⟩,
    hseverity, hposition, hitems, hentries, List.reduceOption_map.symm⟩⟩

/-! ## Tables -/

theorem SpellsFunction.signature_eq {f : FunctionSignature} {v : Json} (h : SpellsFunction f v) :
    signature f.identifier v.normal = .ok f := by
  obtain ⟨name, parameters, variadic, hname, hparameters, hvariadic, hrecord⟩ := h
  have hnames : (((name, Json.text f.returnType) :: parameters ++ variadic).map (·.1)).Sublist
      functionNames := by
    have hone : [name].Sublist ["return type", "return_type"] := by
      rcases hname with rfl | rfl <;> decide
    rw [List.map_append, List.map_cons]
    exact (hone.append hparameters.names_sublist).append hvariadic.names_sublist
  obtain ⟨members, hv, hm⟩ := hrecord.memberOf? (by decide) hnames
  simp only [List.cons_append, Json.memberOf?_append, Json.memberOf?_cons] at hm
  have hother : ∀ other, "parameters" ≠ other → "variadic" ≠ other →
      (Json.memberOf? other parameters).or (Json.memberOf? other variadic) = none := by
    intro other hp hv
    rw [hparameters.memberOf?_ne hp, hvariadic.memberOf?_ne hv]
    rfl
  have hreturn : returnType members = .ok (some f.returnType) := by
    have hspaced := hm "return type" (by decide)
    have hjoined := hm "return_type" (by decide)
    rw [hother _ (by decide) (by decide)] at hspaced hjoined
    rw [returnType_eq_ok_iff]
    rcases hname with rfl | rfl
    · exact .inl ⟨hspaced, hjoined⟩
    · exact .inr ⟨hspaced, hjoined⟩
  have hne : name ≠ "parameters" ∧ name ≠ "variadic" := by
    rcases hname with rfl | rfl <;> decide
  have hlist : HoldsList members "parameters" (f.parameters.map .text) := by
    have hp := hm "parameters" (by decide)
    rw [if_neg hne.1, hvariadic.memberOf?_ne (by decide), Option.or_none] at hp
    have hwritten : ∀ w : Json, w = .array (f.parameters.map .text) →
        ∃ items, w.normal = .array items ∧ items = f.parameters.map Json.text := by
      rintro _ rfl
      exact ⟨_, congrArg _ (Json.normalItems_eq_map _), List.map_map⟩
    obtain ⟨items, hitems, rfl⟩ :=
      hparameters.holdsList hwritten (fun hnil => by rw [hnil]; rfl) hp
    exact hitems
  have hflag : MayHaveField members "variadic" flag false f.variadic := by
    have hv := hm "variadic" (by decide)
    rw [if_neg hne.2, hparameters.memberOf?_ne (by decide), Option.none_or] at hv
    exact hvariadic.mayHaveField (fun _ h => h.flag_eq) (fun h => by rw [h]; rfl) id hv
  rw [hv, signature_object]
  exact ⟨rfl, hreturn, hlist, hflag⟩

theorem encode_le_iff {a b : String} :
    Utf8.encode a.toList ≤ Utf8.encode b.toList ↔ a ≤ b := by
  rw [← List.not_lt, Utf8.encode_lt_encode_iff, ← String.lt_iff_toList_lt, not_lt]

theorem named_eq {α : Type} {name : α → String} {symbols sorted : List α}
    (hp : sorted.Perm symbols) (hs : sorted.Pairwise fun a b => name a < name b) :
    named name symbols = sorted.filter (name · ≠ "") := by
  have hinj : ∀ a ∈ sorted, ∀ b ∈ sorted, name a = name b → a = b := by
    have hnodup : (sorted.map name).Nodup :=
      List.pairwise_map.2 (hs.imp fun hlt => hlt.ne)
    exact fun a ha b hb => List.inj_on_of_nodup_map hnodup ha hb
  have hsub : ∀ {a}, a ∈ named name symbols → a ∈ sorted := by
    intro a ha
    rw [named, List.mem_mergeSort] at ha
    exact hp.mem_iff.2 (List.mem_of_mem_filter ha)
  refine @List.Perm.eq_of_pairwise α (fun a b => name a ≤ name b) _ _ ?_ ?_ ?_ ?_
  · intro a b ha hb hab hba
    exact hinj a (hsub ha) b (List.mem_of_mem_filter hb) (le_antisymm hab hba)
  · have hpair := @List.pairwise_mergeSort α
      (fun a b => decide (Utf8.encode (name a).toList ≤ Utf8.encode (name b).toList)) ?_ ?_
      (symbols.filter (name · ≠ ""))
    · exact hpair.imp fun h => encode_le_iff.1 (of_decide_eq_true h)
    · intro a b c hab hbc
      simp only [decide_eq_true_eq, encode_le_iff] at *
      exact hab.trans hbc
    · intro a b
      simp only [Bool.or_eq_true, decide_eq_true_eq, encode_le_iff]
      exact le_total _ _
  · exact (hs.filter _).imp fun h => h.le
  · exact (List.mergeSort_perm _ _).trans (hp.symm.filter _)

/-- A table is read in the order of its names. -/
theorem SpellsTable.normal_eq {α : Type} {name : α → String} {spells : α → Json → Prop}
    {symbols : List α} {v : Json} (h : SpellsTable name spells symbols v) :
    ∃ members sorted, v.normal = .object members ∧
      named name symbols = sorted.filter (name · ≠ "") ∧
      List.Forall₂ (fun m a => m.1 = name a ∧ ∃ w, spells a w ∧ m.2 = w.normal) members sorted := by
  obtain ⟨hnodup, written, rfl, hwritten⟩ := h
  have hnormal : List.Forall₂ (fun m a => m.1 = name a ∧ ∃ w, spells a w ∧ m.2 = w.normal)
      (Json.normalMembers written) symbols := by
    rw [Json.normalMembers_eq_map, List.forall₂_map_left_iff]
    exact hwritten.flip.imp fun m a ⟨hname, hspells⟩ => ⟨hname, m.2, hspells, rfl⟩
  have hnames : ∀ {members : List (String × Json)} {sorted : List α},
      List.Forall₂ (fun m a => m.1 = name a ∧ ∃ w, spells a w ∧ m.2 = w.normal) members sorted →
        sorted.map name = members.map (·.1) := by
    intro members sorted hall
    induction hall with
    | nil => rfl
    | cons hm _ ih => rw [List.map_cons, List.map_cons, ih, hm.1]
  have hperm := Json.ofMembers_perm (hnames hnormal ▸ hnodup)
  obtain ⟨sorted, hsorted, hp⟩ := List.perm_comp_forall₂ hperm hnormal
  refine ⟨_, sorted, rfl, named_eq hp ?_, hsorted⟩
  have hpair : (sorted.map name).Pairwise (· < ·) := by
    rw [hnames hsorted]
    exact List.pairwise_map.2 (Json.ofMembers_sorted _)
  exact List.pairwise_map.1 hpair

namespace Printout

/-- **Every spelling of a value is read as the answer it stands for.** -/
theorem decodeValue_eq {p : Printout} {v : Json} (h : p.Spells v) :
    decodeValue p.kind v.normal = .ok p.result := by
  rw [decodeValue_eq_ok_iff]
  match p with
  | declaration none =>
    refine ⟨rfl, decodeDeclaration_eq_ok_iff.2 ?_⟩
    rcases h with h | rfl
    · exact .inl ⟨h.marker_eq, rfl⟩
    · exact .inr ⟨rfl, .inl ⟨rfl, rfl⟩⟩
  | declaration (some place) => exact ⟨rfl, SpellsDeclaration.decodeDeclaration_eq h⟩
  | diagnostics entries =>
    obtain ⟨items, hv, hentries⟩ := SpellsEntries.reads h fun _ _ hd => hd.decodeDiagnostic_eq
    exact ⟨rfl, decodeDiagnostics_eq_ok_iff.2 ⟨_, _, hv, hentries, List.reduceOption_map.symm⟩⟩
  | knownFunctions found =>
    obtain ⟨members, sorted, hv, hnamed, hall⟩ := SpellsTable.normal_eq h
    refine ⟨rfl, decodeFunctions_eq_ok_iff.2 ⟨members, hv, ?_⟩⟩
    rw [hnamed]
    refine (List.rel_filter ?_ hall).imp ?_
    · rintro m f ⟨hname, -⟩
      simp [hname]
    · rintro m f ⟨hname, w, hw, hm⟩
      rw [hname, hm]
      exact hw.signature_eq
  | knownVariables found =>
    obtain ⟨members, sorted, hv, hnamed, hall⟩ := SpellsTable.normal_eq h
    refine ⟨rfl, decodeVariables_eq_ok_iff.2 ⟨members, sorted, hv, hall.imp ?_, hnamed⟩⟩
    rintro m x ⟨hname, w, rfl, hm⟩
    exact ⟨hname.symm, hm⟩

end Printout

end EviAssist.Lint
