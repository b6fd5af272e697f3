import EviAssist.Proofs.Uri

/-!
# Paths of URIs

A URI is taken apart into its scheme, its authority, its path, its query and its fragment. Of a
`file:` URI with an authority all that follows `file://` is read as a path, without `localhost` at
its beginning; so the path of the URI is what is read only where nothing else is there.

* `Uri.toText_ofText`: the parts of a text, put together, are the text.
* `Uri.percentBytes?_append`, `Uri.eq_nil_of_percentDecode?_append`: escaped texts one after
  another.
* `Uri.toPath?_eq_some_iff`: what is read of a URI, in terms of its parts.
* `Uri.Parts.IsPath`, `Uri.Parts.IsBare`: the path in a reference to a local file, and references
  with nothing else.
* `Uri.reads_path_iff_isBare`: when the path of a URI is what is read.
-/

namespace EviAssist.Uri

variable {c : Char} {cs rest : List Char} {u : Parts} {p : Path}

/-! ## References put together -/

/-- A part after its mark, or nothing. -/
def marked (mark : Char) : Option (List Char) → List Char
  | some part => mark :: part
  | none => []

/-- What follows the path: the query and the fragment, each after its mark. -/
def Parts.afterPath (u : Parts) : List Char :=
  marked '?' u.query ++ marked '#' u.fragment

/-- The parts put together. -/
def Parts.toText (u : Parts) : List Char :=
  u.scheme.elim [] (· ++ [':']) ++ (u.authority.elim [] ('/' :: '/' :: ·) ++ u.path) ++ u.afterPath

theorem cutAt_append {p : Char → Bool} {start : List Char} (h : ∀ c ∈ start, p c = false)
    (cs : List Char) : cutAt p (start ++ cs) = (start ++ (cutAt p cs).1, (cutAt p cs).2) := by
  have hpos : ∀ c ∈ start, (!p c) = true := by simpa using h
  unfold cutAt
  rw [List.dropWhile_append_of_pos hpos, List.takeWhile_append_of_pos hpos]
  split <;> rfl

theorem cutAt_eq_some {p : Char → Bool} {before after : List Char}
    (h : cutAt p cs = (before, some after)) :
    ∃ c, p c = true ∧ cs = before ++ c :: after := by
  have hcs := List.takeWhile_append_dropWhile (p := fun c => !p c) (l := cs)
  unfold cutAt at h
  split at h
  · cases h
  · rename_i c rest hdrop
    cases h
    have hc := List.head?_dropWhile_not (fun c => !p c) cs
    rw [hdrop] at hc hcs
    exact ⟨c, by simpa using hc, hcs.symm⟩

theorem cutAt_eq_none {p : Char → Bool} {before : List Char} (h : cutAt p cs = (before, none)) :
    before = cs := by
  unfold cutAt at h
  split at h <;> cases h
  rfl

theorem append_marked_cutAt (c : Char) (cs : List Char) :
    (cutAt (· == c) cs).1 ++ marked c (cutAt (· == c) cs).2 = cs := by
  cases h : cutAt (· == c) cs with
  | mk before after =>
    cases after with
    | none => rw [cutAt_eq_none h, marked, List.append_nil]
    | some after =>
      obtain ⟨d, hd, rfl⟩ := cutAt_eq_some h
      rw [beq_iff_eq.1 hd, marked]

/-- The scheme of a text and what follows its colon, or the whole text. -/
def cutScheme (cs : List Char) : Option (List Char) × List Char :=
  match cutAt (fun c => c == ':' || c == '/') cs with
  | (start, some after) =>
    if (cs.drop start.length).head? == some ':' then (some start, after) else (none, cs)
  | (_, none) => (none, cs)

/-- The authority after a double slash and what follows it, or the whole text. -/
def cutAuthority (cs : List Char) : Option (List Char) × List Char :=
  match cs with
  | '/' :: '/' :: after => (some (after.takeWhile (· != '/')), after.dropWhile (· != '/'))
  | _ => (none, cs)

theorem append_cutScheme (cs : List Char) :
    (cutScheme cs).1.elim [] (· ++ [':']) ++ (cutScheme cs).2 = cs := by
  unfold cutScheme
  split
  · rename_i start after h
    obtain ⟨c, -, rfl⟩ := cutAt_eq_some h
    split
    · rename_i hc
      rw [List.drop_left, List.head?_cons, beq_iff_eq, Option.some.injEq] at hc
      simp [hc]
    · rfl
  · rfl

theorem append_cutAuthority (cs : List Char) :
    (cutAuthority cs).1.elim [] ('/' :: '/' :: ·) ++ (cutAuthority cs).2 = cs := by
  unfold cutAuthority
  split
  · exact congrArg ('/' :: '/' :: ·) List.takeWhile_append_dropWhile
  · rfl

theorem head?_cutAuthority {host : List Char} (h : (cutAuthority cs).1 = some host) :
    ∀ c ∈ (cutAuthority cs).2.head?, c = '/' := by
  unfold cutAuthority at h ⊢
  split at h
  · rename_i after
    intro c hc
    have hne := List.head?_dropWhile_not (· != '/') after
    rw [hc] at hne
    simpa using hne
  · cases h

/-- The text before the query and the fragment. -/
def beforeQuery (cs : List Char) : List Char :=
  (cutAt (· == '?') (cutAt (· == '#') cs).1).1

theorem ofText_eq (cs : List Char) :
    Parts.ofText cs =
      { scheme := (cutScheme (beforeQuery cs)).1
        authority := (cutAuthority (cutScheme (beforeQuery cs)).2).1
        path := (cutAuthority (cutScheme (beforeQuery cs)).2).2
        query := (cutAt (· == '?') (cutAt (· == '#') cs).1).2
        fragment := (cutAt (· == '#') cs).2 } := by
  unfold Parts.ofText beforeQuery cutScheme
  rcases cutAt (· == '#') cs with ⟨before, fragment⟩
  dsimp only
  rcases cutAt (· == '?') before with ⟨start, query⟩
  dsimp only
  rcases cutAt (fun c => c == ':' || c == '/') start with ⟨scheme, _ | after⟩
  · rfl
  · dsimp only
    split <;> rfl

/-- **The parts of a text, put together, are the text.** -/
theorem toText_ofText (cs : List Char) : (Parts.ofText cs).toText = cs := by
  rw [ofText_eq, Parts.toText, Parts.afterPath]
  dsimp only
  rw [append_cutAuthority, append_cutScheme, beforeQuery, ← List.append_assoc,
    append_marked_cutAt, append_marked_cutAt]

/-! ## File URIs -/

theorem beforeQuery_append {start : List Char} (hfragment : '#' ∉ start) (hquery : '?' ∉ start)
    (cs : List Char) : beforeQuery (start ++ cs) = start ++ beforeQuery cs := by
  have hne {d : Char} (h : d ∉ start) : ∀ c ∈ start, (c == d) = false :=
    fun c hc => beq_eq_false_iff_ne.2 fun hd => h (hd ▸ hc)
  rw [beforeQuery, cutAt_append (hne hfragment), cutAt_append (hne hquery), beforeQuery]

/-- The parts of a URI. -/
def parts (uri : Uri) : Parts :=
  Parts.ofText uri.text.toList

theorem toList_eq_append_iff {uri : Uri} {rest : List Char} :
    uri.text.toList = "file://".toList ++ rest ↔
      uri.parts.scheme = some "file".toList ∧
        ∃ host, uri.parts.authority = some host ∧
          rest = host ++ (uri.parts.path ++ uri.parts.afterPath) := by
  have hput {host : List Char} (hs : uri.parts.scheme = some "file".toList)
      (ha : uri.parts.authority = some host) :
      "file://".toList ++ (host ++ (uri.parts.path ++ uri.parts.afterPath)) = uri.text.toList := by
    have htext : uri.parts.toText = uri.text.toList := toText_ofText _
    rw [Parts.toText, hs, ha] at htext
    simpa using htext
  constructor
  · intro h
    have hscheme : uri.parts.scheme = some "file".toList := by
      rw [parts, h, ofText_eq, beforeQuery_append (by decide) (by decide)]
      rfl
    obtain ⟨host, ha⟩ : ∃ host, uri.parts.authority = some host := by
      rw [parts, h, ofText_eq, beforeQuery_append (by decide) (by decide)]
      exact ⟨_, rfl⟩
    exact ⟨hscheme, host, ha, List.append_cancel_left (h.symm.trans (hput hscheme ha).symm)⟩
  · rintro ⟨hscheme, host, ha, rfl⟩
    exact (hput hscheme ha).symm

/-! ## Escaped texts one after another -/

theorem percentBytes?_append {bytes : List UInt8} (h : percentBytes? cs = some bytes)
    (rest : List Char) :
    percentBytes? (cs ++ rest) = (percentBytes? rest).map (bytes ++ ·) := by
  fun_induction percentBytes? cs generalizing bytes with
  | case1 =>
    cases h
    exact Option.map_id'.symm
  | case2 a b cs ih =>
    simp only [Option.bind_eq_bind, Option.bind_eq_some_iff, Option.pure_def,
      Option.some.injEq] at h
    obtain ⟨high, hhigh, low, hlow, more, hmore, rfl⟩ := h
    simp only [List.cons_append, percentBytes?, hhigh, hlow, ih hmore]
    cases percentBytes? rest <;> rfl
  | case3 => cases h
  | case4 c cs hne hc ih =>
    obtain ⟨more, hmore, rfl⟩ := Option.map_eq_some_iff.1 h
    rw [List.cons_append, percentBytes?.eq_3 _ _ (by simp [hc]), if_neg hc, ih hmore,
      Option.map_map]
    simp only [List.append_assoc, Function.comp_def]

theorem eq_nil_of_percentBytes? (h : percentBytes? cs = some []) : cs = [] := by
  unfold percentBytes? at h
  split at h
  · rfl
  · simp only [Option.bind_eq_bind, Option.bind_eq_some_iff, Option.pure_def,
      Option.some.injEq, reduceCtorEq, and_false, exists_false] at h
  · split at h
    · cases h
    · obtain ⟨more, -, hmore⟩ := Option.map_eq_some_iff.1 h
      exact absurd (List.append_eq_nil_iff.1 hmore).1 (by simp)

theorem percentDecode?_eq_some_iff {t : List Char} :
    percentDecode? cs = some t ↔ percentBytes? cs = some (Utf8.encode t) := by
  rw [percentDecode?, Option.bind_eq_some_iff]
  simp only [Utf8.decode?_eq_some_iff, exists_eq_right]

theorem percentDecode?_nil : percentDecode? [] = some [] :=
  percentDecode?_eq_some_iff.2 rfl

/-- Nothing can follow an escaped text without being read. -/
theorem eq_nil_of_percentDecode?_append {t : List Char} (h : percentDecode? cs = some t)
    (h' : percentDecode? (cs ++ rest) = some t) : rest = [] := by
  rw [percentDecode?_eq_some_iff] at h h'
  rw [percentBytes?_append h] at h'
  obtain ⟨more, hmore, heq⟩ := Option.map_eq_some_iff.1 h'
  obtain rfl : more = [] := List.append_right_eq_self.1 heq
  exact eq_nil_of_percentBytes? hmore

theorem percentDecode?_slash (cs : List Char) :
    percentDecode? ('/' :: cs) = (percentDecode? cs).map ('/' :: ·) := by
  have hbytes : percentBytes? ('/' :: cs) =
      (percentBytes? cs).map (String.utf8EncodeChar '/' ++ ·) := rfl
  rw [percentDecode?, percentDecode?, hbytes]
  cases percentBytes? cs with
  | none => rfl
  | some bytes =>
    simp only [Option.map_some, Option.bind_some, Utf8.decode?, Utf8.pieces_encodeChar_append,
      List.mapM_cons]
    cases List.mapM id (Utf8.pieces bytes) <;> rfl

/-! ## Paths of file URIs -/

/-- A host without `localhost` at its beginning. -/
def withoutLocalhost (host : List Char) : List Char :=
  (Text.afterStart? "localhost".toList host).getD host

theorem head?_path {uri : Uri} {host : List Char} (h : uri.parts.authority = some host) :
    ∀ c ∈ uri.parts.path.head?, c = '/' := by
  rw [parts, ofText_eq] at h ⊢
  exact head?_cutAuthority h

theorem head?_afterPath : ∀ c ∈ u.afterPath.head?, c = '?' ∨ c = '#' := by
  unfold Parts.afterPath
  cases u.query with
  | some query =>
    rintro _ ⟨⟩
    exact .inl rfl
  | none =>
    cases u.fragment with
    | some fragment =>
      rintro _ ⟨⟩
      exact .inr rfl
    | none => nofun

theorem afterPath_eq_nil_iff : u.afterPath = [] ↔ u.query = none ∧ u.fragment = none := by
  have hmarked {mark : Char} {part : Option (List Char)} : marked mark part = [] ↔ part = none := by
    cases part <;> simp [marked]
  rw [Parts.afterPath, List.append_eq_nil_iff, hmarked, hmarked]

theorem withoutLocalhost_append {host path : List Char} (hpath : ∀ c ∈ path.head?, c = '/') :
    withoutLocalhost (host ++ (path ++ u.afterPath)) =
      withoutLocalhost host ++ (path ++ u.afterPath) := by
  have hstart : ∀ c ∈ (path ++ u.afterPath).head?, c ∉ "localhost".toList := by
    intro c hc
    cases path with
    | nil => rcases head?_afterPath c hc with rfl | rfl <;> decide
    | cons d path =>
      cases hc
      rw [hpath c rfl]
      decide
  rw [withoutLocalhost, withoutLocalhost, Text.afterStart?_append_of_head hstart]
  cases Text.afterStart? "localhost".toList host <;> rfl

/-- **What is read of a URI**: all that follows its scheme, the host without `localhost`, the path,
the query and the fragment, with the escapes resolved. -/
theorem toPath?_eq_some_iff {uri : Uri} {p : Path} :
    toPath? uri = some p ↔
      uri.parts.scheme = some "file".toList ∧
        ∃ host, uri.parts.authority = some host ∧
          percentDecode? (withoutLocalhost host ++ (uri.parts.path ++ uri.parts.afterPath)) =
            some p.text.toList := by
  have hread : toPath? uri = some p ↔
      ∃ rest, uri.text.toList = "file://".toList ++ rest ∧
        percentDecode? (withoutLocalhost rest) = some p.text.toList := by
    simp only [toPath?, Option.bind_eq_bind, Option.bind_eq_some_iff, Text.afterStart?_eq_some_iff,
      Option.pure_def, Option.some.injEq]
    refine exists_congr fun rest => and_congr_right fun _ => ?_
    constructor
    · rintro ⟨t, ht, rfl⟩
      rwa [String.toList_ofList]
    · intro h
      exact ⟨_, h, by rw [String.ofList_toList]⟩
  rw [hread]
  simp only [toList_eq_append_iff]
  constructor
  · rintro ⟨rest, ⟨hs, host, ha, rfl⟩, h⟩
    exact ⟨hs, host, ha, withoutLocalhost_append (head?_path ha) ▸ h⟩
  · rintro ⟨hs, host, ha, h⟩
    exact ⟨_, ⟨hs, host, ha, rfl⟩, (withoutLocalhost_append (head?_path ha)).symm ▸ h⟩

/-- Whether `p` is the path in a reference to a local file: what its path stands for. -/
structure Parts.IsPath (u : Parts) (p : Path) : Prop where
  scheme : u.scheme = some "file".toList
  host : u.authority = some [] ∨ u.authority = some "localhost".toList
  text : percentDecode? u.path = some p.text.toList
  absolute : p.isAbsolute = true

/-- Whether a reference has, after its scheme, a local host and a path, and nothing else. -/
structure Parts.IsBare (u : Parts) : Prop where
  host : u.authority = some [] ∨ u.authority = some "localhost".toList
  path : u.path ≠ []
  query : u.query = none
  fragment : u.fragment = none

theorem withoutLocalhost_of_local {host : List Char}
    (h : some host = some [] ∨ some host = some "localhost".toList) :
    withoutLocalhost host = [] := by
  rcases h with h | h
  · cases h
    rfl
  · cases h
    decide

theorem isPath_iff_isBare {uri : Uri} {p : Path} (h : toPath? uri = some p) :
    uri.parts.IsPath p ↔ uri.parts.IsBare := by
  obtain ⟨hscheme, host, ha, hread⟩ := toPath?_eq_some_iff.1 h
  have hslash := head?_path ha
  generalize uri.parts = u at *
  constructor
  · rintro ⟨-, hlocal, htext, habsolute⟩
    have hhost := withoutLocalhost_of_local (ha ▸ hlocal)
    rw [hhost, List.nil_append] at hread
    obtain ⟨hquery, hfragment⟩ :=
      afterPath_eq_nil_iff.1 (eq_nil_of_percentDecode?_append htext hread)
    refine ⟨hlocal, fun hpath => ?_, hquery, hfragment⟩
    -- The escaped text of nothing is nothing, which is no absolute path.
    rw [hpath] at htext
    have hempty : p.text.toList = [] := (Option.some.inj (percentDecode?_nil.symm.trans htext)).symm
    rw [Path.isAbsolute, hempty] at habsolute
    cases habsolute
  · rintro ⟨hlocal, hpath, hquery, hfragment⟩
    have hhost := withoutLocalhost_of_local (ha ▸ hlocal)
    rw [hhost, List.nil_append, afterPath_eq_nil_iff.2 ⟨hquery, hfragment⟩,
      List.append_nil] at hread
    refine ⟨hscheme, hlocal, hread, ?_⟩
    obtain ⟨c, path, hcons⟩ := List.exists_cons_of_ne_nil hpath
    obtain rfl : c = '/' := hslash c (by rw [hcons]; rfl)
    rw [hcons, percentDecode?_slash] at hread
    obtain ⟨t, -, ht⟩ := Option.map_eq_some_iff.1 hread
    rw [Path.isAbsolute, ← ht]
    rfl

/-- **The path that a URI is read as.** Of a URI with the scheme `file` and a host, all that follows
the scheme is read as a path, but for `localhost` at the beginning of the host; of any other
nothing is. So what is read is the path of the URI, an absolute one, exactly when the host is empty
or `localhost`, there is a path, and neither a query nor a fragment follows it. -/
theorem reads_path_iff_isBare (uri : Uri) (p : Path) :
    (toPath? uri = some p ↔
      uri.parts.scheme = some "file".toList ∧
        ∃ host, uri.parts.authority = some host ∧
          percentDecode? (withoutLocalhost host ++ (uri.parts.path ++ uri.parts.afterPath)) =
            some p.text.toList) ∧
      (toPath? uri = some p →
        (uri.parts.IsPath p ↔ uri.parts.IsBare)) :=
  ⟨toPath?_eq_some_iff, isPath_iff_isBare⟩

/-- Of a host that begins with `localhost` the rest becomes part of the path. -/
theorem reads_host_as_path :
    let uri : Uri := ⟨"file://localhostile/a.evi"⟩
    parse? uri.text = some uri ∧ toPath? uri = some ⟨"ile/a.evi"⟩ ∧
      ¬uri.parts.IsPath ⟨"ile/a.evi"⟩ := by
  intro uri
  have hread : toPath? uri = some ⟨"ile/a.evi"⟩ :=
    toPath?_eq_some_iff.2 ⟨by decide, "localhostile".toList, by decide,
      percentDecode?_eq_some_iff.2 (by decide)⟩
  have hbare := (reads_path_iff_isBare uri ⟨"ile/a.evi"⟩).2 hread
  have hhost : uri.parts.authority = some "localhostile".toList := by decide
  refine ⟨by decide, hread, fun h => ?_⟩
  have hlocal := (hbare.1 h).host
  rw [hhost] at hlocal
  exact absurd hlocal (by decide)

end EviAssist.Uri
