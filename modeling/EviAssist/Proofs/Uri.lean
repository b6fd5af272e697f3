import EviAssist.Proofs.Text.Numeral
import EviAssist.Proofs.Text.Search
import EviAssist.Proofs.Text.Utf8
import EviAssist.Uri
import Mathlib.Data.List.TakeWhile

/-!
# Round trip of file URIs

The URI of a file is a reference of unreserved characters, slashes and escapes, and the path in it
is the one that it was made of, character by character.

* `Uri.encodeByte_cases`: a byte that stands for itself, or an escape.
* `Uri.percentDecode?_percentEncode`: what is escaped is read back.
* `Uri.isEncoded_percentEncode`: which characters stand in an escaped text.
* `Uri.ofText_fileText`, `Uri.isValid_fileText`: the parts of the URI of a file.
* `Uri.ofPath?_eq`, `Uri.isSome_ofPath?_iff`: the URI of any path.
* `Uri.names_absolute_path`: all that the URI of an absolute path has.
-/

namespace EviAssist.Uri

variable {c : Char} {cs : List Char} {allowed : Char → Bool}

/-! ## Escapes -/

/-- The characters that are not escaped. -/
def isPlain (c : Char) : Bool :=
  isUnreserved c || c == '/'

theorem toNat_lt_of_isPlain (h : isPlain c = true) : c.toNat < 128 := by
  simp only [isPlain, isUnreserved, Bool.or_eq_true, beq_iff_eq] at h
  obtain ((((h | rfl) | rfl) | rfl) | rfl) | rfl := h
  · exact (Text.toNat_of_isAlphanum h).2
  all_goals decide

theorem ne_percent_of_isPlain (h : isPlain c = true) : c ≠ '%' := by
  rintro rfl
  exact absurd h (by decide)

theorem isPlain_hexDigit : ∀ n < 16, isPlain (Text.hexDigit n) = true := by
  decide

/-- A byte stands for itself as a plain character, or is escaped with two digits. -/
theorem encodeByte_cases (b : UInt8) :
    (∃ c, encodeByte b = [c] ∧ isPlain c = true ∧ String.utf8EncodeChar c = [b]) ∨
      ∃ high < 16, ∃ low < 16,
        encodeByte b = ['%', Text.hexDigit high, Text.hexDigit low] ∧
          UInt8.ofNat (high * 16 + low) = b := by
  have hb : b.toNat < 256 := b.toNat_lt
  by_cases h : isPlain (Char.ofNat b.toNat) = true
  · refine .inl ⟨_, if_pos h, h, ?_⟩
    have hv : b.toNat.isValidChar := .inl (by omega)
    have hn : (Char.ofNat b.toNat).toNat = b.toNat := by
      rw [Char.ofNat, dif_pos hv]
      rfl
    have hlt : b.toNat ≤ 127 := hn ▸ Nat.le_of_lt_succ (toNat_lt_of_isPlain h)
    rw [String.utf8EncodeChar, Char.toNat_val, hn]
    simp only [if_pos hlt, UInt8.ofNat_toNat]
  · refine .inr ⟨b.toNat / 16, by omega, b.toNat % 16, by omega, if_neg h, ?_⟩
    rw [Nat.div_add_mod', UInt8.ofNat_toNat]

theorem percentBytes?_encodeByte_append (b : UInt8) (rest : List Char) :
    percentBytes? (encodeByte b ++ rest) = (percentBytes? rest).map (b :: ·) := by
  obtain ⟨c, he, hc, hb⟩ | ⟨high, hhigh, low, hlow, he, hb⟩ := encodeByte_cases b
  · have hne := ne_percent_of_isPlain hc
    rw [he, List.singleton_append, percentBytes?.eq_3 _ _ (by simp [hne]), if_neg hne, hb]
    rfl
  · rw [he]
    simp only [List.cons_append, List.nil_append, percentBytes?, Text.hexValue?_hexDigit _ hhigh,
      Text.hexValue?_hexDigit _ hlow]
    cases percentBytes? rest with
    | none => rfl
    | some bytes => exact congrArg (fun first => some (first :: bytes)) hb

theorem percentBytes?_flatMap_encodeByte (bytes : List UInt8) :
    percentBytes? (bytes.flatMap encodeByte) = some bytes := by
  induction bytes with
  | nil => rfl
  | cons b bytes ih =>
    rw [List.flatMap_cons, percentBytes?_encodeByte_append, ih]
    rfl

/-- **What is escaped is read back**, whatever characters it has. -/
theorem percentDecode?_percentEncode (cs : List Char) :
    percentDecode? (percentEncode cs) = some cs := by
  rw [percentDecode?, percentEncode, percentBytes?_flatMap_encodeByte]
  exact Utf8.decode?_encode cs

theorem isEncoded_cons (h : c ≠ '%') :
    isEncoded allowed (c :: cs) = (allowed c && isEncoded allowed cs) := by
  rw [isEncoded.eq_3 _ _ _ fun _ _ _ hc _ => h hc, bne_iff_ne.2 h, Bool.true_and]

/-- An escaped text has plain characters, and escapes, only. -/
theorem isEncoded_percentEncode (h : ∀ c, isPlain c = true → allowed c = true) (cs : List Char) :
    isEncoded allowed (percentEncode cs) = true := by
  unfold percentEncode
  induction Utf8.encode cs with
  | nil => rfl
  | cons b bytes ih =>
    rw [List.flatMap_cons]
    obtain ⟨c, he, hc, -⟩ | ⟨high, hhigh, low, hlow, he, -⟩ := encodeByte_cases b
    · rw [he, List.singleton_append, isEncoded_cons (ne_percent_of_isPlain hc), h c hc, ih]
      rfl
    · rw [he]
      simp only [List.cons_append, List.nil_append, isEncoded, Text.hexValue?_hexDigit _ hhigh,
        Text.hexValue?_hexDigit _ hlow, Option.isSome_some, Bool.true_and, ih]

theorem isEncoded_mono {p q : Char → Bool} (h : ∀ c, p c = true → q c = true)
    (hp : isEncoded p cs = true) : isEncoded q cs = true := by
  fun_induction isEncoded p cs with
  | case1 => rfl
  | case2 a b rest ih =>
    simp only [Bool.and_eq_true] at hp
    simp only [isEncoded, Bool.and_eq_true]
    exact ⟨hp.1, ih hp.2⟩
  | case3 c rest hne ih =>
    simp only [Bool.and_eq_true, bne_iff_ne] at hp
    rw [isEncoded_cons hp.1.1, h c hp.1.2, ih hp.2]
    rfl

theorem ne_slash_of_isSome_hexValue? (h : (Text.hexValue? c).isSome = true) : c ≠ '/' := by
  rintro rfl
  exact absurd h (by decide)

theorem isEncoded_cut (h : isEncoded allowed cs = true) :
    isEncoded (fun c => allowed c && c != '/') (cs.takeWhile (· != '/')) = true ∧
      isEncoded allowed (cs.dropWhile (· != '/')) = true := by
  fun_induction isEncoded allowed cs with
  | case1 => exact ⟨rfl, rfl⟩
  | case2 a b rest ih =>
    simp only [Bool.and_eq_true] at h
    have ha := ne_slash_of_isSome_hexValue? h.1.1
    have hb := ne_slash_of_isSome_hexValue? h.1.2
    simpa [ha, hb, isEncoded, h.1] using ih h.2
  | case3 c rest hne ih =>
    simp only [Bool.and_eq_true, bne_iff_ne] at h
    by_cases hc : c = '/'
    · rw [hc] at h ⊢
      exact ⟨rfl, by simpa [isEncoded_cons] using h.imp_left (·.2)⟩
    · simpa [hc, isEncoded_cons h.1.1, h.1.2] using ih h.2

theorem mem_percentEncode (h : c ∈ percentEncode cs) : isPlain c = true ∨ c = '%' := by
  obtain ⟨b, -, hc⟩ := List.mem_flatMap.1 h
  obtain ⟨d, he, hd, -⟩ | ⟨high, hhigh, low, hlow, he, -⟩ := encodeByte_cases b
  · rw [he, List.mem_singleton] at hc
    exact .inl (hc ▸ hd)
  · rw [he] at hc
    simp only [List.mem_cons, List.not_mem_nil, or_false] at hc
    obtain rfl | rfl | rfl := hc
    · exact .inr rfl
    · exact .inl (isPlain_hexDigit high hhigh)
    · exact .inl (isPlain_hexDigit low hlow)

/-! ## Parts -/

theorem cutAt_of_notMem (h : c ∉ cs) : cutAt (· == c) cs = (cs, none) := by
  have hd : cs.dropWhile (fun d => !d == c) = [] := by
    refine List.dropWhile_eq_nil_iff.2 fun d hd => ?_
    have hne : d ≠ c := fun hc => h (hc ▸ hd)
    simpa using hne
  rw [cutAt, hd]

theorem exists_of_isAbsolute {path : Path} (h : path.isAbsolute = true) :
    ∃ cs, path.text.toList = '/' :: cs := by
  rw [Path.isAbsolute, beq_iff_eq, List.head?_eq_some_iff] at h
  exact h

/-- The text of the URI of an absolute path. -/
def fileText (path : Path) : String :=
  "file://" ++ String.ofList (percentEncode path.text.toList)

theorem toList_fileText (path : Path) :
    (fileText path).toList = "file://".toList ++ percentEncode path.text.toList :=
  String.toList_append.trans (congrArg _ String.toList_ofList)

theorem percentEncode_slash (cs : List Char) :
    percentEncode ('/' :: cs) = '/' :: percentEncode cs :=
  rfl

theorem notMem_fileText (path : Path) (h : isPlain c = false) (hp : c ≠ '%') (hc : c ≠ ':') :
    c ∉ (fileText path).toList := by
  have hstart : ("file://".toList.all fun d => isPlain d || d == ':') = true := by decide
  rw [toList_fileText, List.mem_append]
  rintro (hm | hm)
  · have ht := List.all_eq_true.1 hstart c hm
    simp [h, hc] at ht
  · obtain ht | rfl := mem_percentEncode hm
    · simp [h] at ht
    · exact hp rfl

/-- **The parts of the URI of any path**: its scheme, the part of the path before the first slash
as a host, and the rest of the path, escaped. -/
theorem ofText_fileText (path : Path) :
    Parts.ofText (fileText path).toList =
      ⟨some "file".toList, some ((percentEncode path.text.toList).takeWhile (· != '/')),
        (percentEncode path.text.toList).dropWhile (· != '/'), none, none⟩ := by
  have hfragment : '#' ∉ (fileText path).toList :=
    notMem_fileText path (by decide) (by decide) (by decide)
  have hquery : '?' ∉ (fileText path).toList :=
    notMem_fileText path (by decide) (by decide) (by decide)
  simp only [Parts.ofText, cutAt_of_notMem hfragment, cutAt_of_notMem hquery]
  rw [toList_fileText]
  rfl

/-- **The parts of the URI of a file**: its scheme, no host, and the escaped path. -/
theorem ofText_file {path : Path} (h : path.isAbsolute = true) :
    Parts.ofText (fileText path).toList =
      ⟨some "file".toList, some [], percentEncode path.text.toList, none, none⟩ := by
  obtain ⟨cs, hcs⟩ := exists_of_isAbsolute h
  rw [ofText_fileText, hcs]
  rfl

theorem isAuthority_of_isEncoded (hc : isEncoded (fun c => isPlain c && c != '/') cs = true)
    (hcolon : ':' ∉ cs) (hat : '@' ∉ cs) (hbracket : '[' ∉ cs) : isAuthority cs = true := by
  have hne {d : Char} (h : d ∉ cs) : ∀ c ∈ cs, (c != d) = true :=
    fun c hc => bne_iff_ne.2 fun hd => h (hd ▸ hc)
  have h : isEncoded (fun c => isUnreserved c || isSubDelimiter c) cs = true :=
    isEncoded_mono (by grind [isPlain]) hc
  rw [isAuthority, List.dropWhile_eq_nil_iff.2 (hne hat)]
  simp only
  unfold isHostPort
  split
  · simp at hbracket
  · rw [List.takeWhile_eq_self_iff.2 (hne hcolon), List.dropWhile_eq_nil_iff.2 (hne hcolon), h]
    rfl

/-- **The URI of any path is a reference**, of a relative one too. -/
theorem isValid_fileText (path : Path) : (Parts.ofText (fileText path).toList).isValid = true := by
  have hplain : isEncoded isPlain (percentEncode path.text.toList) = true :=
    isEncoded_percentEncode (fun _ hc => hc) _
  obtain ⟨hhost, hrest⟩ := isEncoded_cut hplain
  have hnot {d : Char} (hd : isPlain d = false) (hp : d ≠ '%') :
      d ∉ (percentEncode path.text.toList).takeWhile (· != '/') := by
    intro hm
    obtain h | h := mem_percentEncode (List.takeWhile_subset _ hm)
    · exact absurd h (Bool.eq_false_iff.1 hd)
    · exact hp h
  rw [ofText_fileText, Parts.isValid]
  simp only [Option.all_some, Option.all_none, Bool.and_true, Bool.and_eq_true]
  refine ⟨⟨by decide, isAuthority_of_isEncoded hhost (hnot (by decide) (by decide))
    (hnot (by decide) (by decide)) (hnot (by decide) (by decide))⟩, ?_⟩
  exact isEncoded_mono (by grind [isPlain, isSegmentChar]) hrest

/-! ## Round trips -/

theorem parse?_fileText (path : Path) : parse? (fileText path) = some ⟨fileText path⟩ :=
  if_pos (isValid_fileText path)

/-- The path in the URI of a file is the path, with the text it was written with. -/
theorem toPath?_file {path : Path} (h : path.isAbsolute = true) :
    toPath? ⟨fileText path⟩ = some path := by
  obtain ⟨cs, hcs⟩ := exists_of_isAbsolute h
  -- A host named `localhost` would be left out, but what follows begins with a slash.
  have hhost : Text.afterStart? "localhost".toList (percentEncode path.text.toList) = none := by
    rw [hcs, percentEncode_slash]
    rfl
  simp only [toPath?, toList_fileText, Text.afterStart?_append, Option.bind_eq_bind,
    Option.bind_some, hhost, Option.getD_none, percentDecode?_percentEncode, Option.pure_def,
    String.ofList_toList]

/-- **The URI of a path** is that of the path as seen from the directory. -/
theorem ofPath?_eq (directory : Option Path) (path : Path) :
    ofPath? directory path = (path.seenFrom? directory).map fun whole => ⟨fileText whole⟩ := by
  rw [ofPath?, Option.map_eq_bind]
  exact congrArg _ (funext parse?_fileText)

/-- A path has a URI unless it is relative and the directory is not known. -/
theorem isSome_ofPath?_iff {directory : Option Path} {path : Path} :
    (ofPath? directory path).isSome = true ↔
      path.isAbsolute = true ∨ directory.isSome = true := by
  rw [ofPath?_eq, Option.isSome_map, Path.seenFrom?]
  split_ifs with hp
  · simp [hp]
  · simp [hp]

/-- **The URI of an absolute path.** It exists, whatever characters the path has and whatever the
directory is; it is a reference that has, after the scheme and an empty host, plain characters and
escapes only; the path in it is the path, character by character; so no other absolute path has
the same URI. -/
theorem names_absolute_path (directory : Option Path) (path : Path) (h : path.isAbsolute = true) :
    ∃ uri, ofPath? directory path = some uri ∧
      (∃ escaped, uri.text = "file://" ++ String.ofList escaped ∧
        isEncoded isPlain escaped = true ∧
        Parts.ofText uri.text.toList = ⟨some "file".toList, some [], escaped, none, none⟩) ∧
      parse? uri.text = some uri ∧ toPath? uri = some path ∧
      ∀ directory' other, other.isAbsolute = true → ofPath? directory' other = some uri →
        other = path := by
  have hof {d : Option Path} {p : Path} (hp : p.isAbsolute = true) :
      ofPath? d p = some ⟨fileText p⟩ := by
    rw [ofPath?_eq, Path.seenFrom?, if_pos hp, Option.map_some]
  refine ⟨⟨fileText path⟩, hof h, ⟨_, rfl, isEncoded_percentEncode (fun _ hc => hc) _,
    ofText_file h⟩, parse?_fileText path, toPath?_file h, fun directory' other ho he => ?_⟩
  have hpath : toPath? ⟨fileText path⟩ = some other := by
    rw [← Option.some.inj ((hof ho).symm.trans he)]
    exact toPath?_file ho
  exact Option.some.inj (hpath.symm.trans (toPath?_file h))

/-- A path of separators, percent signs, delimiters and characters of two, three and four bytes. -/
theorem names_path_of_delimiters :
    let path : Path := ⟨"//a b/100%25?x#y:é/日/😀//"⟩
    let uri : Uri := ⟨"file:////a%20b/100%2525%3Fx%23y%3A%C3%A9/%E6%97%A5/%F0%9F%98%80//"⟩
    path.isAbsolute = true ∧ ofPath? (some ⟨"/"⟩) path = some uri ∧ toPath? uri = some path := by
  intro path uri
  have h : path.isAbsolute = true := by decide
  obtain ⟨found, hf, -, -, hp, -⟩ := names_absolute_path (some ⟨"/"⟩) path h
  have hu : ofPath? (some ⟨"/"⟩) path = some uri := by decide
  clear_value path uri
  cases hf.symm.trans hu
  exact ⟨h, hu, hp⟩

end EviAssist.Uri
