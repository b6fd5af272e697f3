import EviAssist.Process
import Mathlib.Data.List.Infix

/-!
# Excerpts

An error message shows a text of at most 4096 bytes as it is. Of a longer one it shows the whole
characters among the first 4096 bytes, and at most three bytes fewer: the search for the place to
cut steps back through one character at most, and never over the start of the text.

* `IsLongestStart`: the longest beginning of a text within a number of bytes.
* `isLongestStart_of_lastBoundary?`: the search finds its end.
* `IsLongestStart.lt_add_four`: no more than a part of one character is lost.
* `excerpt_shows_longest_start`: what an excerpt is, for every text.
-/

namespace EviAssist

/-- Whether a text is the longest beginning of another one that has at most a number of bytes. -/
structure IsLongestStart (budget : Nat) (start text : String) : Prop where
  isPrefix : start.toList <+: text.toList
  size_le : start.utf8ByteSize ≤ budget
  longest : ∀ other : String, other.toList <+: text.toList → other.utf8ByteSize ≤ budget →
    other.toList <+: start.toList

variable {text start other : String} {budget : Nat}

/-! ## Beginnings of a text -/

theorem toList_prefix_iff : start.toList <+: text.toList ↔ ∃ rest, text = start ++ rest := by
  constructor
  · rintro ⟨rest, h⟩
    refine ⟨String.ofList rest, String.toList_inj.1 ?_⟩
    rw [String.toList_append, String.toList_ofList, h]
  · rintro ⟨rest, rfl⟩
    rw [String.toList_append]
    exact List.prefix_append _ _

theorem exists_pos_of_prefix (h : other.toList <+: text.toList) :
    ∃ place : text.Pos, place.offset.byteIdx = other.utf8ByteSize := by
  obtain ⟨rest, rfl⟩ := toList_prefix_iff.1 h
  have hvalid : other.rawEndPos.IsValid (other ++ rest) :=
    String.Pos.Raw.isValid_iff_exists_append.2 ⟨other, rest, rfl, rfl⟩
  exact ⟨⟨_, hvalid⟩, rfl⟩

theorem prefix_of_utf8ByteSize_le (hother : other.toList <+: text.toList)
    (hstart : start.toList <+: text.toList) (h : other.utf8ByteSize ≤ start.utf8ByteSize) :
    other.toList <+: start.toList := by
  rcases List.prefix_or_prefix_of_prefix hother hstart with hle | hge
  · exact hle
  · obtain ⟨rest, rfl⟩ := toList_prefix_iff.1 hge
    rw [String.utf8ByteSize_append] at h
    have hrest : rest = "" := String.utf8ByteSize_eq_zero_iff.1 (by omega)
    rw [hrest, String.append_empty]

/-! ## The longest one -/

/-- **The search ends where the longest beginning within the bytes does.** -/
theorem isLongestStart_of_lastBoundary? {stop : text.Pos}
    (h : lastBoundary? text budget = some stop) :
    IsLongestStart budget (text.sliceTo stop).copy text := by
  obtain ⟨stop', hstop, hle, hlast⟩ := exists_lastBoundary? text budget
  obtain rfl : stop' = stop := Option.some.inj (hstop.symm.trans h)
  obtain ⟨hsplit, hoffset⟩ := stop'.splits
  have hsize : (text.sliceTo stop').copy.utf8ByteSize = stop'.offset.byteIdx := by
    rw [hoffset, String.byteIdx_rawEndPos]
  have hstart : (text.sliceTo stop').copy.toList <+: text.toList :=
    toList_prefix_iff.2 ⟨_, hsplit⟩
  refine ⟨hstart, hsize ▸ hle, fun other hother hbudget => ?_⟩
  obtain ⟨place, hplace⟩ := exists_pos_of_prefix hother
  refine prefix_of_utf8ByteSize_le hother hstart ?_
  rw [hsize, ← hplace]
  exact hlast place (hplace ▸ hbudget)

/-- The character after the longest beginning would not fit, and has at most four bytes. -/
theorem IsLongestStart.lt_add_four (h : IsLongestStart budget start text)
    (hlong : budget < text.utf8ByteSize) : budget < start.utf8ByteSize + 4 := by
  obtain ⟨rest, rfl⟩ := toList_prefix_iff.1 h.isPrefix
  have hsize := h.size_le
  rw [String.utf8ByteSize_append] at hlong
  obtain ⟨c, more, hmore⟩ : ∃ c more, rest.toList = c :: more := by
    refine List.exists_cons_of_ne_nil fun hnil => ?_
    rw [String.toList_eq_nil_iff.1 hnil, String.utf8ByteSize_empty] at hlong
    omega
  have hnext : (start.push c).toList <+: (start ++ rest).toList := by
    rw [String.toList_push, String.toList_append, hmore]
    exact ⟨more, by simp⟩
  have hpush : (start.push c).utf8ByteSize = start.utf8ByteSize + c.utf8Size :=
    String.utf8ByteSize_push
  by_contra hfits
  have hfour : c.utf8Size ≤ 4 := c.utf8Size_le_four
  have hlonger := (h.longest _ hnext (by omega)).length_le
  rw [String.toList_push, List.length_append, List.length_singleton] at hlonger
  omega

theorem excerpt?_eq (text : String) : excerpt? text = some (excerpt text) :=
  (Option.some_get _).symm

/-- **An excerpt is cut between two characters.** There is one of every text. A text of at most
4096 bytes is its own excerpt; that of a longer one is its longest beginning within 4096 bytes,
which has at least 4093, and a remark. -/
theorem excerpt_shows_longest_start (text : String) :
    excerpt? text = some (excerpt text) ∧
      (text.utf8ByteSize ≤ 4096 → excerpt text = text) ∧
      (4096 < text.utf8ByteSize → ∃ start, IsLongestStart 4096 start text ∧
        4093 ≤ start.utf8ByteSize ∧ excerpt text = start ++ "... (truncated)") := by
  have hget := excerpt?_eq text
  rw [excerpt?, excerptSize] at hget
  refine ⟨excerpt?_eq text, fun hshort => ?_, fun hlong => ?_⟩
  · rw [if_neg (Nat.not_lt.2 hshort)] at hget
    exact (Option.some.inj hget).symm
  · obtain ⟨stop, hstop, -⟩ := exists_lastBoundary? text 4096
    have hstart := isLongestStart_of_lastBoundary? hstop
    have hsize := hstart.lt_add_four hlong
    rw [if_pos hlong, hstop, Option.map_some] at hget
    exact ⟨_, hstart, by omega, (Option.some.inj hget).symm⟩

/-- A character whose four bytes would end in byte 4097 is left out as a whole. -/
theorem excerpt_ends_before_wide_character :
    let letters := String.ofList (List.replicate 4093 'a')
    4096 < (letters ++ "😀").utf8ByteSize ∧
      excerpt (letters ++ "😀") = letters ++ "... (truncated)" := by
  intro letters
  have hsize (n : Nat) : (String.ofList (List.replicate n 'a')).utf8ByteSize = n := by
    induction n with
    | zero => rfl
    | succ n ih =>
      rw [List.replicate_succ', String.ofList_append, String.utf8ByteSize_append, ih]
      rfl
  have htext : (letters ++ "😀").utf8ByteSize = 4097 := by
    rw [String.utf8ByteSize_append, hsize]
    rfl
  have hlong : 4096 < (letters ++ "😀").utf8ByteSize := by omega
  obtain ⟨-, -, hcut⟩ := excerpt_shows_longest_start (letters ++ "😀")
  obtain ⟨start, hstart, -, hexcerpt⟩ := hcut hlong
  have hletters : letters.toList <+: start.toList :=
    hstart.longest _ (toList_prefix_iff.2 ⟨_, rfl⟩) ((hsize 4093).trans_le (by decide))
  obtain ⟨rest, rfl⟩ := toList_prefix_iff.1 hletters
  -- What follows the letters is less than the character.
  have hrest : rest.toList <+: ['😀'] := by
    have h := hstart.isPrefix
    rw [String.toList_append, String.toList_append] at h
    exact (List.prefix_append_right_inj _).1 h
  rcases List.prefix_cons_iff.1 hrest with hnil | ⟨more, hmore, hnil⟩
  · rw [String.toList_eq_nil_iff.1 hnil, String.append_empty] at hexcerpt
    exact ⟨hlong, hexcerpt⟩
  · rw [List.prefix_nil.1 hnil] at hmore
    have hwhole : rest = "😀" := String.toList_inj.1 hmore
    have hle := hstart.size_le
    rw [hwhole] at hle
    omega

end EviAssist
