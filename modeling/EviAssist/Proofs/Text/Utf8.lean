import EviAssist.Text.Utf8
import Mathlib.Data.String.Basic

/-!
# UTF-8

Texts stand in the order of their characters exactly when their bytes do, and a byte sequence is
read as a text exactly when it is the bytes of that text.

* `Utf8.encodeChar_append_lt`, `Utf8.encode_lt_encode_iff`: the two orders agree, since one
  character decides.
* `Utf8.pieces_encodeChar_append`, `Utf8.decode?_encode`: the bytes of one character and of a text
  are read back.
* `Utf8.readHead_eq_some`, `Utf8.decode?_eq_some_iff`: nothing but the bytes of a character and of a
  text is read as one.
-/

namespace EviAssist.Utf8

/-! ## Order -/

theorem toNat_lt (c : Char) : c.val.toNat < 0x110000 := by
  rcases c.valid with h | ⟨-, h⟩
  · exact h.trans (by decide)
  · exact h

/-- A character before another has its bytes before those of the other, whatever follows them. -/
theorem encodeChar_append_lt {c d : Char} (h : c < d) (x y : List UInt8) :
    String.utf8EncodeChar c ++ x < String.utf8EncodeChar d ++ y := by
  have hlt : c.val.toNat < d.val.toNat := h
  have hbound := toNat_lt d
  -- Six bits at a time.
  have h12 (k : Nat) : k / 4096 = k / 64 / 64 := (Nat.div_div_eq_div_mul k 64 64).symm
  have h18 (k : Nat) : k / 262144 = k / 64 / 64 / 64 := by
    rw [Nat.div_div_eq_div_mul, Nat.div_div_eq_div_mul]
  simp only [String.utf8EncodeChar, h12, h18]
  generalize c.val.toNat = m at *
  generalize d.val.toNat = n at *
  -- The first byte grows with the number of bytes; with as many bytes the first that differs
  -- carries the higher bits.
  split_ifs <;> first
    | omega
    | simp only [List.cons_append, List.cons_lt_cons_iff, UInt8.lt_iff_toNat_lt, ← UInt8.toNat_inj,
        UInt8.toNat_ofNat']
      omega

theorem encode_lt_encode {s t : List Char} (h : s < t) : encode s < encode t := by
  induction h with
  | nil =>
    rename_i c t
    have hne : String.utf8EncodeChar c ≠ [] := by simp
    obtain ⟨b, bs, hb⟩ := List.exists_cons_of_ne_nil hne
    rw [encode, encode, List.flatMap_cons, hb]
    exact .nil
  | rel hlt => exact encodeChar_append_lt hlt _ _
  | cons _ ih => exact List.append_left_lt ih

/-- **Texts stand in the order of their characters exactly when their bytes do.** -/
theorem encode_lt_encode_iff {s t : List Char} : encode s < encode t ↔ s < t := by
  refine ⟨fun h => ?_, encode_lt_encode⟩
  rcases lt_trichotomy s t with hlt | rfl | hlt
  · exact hlt
  · exact absurd h (List.lt_irrefl _)
  · exact absurd h (List.lt_asymm (encode_lt_encode hlt))

/-! ## Reading back -/

theorem toNat_ofNat {b : Nat} (h : b < 256) : (UInt8.ofNat b).toNat = b :=
  UInt8.toNat_ofNat_of_lt' h

theorem readTail_succ {k : Nat} (hk : k < 64) (n acc : Nat) (rest : List UInt8) :
    readTail (n + 1) acc (UInt8.ofNat (k + 128) :: rest) = readTail n (acc * 64 + k) rest := by
  rw [readTail, toNat_ofNat (by omega), if_pos (by omega), Nat.add_sub_cancel]

theorem readHead_ascii {b : Nat} (h : b < 128) (rest : List UInt8) :
    readHead (UInt8.ofNat b) rest = (some (Char.ofNat b), rest) := by
  unfold readHead
  rw [toNat_ofNat (by omega), if_pos h]

theorem readHead_of_lead {b k : Nat} {lead : Lead} (hb : 128 ≤ b ∧ b < 256) (hk : k < 64)
    (hl : Lead.ofByte? b = some lead) (hlow : lead.low ≤ k + 128) (hhigh : k + 128 ≤ lead.high)
    (rest : List UInt8) :
    readHead (UInt8.ofNat b) (UInt8.ofNat (k + 128) :: rest) =
      readTail lead.more (lead.payload * 64 + k) rest := by
  unfold readHead
  rw [toNat_ofNat hb.2, if_neg (by omega)]
  simp only [hl, toNat_ofNat (b := k + 128) (by omega), hlow, hhigh, and_self, if_true,
    Nat.add_sub_cancel]

theorem Lead.ofByte?_two {n : Nat} (h : 0x80 ≤ n) (h' : n < 0x800) :
    ∃ low high, Lead.ofByte? (n / 64 % 32 + 192) = some ⟨n / 64, low, high, 0⟩ ∧
      low ≤ n % 64 + 128 ∧ n % 64 + 128 ≤ high := by
  refine ⟨0x80, 0xBF, ?_, by omega, by omega⟩
  rw [Lead.ofByte?, if_pos (by omega), Nat.add_sub_cancel, Nat.mod_eq_of_lt (by omega)]

theorem Lead.ofByte?_three {n : Nat} (h : 0x800 ≤ n) (h' : n < 0x10000)
    (hv : n < 0xD800 ∨ 0xDFFF < n) :
    ∃ low high, Lead.ofByte? (n / 4096 % 16 + 224) = some ⟨n / 4096, low, high, 1⟩ ∧
      low ≤ n / 64 % 64 + 128 ∧ n / 64 % 64 + 128 ≤ high := by
  have hn : n / 4096 % 16 = n / 4096 := Nat.mod_eq_of_lt (by omega)
  rw [hn, Lead.ofByte?, if_neg (by omega)]
  split_ifs with h1 h2 h3
  · exact ⟨_, _, by rw [show n / 4096 = 0 by omega], by omega, by omega⟩
  · exact ⟨_, _, by rw [show n / 4096 = 13 by omega], by omega, by omega⟩
  · exact ⟨_, _, by rw [Nat.add_sub_cancel], by omega, by omega⟩
  all_goals omega

theorem Lead.ofByte?_four {n : Nat} (h : 0x10000 ≤ n) (h' : n < 0x110000) :
    ∃ low high, Lead.ofByte? (n / 262144 % 8 + 240) = some ⟨n / 262144, low, high, 2⟩ ∧
      low ≤ n / 4096 % 64 + 128 ∧ n / 4096 % 64 + 128 ≤ high := by
  have hn : n / 262144 % 8 = n / 262144 := Nat.mod_eq_of_lt (by omega)
  rw [hn, Lead.ofByte?, if_neg (by omega), if_neg (by omega), if_neg (by omega), if_neg (by omega)]
  split_ifs with h1 h2 h3
  · exact ⟨_, _, by rw [show n / 262144 = 0 by omega], by omega, by omega⟩
  · exact ⟨_, _, by rw [Nat.add_sub_cancel], by omega, by omega⟩
  · exact ⟨_, _, by rw [show n / 262144 = 4 by omega], by omega, by omega⟩
  all_goals omega

/-- **The bytes of a character are read as it**, whatever follows them. -/
theorem pieces_encodeChar_append (c : Char) (rest : List UInt8) :
    pieces (String.utf8EncodeChar c ++ rest) = some c :: pieces rest := by
  have hbound := toNat_lt c
  have hvalid : c.val.toNat < 0xD800 ∨ 0xDFFF < c.val.toNat := by
    rcases c.valid with h | ⟨h, -⟩
    · exact .inl h
    · exact .inr h
  have hc : Char.ofNat c.val.toNat = c := Char.ofNat_toNat c
  simp only [String.utf8EncodeChar]
  generalize c.val.toNat = n at *
  split_ifs with h1 h2 h3
  · rw [List.singleton_append, pieces, readHead_ascii (by omega), hc]
  · obtain ⟨low, high, hl, hlow, hhigh⟩ := Lead.ofByte?_two (n := n) (by omega) (by omega)
    have hn : n / 64 * 64 + n % 64 = n := by omega
    simp only [List.cons_append, List.nil_append]
    rw [pieces, readHead_of_lead (by omega) (by omega) hl hlow hhigh, readTail, hn, hc]
  · obtain ⟨low, high, hl, hlow, hhigh⟩ := Lead.ofByte?_three (n := n) (by omega) (by omega) hvalid
    have hn : (n / 4096 * 64 + n / 64 % 64) * 64 + n % 64 = n := by omega
    simp only [List.cons_append, List.nil_append]
    rw [pieces, readHead_of_lead (by omega) (by omega) hl hlow hhigh, readTail_succ (by omega),
      readTail, hn, hc]
  · obtain ⟨low, high, hl, hlow, hhigh⟩ := Lead.ofByte?_four (n := n) (by omega) (by omega)
    have hn : ((n / 262144 * 64 + n / 4096 % 64) * 64 + n / 64 % 64) * 64 + n % 64 = n := by omega
    simp only [List.cons_append, List.nil_append]
    rw [pieces, readHead_of_lead (by omega) (by omega) hl hlow hhigh, readTail_succ (by omega),
      readTail_succ (by omega), readTail, hn, hc]

theorem pieces_encode (cs : List Char) : pieces (encode cs) = cs.map some := by
  induction cs with
  | nil => rw [encode, List.flatMap_nil, pieces, List.map_nil]
  | cons c cs ih =>
    rw [encode, List.flatMap_cons, pieces_encodeChar_append, List.map_cons, ← ih, encode]

/-- **The bytes of a text are read as the text.** -/
theorem decode?_encode (cs : List Char) : decode? (encode cs) = some cs := by
  rw [decode?, pieces_encode]
  induction cs with
  | nil => rfl
  | cons c cs ih =>
    rw [List.map_cons, List.mapM_cons, ih]
    rfl

/-! ## Nothing else is read -/

theorem toNat_val_ofNat {n : Nat} (h : n.isValidChar) : (Char.ofNat n).val.toNat = n := by
  rw [Char.ofNat, dif_pos h]
  rfl

theorem readTail_eq_some {n acc : Nat} {bytes rest : List UInt8} {c : Char}
    (h : readTail n acc bytes = (some c, rest)) :
    ∃ ks : List Nat, ks.length = n ∧ (∀ k ∈ ks, k < 64) ∧
      bytes = ks.map (fun k => UInt8.ofNat (k + 128)) ++ rest ∧
      c = Char.ofNat (ks.foldl (fun value k => value * 64 + k) acc) := by
  fun_induction readTail n acc bytes with
  | case1 acc rest =>
    cases h
    have hnone : ∀ k ∈ ([] : List Nat), k < 64 := fun k hk => absurd hk List.not_mem_nil
    exact ⟨[], rfl, hnone, rfl, rfl⟩
  | case2 n acc b bytes hb ih =>
    obtain ⟨ks, hlen, hall, rfl, hc⟩ := ih h
    refine ⟨(b.toNat - 0x80) :: ks, by simp [hlen], ?_, ?_, by rw [hc, List.foldl_cons]⟩
    · intro k hk
      rcases List.mem_cons.1 hk with hk | hk
      · omega
      · exact hall k hk
    · have hbyte : UInt8.ofNat (b.toNat - 0x80 + 128) = b := by
        rw [Nat.sub_add_cancel (by omega), UInt8.ofNat_toNat]
      rw [List.map_cons, hbyte]
      rfl
  | case3 => cases h
  | case4 => cases h

/-- The first byte tells how many follow; with six bits of the second it leaves out overlong forms
and numbers that are no characters. -/
theorem Lead.bounds_of_ofByte? {b k : Nat} {lead : Lead} (h : Lead.ofByte? b = some lead)
    (hlow : lead.low ≤ k + 128) (hhigh : k + 128 ≤ lead.high) :
    k < 64 ∧
      (lead.more = 0 ∧ b = lead.payload + 192 ∧ 0x80 ≤ lead.payload * 64 + k ∧
          lead.payload < 32 ∨
        lead.more = 1 ∧ b = lead.payload + 224 ∧ lead.payload < 16 ∧
          0x20 ≤ lead.payload * 64 + k ∧
          (lead.payload * 64 + k < 0x360 ∨ 0x380 ≤ lead.payload * 64 + k) ∨
        lead.more = 2 ∧ b = lead.payload + 240 ∧ 0x10 ≤ lead.payload * 64 + k ∧
          lead.payload * 64 + k < 0x110) := by
  unfold Lead.ofByte? at h
  split_ifs at h
  all_goals
    obtain rfl := Option.some.inj h
    dsimp only at hlow hhigh ⊢
    omega

theorem Lead.low_of_ofByte? {b : Nat} {lead : Lead} (h : Lead.ofByte? b = some lead) :
    0x80 ≤ lead.low := by
  unfold Lead.ofByte? at h
  split_ifs at h
  all_goals
    obtain rfl := Option.some.inj h
    dsimp only
    omega

theorem encodeChar_ofNat_two {n : Nat} (h : 0x80 ≤ n) (h' : n < 0x800) :
    String.utf8EncodeChar (Char.ofNat n) =
      [UInt8.ofNat (n / 64 + 192), UInt8.ofNat (n % 64 + 128)] := by
  rw [String.utf8EncodeChar, toNat_val_ofNat (.inl (by omega))]
  rw [if_neg (by omega), if_pos (by omega), Nat.mod_eq_of_lt (by omega)]

theorem encodeChar_ofNat_three {n : Nat} (h : 0x800 ≤ n) (h' : n < 0x10000)
    (hv : n.isValidChar) :
    String.utf8EncodeChar (Char.ofNat n) = [UInt8.ofNat (n / 4096 + 224),
      UInt8.ofNat (n / 64 % 64 + 128), UInt8.ofNat (n % 64 + 128)] := by
  rw [String.utf8EncodeChar, toNat_val_ofNat hv]
  rw [if_neg (by omega), if_neg (by omega), if_pos (by omega), Nat.mod_eq_of_lt (by omega)]

theorem encodeChar_ofNat_four {n : Nat} (h : 0x10000 ≤ n) (h' : n < 0x110000) :
    String.utf8EncodeChar (Char.ofNat n) = [UInt8.ofNat (n / 262144 + 240),
      UInt8.ofNat (n / 4096 % 64 + 128), UInt8.ofNat (n / 64 % 64 + 128),
      UInt8.ofNat (n % 64 + 128)] := by
  rw [String.utf8EncodeChar, toNat_val_ofNat (.inr ⟨by omega, h'⟩)]
  rw [if_neg (by omega), if_neg (by omega), if_neg (by omega), Nat.mod_eq_of_lt (by omega)]

/-- A first byte, a second one in its range and as many more as it announces are the bytes of the
character whose bits they carry. -/
theorem encodeChar_of_lead {b k : Nat} {ks : List Nat} {lead : Lead}
    (h : Lead.ofByte? b = some lead) (hlow : lead.low ≤ k + 128) (hhigh : k + 128 ≤ lead.high)
    (hlen : ks.length = lead.more) (hks : ∀ k ∈ ks, k < 64) :
    String.utf8EncodeChar
        (Char.ofNat (ks.foldl (fun value k => value * 64 + k) (lead.payload * 64 + k))) =
      UInt8.ofNat b :: UInt8.ofNat (k + 128) :: ks.map fun k => UInt8.ofNat (k + 128) := by
  obtain ⟨hk, ⟨hmore, hb, hmin, hmax⟩ | ⟨hmore, hb, hmax, hmin, hsurrogate⟩ |
    ⟨hmore, hb, hmin, hmax⟩⟩ := Lead.bounds_of_ofByte? h hlow hhigh
  · obtain rfl : ks = [] := List.length_eq_zero_iff.1 (hlen.trans hmore)
    have h0 : (lead.payload * 64 + k) / 64 = lead.payload := by omega
    have h1 : (lead.payload * 64 + k) % 64 = k := by omega
    rw [List.foldl_nil, encodeChar_ofNat_two (by omega) (by omega), h0, h1, hb, List.map_nil]
  · obtain ⟨k₁, rfl⟩ := List.length_eq_one_iff.1 (hlen.trans hmore)
    have hk₁ := hks k₁ (.head _)
    have hvalid : ((lead.payload * 64 + k) * 64 + k₁).isValidChar := by
      unfold Nat.isValidChar
      omega
    have h0 : ((lead.payload * 64 + k) * 64 + k₁) / 4096 = lead.payload := by omega
    have h1 : ((lead.payload * 64 + k) * 64 + k₁) / 64 % 64 = k := by omega
    have h2 : ((lead.payload * 64 + k) * 64 + k₁) % 64 = k₁ := by omega
    rw [List.foldl_cons, List.foldl_nil, encodeChar_ofNat_three (by omega) (by omega) hvalid,
      h0, h1, h2, hb, List.map_cons, List.map_nil]
  · obtain ⟨k₁, k₂, rfl⟩ := List.length_eq_two.1 (hlen.trans hmore)
    have hk₁ := hks k₁ (.head _)
    have hk₂ := hks k₂ (.tail _ (.head _))
    have h0 : (((lead.payload * 64 + k) * 64 + k₁) * 64 + k₂) / 262144 = lead.payload := by omega
    have h1 : (((lead.payload * 64 + k) * 64 + k₁) * 64 + k₂) / 4096 % 64 = k := by omega
    have h2 : (((lead.payload * 64 + k) * 64 + k₁) * 64 + k₂) / 64 % 64 = k₁ := by omega
    have h3 : (((lead.payload * 64 + k) * 64 + k₁) * 64 + k₂) % 64 = k₂ := by omega
    rw [List.foldl_cons, List.foldl_cons, List.foldl_nil,
      encodeChar_ofNat_four (by omega) (by omega), h0, h1, h2, h3, hb, List.map_cons,
      List.map_cons, List.map_nil]

/-- **What is read as a character is its bytes.** -/
theorem readHead_eq_some {b : UInt8} {rest rest' : List UInt8} {c : Char}
    (h : readHead b rest = (some c, rest')) : b :: rest = String.utf8EncodeChar c ++ rest' := by
  unfold readHead at h
  split at h
  · rename_i hb
    cases h
    rw [String.utf8EncodeChar, toNat_val_ofNat (.inl (by omega))]
    simp only [if_pos (Nat.le_of_lt_succ hb), UInt8.ofNat_toNat, List.singleton_append]
  · split at h
    · rename_i lead second bytes hlead
      split at h
      · rename_i hsecond
        have hlow : 0x80 ≤ second.toNat := (Lead.low_of_ofByte? hlead).trans hsecond.1
        obtain ⟨k, hk⟩ : ∃ k, second.toNat = k + 128 :=
          ⟨second.toNat - 128, (Nat.sub_add_cancel hlow).symm⟩
        simp only [hk, Nat.add_sub_cancel] at h hsecond
        obtain ⟨ks, hlen, hks, rfl, rfl⟩ := readTail_eq_some h
        rw [encodeChar_of_lead hlead hsecond.1 hsecond.2 hlen hks, ← hk, UInt8.ofNat_toNat,
          UInt8.ofNat_toNat]
        rfl
      · cases h
    · cases h

theorem eq_encode_of_pieces {bytes : List UInt8} {cs : List Char}
    (h : pieces bytes = cs.map some) : bytes = encode cs := by
  induction cs generalizing bytes with
  | nil =>
    cases bytes with
    | nil => rfl
    | cons b rest =>
      rw [pieces] at h
      cases h
  | cons c cs ih =>
    cases bytes with
    | nil =>
      rw [pieces] at h
      cases h
    | cons b rest =>
      rw [pieces, List.map_cons] at h
      obtain ⟨hfirst, hmore⟩ := List.cons.inj h
      have hread : readHead b rest = (some c, encode cs) := Prod.ext hfirst (ih hmore)
      rw [readHead_eq_some hread, encode, encode, List.flatMap_cons]

/-- **A byte sequence is a text exactly when it is the bytes of the text.** -/
theorem decode?_eq_some_iff {bytes : List UInt8} {cs : List Char} :
    decode? bytes = some cs ↔ bytes = encode cs := by
  refine ⟨fun h => eq_encode_of_pieces ?_, fun h => h ▸ decode?_encode cs⟩
  unfold decode? at h
  generalize pieces bytes = found at h
  induction found generalizing cs with
  | nil =>
    cases h
    rfl
  | cons piece found ih =>
    simp only [List.mapM_cons, Option.bind_eq_bind, Option.bind_eq_some_iff, id_eq,
      Option.pure_def, Option.some.injEq] at h
    obtain ⟨c, rfl, cs', hcs, rfl⟩ := h
    rw [ih hcs, List.map_cons]

end EviAssist.Utf8
