-- Text that is written as UTF-8, and each of its bytes as a percent sign with two
-- digits, reads back as it was.
import PipelineBoard.Text.Percent

namespace PipelineBoard.Text

/-! ## One byte at a time -/

theorem readBytes_start {b : UInt8} {p : Partial} (h : Partial.start b.toNat = ([], some p))
    (rest : List UInt8) : readBytes none (b :: rest) = readBytes (some p) rest := by
  rw [readBytes, Partial.feed, h]
  rfl

/-- A byte within bounds adds its bits to the character that has begun. -/
theorem readBytes_next {missing lower upper bits : Nat} {b : UInt8} (h : lower ≤ b.toNat)
    (h' : b.toNat ≤ upper) (rest : List UInt8) :
    readBytes (some ⟨missing + 2, lower, upper, bits⟩) (b :: rest) =
      readBytes (some ⟨missing + 1, 0x80, 0xbf, 64 * bits + (b.toNat - 0x80)⟩) rest := by
  rw [readBytes, Partial.feed]
  simp [h, h']

theorem readBytes_last {lower upper bits : Nat} {b : UInt8} (h : lower ≤ b.toNat)
    (h' : b.toNat ≤ upper) (rest : List UInt8) :
    readBytes (some ⟨1, lower, upper, bits⟩) (b :: rest) =
      Char.ofNat (64 * bits + (b.toNat - 0x80)) :: readBytes none rest := by
  rw [readBytes, Partial.feed]
  simp [h, h']

/-! ## The first byte of a character -/

theorem start_two {b : Nat} (h : 0xc2 ≤ b) (h' : b ≤ 0xdf) :
    Partial.start b = ([], some ⟨1, 0x80, 0xbf, b - 0xc0⟩) := by
  unfold Partial.start
  grind

/-- The second of three bytes is bounded so that the character is none of two bytes
and no half of a pair. -/
theorem start_three {b : Nat} (h : 0xe0 ≤ b) (h' : b ≤ 0xef) :
    ∃ lower upper, Partial.start b = ([], some ⟨2, lower, upper, b - 0xe0⟩) ∧
      lower = (if b = 0xe0 then 0xa0 else 0x80) ∧ upper = if b = 0xed then 0x9f else 0xbf := by
  unfold Partial.start
  grind

/-- The second of four bytes is bounded so that the character is none of three bytes
and not behind the last one. -/
theorem start_four {b : Nat} (h : 0xf0 ≤ b) (h' : b ≤ 0xf4) :
    ∃ lower upper, Partial.start b = ([], some ⟨3, lower, upper, b - 0xf0⟩) ∧
      lower = (if b = 0xf0 then 0x90 else 0x80) ∧ upper = if b = 0xf4 then 0x8f else 0xbf := by
  unfold Partial.start
  grind

/-! ## Whole characters -/

theorem toNat_ofNat_of_lt {n : Nat} (h : n < 256) : (UInt8.ofNat n).toNat = n := by
  rw [UInt8.toNat_ofNat']
  exact Nat.mod_eq_of_lt h

/-- The bytes of a character, by how many there are. -/
theorem utf8EncodeChar_eq (c : Char) :
    String.utf8EncodeChar c =
      if c.toNat ≤ 0x7f then [.ofNat c.toNat]
      else if c.toNat ≤ 0x7ff then [.ofNat (c.toNat / 64 % 32 + 0xc0), .ofNat (c.toNat % 64 + 0x80)]
      else if c.toNat ≤ 0xffff then
        [.ofNat (c.toNat / 4096 % 16 + 0xe0), .ofNat (c.toNat / 64 % 64 + 0x80),
          .ofNat (c.toNat % 64 + 0x80)]
      else
        [.ofNat (c.toNat / 262144 % 8 + 0xf0), .ofNat (c.toNat / 4096 % 64 + 0x80),
          .ofNat (c.toNat / 64 % 64 + 0x80), .ofNat (c.toNat % 64 + 0x80)] := rfl

section

variable {c : Char} (rest : List UInt8)

theorem readBytes_one (h : c.toNat ≤ 0x7f) :
    readBytes none (.ofNat c.toNat :: rest) = c :: readBytes none rest := by
  have hbyte := toNat_ofNat_of_lt (n := c.toNat) (by omega)
  rw [readBytes, Partial.feed, Partial.start, hbyte, if_pos (by omega), Char.ofNat_toNat]
  rfl

theorem readBytes_two (h : 0x7f < c.toNat) (h' : c.toNat ≤ 0x7ff) :
    readBytes none (.ofNat (c.toNat / 64 % 32 + 0xc0) :: .ofNat (c.toNat % 64 + 0x80) :: rest) =
      c :: readBytes none rest := by
  have hfirst := toNat_ofNat_of_lt (n := c.toNat / 64 % 32 + 0xc0) (by omega)
  have hlast := toNat_ofNat_of_lt (n := c.toNat % 64 + 0x80) (by omega)
  have hstart := start_two (b := c.toNat / 64 % 32 + 0xc0) (by omega) (by omega)
  rw [← hfirst] at hstart
  rw [readBytes_start hstart, readBytes_last (by omega) (by omega), hfirst, hlast]
  have hbits : 64 * (c.toNat / 64 % 32 + 0xc0 - 0xc0) + (c.toNat % 64 + 0x80 - 0x80) = c.toNat := by
    omega
  rw [hbits, Char.ofNat_toNat]

/-- No character is half of a pair, and so its second byte is within bounds. -/
theorem readBytes_three (h : 0x7ff < c.toNat) (h' : c.toNat ≤ 0xffff) :
    readBytes none (.ofNat (c.toNat / 4096 % 16 + 0xe0) :: .ofNat (c.toNat / 64 % 64 + 0x80) ::
      .ofNat (c.toNat % 64 + 0x80) :: rest) = c :: readBytes none rest := by
  have hvalid : c.toNat < 0xd800 ∨ 0xdfff < c.toNat ∧ c.toNat < 0x110000 := c.valid
  have hfirst := toNat_ofNat_of_lt (n := c.toNat / 4096 % 16 + 0xe0) (by omega)
  have hnext := toNat_ofNat_of_lt (n := c.toNat / 64 % 64 + 0x80) (by omega)
  have hlast := toNat_ofNat_of_lt (n := c.toNat % 64 + 0x80) (by omega)
  obtain ⟨lower, upper, hstart, hlower, hupper⟩ :=
    start_three (b := c.toNat / 4096 % 16 + 0xe0) (by omega) (by omega)
  have hbounds : lower ≤ c.toNat / 64 % 64 + 0x80 ∧ c.toNat / 64 % 64 + 0x80 ≤ upper := by
    split at hlower <;> split at hupper <;> omega
  rw [← hfirst] at hstart
  rw [readBytes_start hstart, readBytes_next (by omega) (by omega),
    readBytes_last (by omega) (by omega), hfirst, hnext, hlast]
  have hbits : 64 * (64 * (c.toNat / 4096 % 16 + 0xe0 - 0xe0) + (c.toNat / 64 % 64 + 0x80 - 0x80)) +
      (c.toNat % 64 + 0x80 - 0x80) = c.toNat := by
    omega
  rw [hbits, Char.ofNat_toNat]

/-- No character is behind the last one, and so its second byte is within bounds. -/
theorem readBytes_four (h : 0xffff < c.toNat) :
    readBytes none (.ofNat (c.toNat / 262144 % 8 + 0xf0) :: .ofNat (c.toNat / 4096 % 64 + 0x80) ::
      .ofNat (c.toNat / 64 % 64 + 0x80) :: .ofNat (c.toNat % 64 + 0x80) :: rest) =
      c :: readBytes none rest := by
  have hvalid : c.toNat < 0xd800 ∨ 0xdfff < c.toNat ∧ c.toNat < 0x110000 := c.valid
  have hfirst := toNat_ofNat_of_lt (n := c.toNat / 262144 % 8 + 0xf0) (by omega)
  have hnext := toNat_ofNat_of_lt (n := c.toNat / 4096 % 64 + 0x80) (by omega)
  have hthird := toNat_ofNat_of_lt (n := c.toNat / 64 % 64 + 0x80) (by omega)
  have hlast := toNat_ofNat_of_lt (n := c.toNat % 64 + 0x80) (by omega)
  obtain ⟨lower, upper, hstart, hlower, hupper⟩ :=
    start_four (b := c.toNat / 262144 % 8 + 0xf0) (by omega) (by omega)
  have hbounds : lower ≤ c.toNat / 4096 % 64 + 0x80 ∧ c.toNat / 4096 % 64 + 0x80 ≤ upper := by
    split at hlower <;> split at hupper <;> omega
  rw [← hfirst] at hstart
  rw [readBytes_start hstart, readBytes_next (by omega) (by omega),
    readBytes_next (by omega) (by omega), readBytes_last (by omega) (by omega), hfirst, hnext,
    hthird, hlast]
  have hbits : 64 * (64 * (64 * (c.toNat / 262144 % 8 + 0xf0 - 0xf0) +
      (c.toNat / 4096 % 64 + 0x80 - 0x80)) + (c.toNat / 64 % 64 + 0x80 - 0x80)) +
      (c.toNat % 64 + 0x80 - 0x80) = c.toNat := by
    omega
  rw [hbits, Char.ofNat_toNat]

end

theorem readBytes_encode (c : Char) (rest : List UInt8) :
    readBytes none (String.utf8EncodeChar c ++ rest) = c :: readBytes none rest := by
  rw [utf8EncodeChar_eq]
  split
  · exact readBytes_one rest (by omega)
  split
  · exact readBytes_two rest (by omega) (by omega)
  split
  · exact readBytes_three rest (by omega) (by omega)
  · exact readBytes_four rest (by omega)

theorem readBytes_flatMap_encode (cs : List Char) :
    readBytes none (cs.flatMap String.utf8EncodeChar) = cs := by
  induction cs with
  | nil => rfl
  | cons c rest ih => rw [List.flatMap_cons, readBytes_encode, ih]

/-- The bytes of a text are no other text's. -/
theorem fromUTF8?_toByteArray (s : String) : String.fromUTF8? s.toByteArray = some s := by
  unfold String.fromUTF8?
  rw [dif_pos s.isValidUTF8]
  rfl

/-- The text with each of its bytes behind a percent sign. -/
def percentAll (s : String) : String :=
  String.ofList ((s.toList.flatMap String.utf8EncodeChar).flatMap percentByte)

theorem hexValue?_toUpper_digitChar : ∀ n < 16, hexValue? (Nat.digitChar n).toUpper = some n := by
  decide

theorem percentBytes_percentByte (b : UInt8) (rest : List Char) :
    percentBytes (percentByte b ++ rest) = b :: percentBytes rest := by
  have hlt := b.toNat_lt
  have hdigits : percentByte b ++ rest = '%' :: (Nat.digitChar (b.toNat / 16)).toUpper ::
      (Nat.digitChar (b.toNat % 16)).toUpper :: rest := rfl
  have hhigh := hexValue?_toUpper_digitChar (b.toNat / 16) (by omega)
  have hlow := hexValue?_toUpper_digitChar (b.toNat % 16) (by omega)
  have hvalue : 16 * (b.toNat / 16) + b.toNat % 16 = b.toNat := by omega
  rw [hdigits, percentBytes]
  simp only [hhigh, hlow]
  rw [hvalue, UInt8.ofNat_toNat]

theorem percentBytes_flatMap_append (bytes : List UInt8) (rest : List Char) :
    percentBytes (bytes.flatMap percentByte ++ rest) = bytes ++ percentBytes rest := by
  induction bytes with
  | nil => rfl
  | cons b bytes ih =>
    rw [List.flatMap_cons, List.append_assoc, percentBytes_percentByte, ih, List.cons_append]

theorem percentBytes_flatMap_percentByte (bytes : List UInt8) :
    percentBytes (bytes.flatMap percentByte) = bytes := by
  have happend := percentBytes_flatMap_append bytes []
  rwa [List.append_nil, percentBytes, List.append_nil] at happend

theorem percentBytes_append {cs : List Char} (h : '%' ∉ cs) (rest : List Char) :
    percentBytes (cs ++ rest) = cs.flatMap String.utf8EncodeChar ++ percentBytes rest := by
  induction cs with
  | nil => rfl
  | cons c cs ih =>
    rw [List.mem_cons, not_or] at h
    rw [List.cons_append, percentBytes, ih h.2, List.flatMap_cons, List.append_assoc]
    rintro _ _ _ rfl
    exact absurd rfl h.1

/-- A text without percent signs, and an encoded one behind it, read back. -/
theorem percentDecode_append_percentAll {front : String} (h : '%' ∉ front.toList) (s : String) :
    percentDecode (front ++ percentAll s) = front ++ s := by
  unfold percentDecode percentAll ofUtf8Lossy
  rw [String.toList_append, String.toList_ofList, percentBytes_append h,
    percentBytes_flatMap_percentByte, ← List.flatMap_append, readBytes_flatMap_encode,
    String.ofList_append, String.ofList_toList, String.ofList_toList]

/-- The characters of an encoded byte are a percent sign and digits. -/
theorem of_mem_percentByte {p : Char → Bool} (hmark : p '%' = true)
    (hdigit : ∀ n < 16, p (Nat.digitChar n).toUpper = true) (b : UInt8) :
    ∀ c ∈ percentByte b, p c = true := by
  intro c hc
  have hlt := b.toNat_lt
  rcases List.mem_cons.mp hc with rfl | hc
  · exact hmark
  · rcases List.mem_cons.mp hc with rfl | hc
    · exact hdigit _ (by omega)
    · rw [List.mem_singleton.mp hc]
      exact hdigit _ (by omega)

theorem of_mem_percentAll {p : Char → Bool} (hmark : p '%' = true)
    (hdigit : ∀ n < 16, p (Nat.digitChar n).toUpper = true) (s : String) :
    ∀ c ∈ (percentAll s).toList, p c = true := by
  intro c hc
  rw [percentAll, String.toList_ofList, List.mem_flatMap] at hc
  obtain ⟨b, _, hc⟩ := hc
  exact of_mem_percentByte hmark hdigit b c hc

/-! ## Percent signs where they are needed -/

/-- An encoded text is made of safe characters, percent signs and digits. -/
theorem of_mem_percentEncode {p : Char → Bool} (hsafe : ∀ c, isPathSafe c = true → p c = true)
    (hmark : p '%' = true) (hdigit : ∀ n < 16, p (Nat.digitChar n).toUpper = true) (s : String) :
    ∀ c ∈ (percentEncode s).toList, p c = true := by
  intro c hc
  rw [percentEncode, String.toList_ofList, percentChars, List.mem_flatMap] at hc
  obtain ⟨d, _, hc⟩ := hc
  split at hc
  · rename_i hd
    rw [List.mem_singleton.mp hc]
    exact hsafe d hd
  · obtain ⟨b, _, hc⟩ := List.mem_flatMap.mp hc
    exact of_mem_percentByte hmark hdigit b c hc

/-- A percent sign is not safe, and so an encoded text stands for the bytes of
the text. -/
theorem percentBytes_percentChars (cs : List Char) :
    percentBytes (percentChars cs) = cs.flatMap String.utf8EncodeChar := by
  unfold percentChars
  induction cs with
  | nil => rfl
  | cons c cs ih =>
    rw [List.flatMap_cons, List.flatMap_cons]
    split
    · rename_i hsafe
      have hmark : '%' ∉ [c] := by
        rw [List.mem_singleton]
        rintro rfl
        exact absurd hsafe (by decide)
      rw [percentBytes_append hmark, ih, List.flatMap_singleton]
    · rw [percentBytes_flatMap_append, ih]

end PipelineBoard.Text
