import Mathlib.Data.List.Basic
import SqlGateway.Text.Utf8

/-!
# Bytes of texts

Well-formed bytes are those of the text that is read from them. Bytes in base 64 are longer than the
bytes.
-/
namespace SqlGateway.Text

theorem toList_toByteArray (bytes : List UInt8) : bytes.toByteArray.toList = bytes := by
  have loop (array : ByteArray) (i : Nat) (done : List UInt8) :
      ByteArray.toList.loop array i done = done.reverse ++ array.data.toList.drop i := by
    fun_induction ByteArray.toList.loop array i done with
    | case1 i done h ih =>
        have hi : i < array.data.toList.length := by simpa using h
        rw [ih, List.drop_eq_getElem_cons hi]
        simp [ByteArray.get!, h]
    | case2 i done h =>
        rw [List.drop_eq_nil_of_le (by simpa using Nat.le_of_not_lt h)]
        simp
  rw [ByteArray.toList, loop, List.toList_data_toByteArray]
  rfl

/-- A text is sent as the bytes of its characters. -/
theorem encode_ofList (cs : List Char) :
    encode (String.ofList cs) = cs.flatMap String.utf8EncodeChar := by
  rw [encode, String.toUTF8_eq_toByteArray, String.toByteArray_ofList, List.utf8Encode]
  exact toList_toByteArray _

section Unit
variable {n : Nat} {rest after : List UInt8}

theorem furtherBytes_zero {least greatest : UInt8} {bits : Nat}
    (h : furtherBytes 0 least greatest bits rest = (some n, after)) : bits = n ∧ rest = after := by
  simpa [furtherBytes] using h

/-- What is read of a character goes on with a byte in the bounds. -/
theorem furtherBytes_succ {count : Nat} {least greatest : UInt8} {bits : Nat}
    (h : furtherBytes (count + 1) least greatest bits rest = (some n, after)) :
    ∃ b more, rest = b :: more ∧ least.toNat ≤ b.toNat ∧ b.toNat ≤ greatest.toNat ∧
      furtherBytes count 0x80 0xbf (bits * 64 + b.toNat % 64) more = (some n, after) := by
  cases rest with
  | nil => simp [furtherBytes] at h
  | cons b more =>
      simp only [furtherBytes, Bool.and_eq_true, decide_eq_true_eq] at h
      split_ifs at h with hbounds
      · exact ⟨b, more, rfl, UInt8.le_iff_toNat_le.mp hbounds.1,
          UInt8.le_iff_toNat_le.mp hbounds.2, h⟩
      · cases h

/-- The bytes of the character with a number. -/
theorem utf8EncodeChar_ofNat (hn : n.isValidChar) : String.utf8EncodeChar (Char.ofNat n) =
    if n ≤ 127 then [UInt8.ofNat n]
    else if n ≤ 2047 then [UInt8.ofNat (n / 64 % 32 + 192), UInt8.ofNat (n % 64 + 128)]
    else if n ≤ 65535 then
      [UInt8.ofNat (n / 4096 % 16 + 224), UInt8.ofNat (n / 64 % 64 + 128),
        UInt8.ofNat (n % 64 + 128)]
    else [UInt8.ofNat (n / 262144 % 8 + 240), UInt8.ofNat (n / 4096 % 64 + 128),
      UInt8.ofNat (n / 64 % 64 + 128), UInt8.ofNat (n % 64 + 128)] := by
  have hval : (Char.ofNat n).val.toNat = n := by
    rw [Char.ofNat, dif_pos hn]
    rfl
  rw [String.utf8EncodeChar, hval]

theorem eq_ofNat {b : UInt8} {m : Nat} (h : b.toNat = m) : b = UInt8.ofNat m := by
  rw [← h, UInt8.ofNat_toNat]

-- The characters of two, three and four bytes. The second byte is bounded more narrowly where a
-- shorter form exists, among the surrogates and beyond the last character.
section Bytes
variable {b b₁ b₂ b₃ : UInt8}

abbrev IsFurther (b : UInt8) : Prop := 128 ≤ b.toNat ∧ b.toNat ≤ 191

theorem utf8EncodeChar_two (hb : 194 ≤ b.toNat ∧ b.toNat ≤ 223) (h₁ : IsFurther b₁) :
    String.utf8EncodeChar (Char.ofNat (b.toNat % 32 * 64 + b₁.toNat % 64)) = [b, b₁] := by
  rw [utf8EncodeChar_ofNat (.inl (by omega)), if_neg (by omega), if_pos (by omega),
    ← eq_ofNat (b := b) (by omega), ← eq_ofNat (b := b₁) (by omega)]

theorem utf8EncodeChar_three (hb : 224 ≤ b.toNat ∧ b.toNat ≤ 239) (h₁ : IsFurther b₁)
    (h₂ : IsFurther b₂) (hlong : b.toNat = 224 → 160 ≤ b₁.toNat)
    (hsurrogate : b.toNat = 237 → b₁.toNat ≤ 159) :
    String.utf8EncodeChar (Char.ofNat ((b.toNat % 16 * 64 + b₁.toNat % 64) * 64 + b₂.toNat % 64)) =
      [b, b₁, b₂] := by
  have hvalid : ((b.toNat % 16 * 64 + b₁.toNat % 64) * 64 + b₂.toNat % 64).isValidChar := by
    unfold Nat.isValidChar
    omega
  rw [utf8EncodeChar_ofNat hvalid, if_neg (by omega), if_neg (by omega), if_pos (by omega),
    ← eq_ofNat (b := b) (by omega), ← eq_ofNat (b := b₁) (by omega), ← eq_ofNat (b := b₂)
      (by omega)]

theorem utf8EncodeChar_four (hb : 240 ≤ b.toNat ∧ b.toNat ≤ 244) (h₁ : IsFurther b₁)
    (h₂ : IsFurther b₂) (h₃ : IsFurther b₃) (hlong : b.toNat = 240 → 144 ≤ b₁.toNat)
    (hlast : b.toNat = 244 → b₁.toNat ≤ 143) : String.utf8EncodeChar (Char.ofNat
      (((b.toNat % 8 * 64 + b₁.toNat % 64) * 64 + b₂.toNat % 64) * 64 + b₃.toNat % 64)) =
        [b, b₁, b₂, b₃] := by
  have hvalid : (((b.toNat % 8 * 64 + b₁.toNat % 64) * 64 + b₂.toNat % 64) * 64
      + b₃.toNat % 64).isValidChar := by
    unfold Nat.isValidChar
    omega
  rw [utf8EncodeChar_ofNat hvalid, if_neg (by omega), if_neg (by omega), if_neg (by omega),
    ← eq_ofNat (b := b) (by omega), ← eq_ofNat (b := b₁) (by omega), ← eq_ofNat (b := b₂)
      (by omega),
    ← eq_ofNat (b := b₃) (by omega)]

end Bytes

/-- The unit that is read first is a character whose bytes stand there. -/
theorem utf8EncodeChar_of_firstUnit {b : UInt8} (h : firstUnit b rest = (some n, after)) :
    String.utf8EncodeChar (Char.ofNat n) ++ after = b :: rest := by
  have toNat_ite (p : Prop) [Decidable p] (x y : UInt8) :
      (if p then x else y).toNat = if p then x.toNat else y.toNat := apply_ite ..
  unfold firstUnit at h
  simp only [UInt8.lt_iff_toNat_lt, UInt8.reduceToNat] at h
  split at h
  · obtain ⟨hn, rfl⟩ := Prod.mk.inj h
    obtain rfl := Option.some.inj hn
    rw [utf8EncodeChar_ofNat (.inl (by omega)), if_pos (by omega), UInt8.ofNat_toNat]
    rfl
  split at h
  · cases h
  split at h
  · obtain ⟨b₁, more, rfl, hleast, hgreatest, h⟩ := furtherBytes_succ h
    obtain ⟨rfl, rfl⟩ := furtherBytes_zero h
    rw [utf8EncodeChar_two (by omega) ⟨hleast, hgreatest⟩]
    rfl
  split at h
  · obtain ⟨b₁, more, rfl, hleast, hgreatest, h⟩ := furtherBytes_succ h
    obtain ⟨b₂, more, rfl, hleast₂, hgreatest₂, h⟩ := furtherBytes_succ h
    obtain ⟨rfl, rfl⟩ := furtherBytes_zero h
    simp only [toNat_ite, ← UInt8.toNat_inj, UInt8.reduceToNat] at hleast hgreatest
    rw [utf8EncodeChar_three (by omega) (by split_ifs at hleast hgreatest <;> omega)
      ⟨hleast₂, hgreatest₂⟩
      (fun he => by rwa [if_pos he] at hleast) (fun he => by rwa [if_pos he] at hgreatest)]
    rfl
  split at h
  · obtain ⟨b₁, more, rfl, hleast, hgreatest, h⟩ := furtherBytes_succ h
    obtain ⟨b₂, more, rfl, hleast₂, hgreatest₂, h⟩ := furtherBytes_succ h
    obtain ⟨b₃, more, rfl, hleast₃, hgreatest₃, h⟩ := furtherBytes_succ h
    obtain ⟨rfl, rfl⟩ := furtherBytes_zero h
    simp only [toNat_ite, ← UInt8.toNat_inj, UInt8.reduceToNat] at hleast hgreatest
    rw [utf8EncodeChar_four (by omega) (by split_ifs at hleast hgreatest <;> omega)
      ⟨hleast₂, hgreatest₂⟩ ⟨hleast₃, hgreatest₃⟩ (fun he => by rwa [if_pos he] at hleast)
      (fun he => by rwa [if_pos he] at hgreatest)]
    rfl
  · cases h

end Unit

/-- Units that are all characters are those of the bytes. -/
theorem flatMap_of_units {bytes : List UInt8} {cs : List Char}
    (h : (units bytes).mapM id = some cs) : cs.flatMap String.utf8EncodeChar = bytes := by
  induction bytes using units.induct generalizing cs with
  | case1 =>
      rw [units] at h
      obtain rfl := Option.some.inj h
      rfl
  | case2 b rest unit =>
      rename_i ih
      rw [units, List.mapM_cons] at h
      obtain ⟨c, hc, hrest⟩ := Option.bind_eq_some_iff.mp h
      obtain ⟨more, hmore, hcons⟩ := Option.bind_eq_some_iff.mp hrest
      obtain rfl := Option.some.inj hcons
      obtain ⟨n, hn, rfl⟩ := Option.map_eq_some_iff.mp hc
      rw [List.flatMap_cons, ih hmore]
      exact utf8EncodeChar_of_firstUnit (Prod.ext hn rfl)

/-- Bytes that are a text are the bytes of this text. -/
theorem encode_of_decode? {bytes : List UInt8} {s : String} (h : decode? bytes = some s) :
    encode s = bytes := by
  obtain ⟨cs, hcs, rfl⟩ := Option.map_eq_some_iff.mp h
  rw [encode_ofList, flatMap_of_units hcs]

theorem length_base64Chars (bytes : List UInt8) :
    (base64Chars bytes).length = (bytes.length + 2) / 3 * 4 := by
  fun_induction base64Chars bytes with
  | case1 => rfl
  | case2 =>
      simp only [List.length_cons, List.length_nil, Nat.reduceAdd, Nat.reduceDiv, Nat.reduceMul]
  | case3 =>
      simp only [List.length_cons, List.length_nil, Nat.reduceAdd, Nat.reduceDiv, Nat.reduceMul]
  | case4 a b c rest n ih =>
      simp only [List.length_cons, ih]
      omega

theorem length_le_length_encode (cs : List Char) :
    cs.length ≤ (encode (String.ofList cs)).length := by
  rw [encode_ofList]
  induction cs with
  | nil => exact Nat.le_refl _
  | cons c cs ih =>
      have hc : 0 < (String.utf8EncodeChar c).length := by
        rw [String.length_utf8EncodeChar]
        exact c.utf8Size_pos
      rw [List.flatMap_cons, List.length_append, List.length_cons]
      omega

/-- No bytes but none are their own form in base 64. -/
theorem encode_base64_ne {bytes : List UInt8} (h : bytes ≠ []) : encode (base64 bytes) ≠ bytes := by
  intro heq
  have hpos := List.length_pos_iff.mpr h
  have hle : (base64Chars bytes).length ≤ bytes.length := by
    calc (base64Chars bytes).length ≤ (encode (base64 bytes)).length := length_le_length_encode _
      _ = bytes.length := by rw [heq]
  rw [length_base64Chars] at hle
  omega

end SqlGateway.Text
