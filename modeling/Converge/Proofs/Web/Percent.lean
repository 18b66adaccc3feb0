import Converge.Web.Percent

/-
  Percent-encoding can be undone.

  What is reserved is written as the bytes of its UTF-8
  form. Where the percent sign is reserved itself, the bytes
  of the whole text are read back.

  Main declarations:
    * `Percent.decode_encode`: the bytes of a written text
    * `Percent.not_mem_encode`: what is reserved does not
      stand in a written text
-/

namespace Converge

namespace Percent

------------------------------------------------------------
-- Digits
------------------------------------------------------------

theorem hexValue?_hexDigit :
    ∀ place : Fin 16,
      Text.hexValue? (hexDigit place) = some place.val := by
  decide

theorem isAlphanum_hexDigit :
    ∀ place : Fin 16,
      (hexDigit place).isAlphanum = true := by
  decide

/- The two digits of a byte stand for it. -/
theorem byte?_hexDigit (byte : UInt8) :
    byte? (hexDigit (byte.toNat / 16))
        (hexDigit (byte.toNat % 16)) =
      some byte := by
  have hRange : byte.toNat < 256 := byte.toNat_lt
  have hHigh :=
    hexValue?_hexDigit ⟨byte.toNat / 16, by omega⟩
  have hLow :=
    hexValue?_hexDigit ⟨byte.toNat % 16, by omega⟩
  have hWhole :
      byte.toNat / 16 * 16 + byte.toNat % 16 =
        byte.toNat := by
    omega
  simp only [byte?, hHigh, hLow, Option.bind_eq_bind,
    Option.bind_some, hWhole, UInt8.ofNat_toNat]
  rfl

------------------------------------------------------------
-- Reading Back
------------------------------------------------------------

theorem decode_encodeByte_append
    (byte : UInt8)
    (rest : List Char) :
    decode (encodeByte byte ++ rest) =
      byte :: decode rest := by
  simp [encodeByte, decode, byte?_hexDigit]

theorem decode_encodeBytes_append
    (bytes : List UInt8)
    (rest : List Char) :
    decode (bytes.flatMap encodeByte ++ rest) =
      bytes ++ decode rest := by
  induction bytes with
  | nil => rfl
  | cons byte bytes ih =>
      rw [List.flatMap_cons, List.append_assoc,
        decode_encodeByte_append, ih, List.cons_append]

/- Everything but a percent sign stands for itself. -/
theorem decode_cons_of_ne
    {c : Char}
    (hSign : c ≠ '%')
    (rest : List Char) :
    decode (c :: rest) =
      String.utf8EncodeChar c ++ decode rest := by
  rw [decode]
  intro _ _ _ hIs
  exact absurd hIs hSign

variable {reserved : Char → Bool}

theorem decode_encodeChar_append
    (hSign : reserved '%' = true)
    (c : Char)
    (rest : List Char) :
    decode (encodeChar reserved c ++ rest) =
      String.utf8EncodeChar c ++ decode rest := by
  unfold encodeChar
  split
  · exact decode_encodeBytes_append _ rest
  · rename_i hFree
    have hOther : c ≠ '%' := by
      rintro rfl
      exact hFree hSign
    exact decode_cons_of_ne hOther rest

/- What is written of a text stands for its bytes. -/
theorem decode_encode
    (hSign : reserved '%' = true)
    (chars : List Char) :
    decode (encode reserved chars) =
      chars.flatMap String.utf8EncodeChar := by
  unfold encode
  induction chars with
  | nil => rfl
  | cons c chars ih =>
      rw [List.flatMap_cons, List.flatMap_cons,
        decode_encodeChar_append hSign, ih]

------------------------------------------------------------
-- Characters of a Written Text
------------------------------------------------------------

theorem mem_encodeByte
    {c : Char}
    {byte : UInt8}
    (hMem : c ∈ encodeByte byte) :
    c = '%' ∨ c.isAlphanum = true := by
  have hRange : byte.toNat < 256 := byte.toNat_lt
  simp only [encodeByte, List.mem_cons, List.not_mem_nil,
    or_false] at hMem
  rcases hMem with hMem | hMem | hMem
  · exact .inl hMem
  · rw [hMem]
    exact .inr
      (isAlphanum_hexDigit ⟨byte.toNat / 16, by omega⟩)
  · rw [hMem]
    exact .inr
      (isAlphanum_hexDigit ⟨byte.toNat % 16, by omega⟩)

/- A reserved character stands in no written text, unless
   bytes are written with it. -/
theorem not_mem_encode
    {c : Char}
    (hReserved : reserved c = true)
    (hSign : c ≠ '%')
    (hDigit : c.isAlphanum = false)
    (chars : List Char) :
    c ∉ encode reserved chars := by
  intro hMem
  obtain ⟨d, -, hWritten⟩ := List.mem_flatMap.1 hMem
  unfold encodeChar at hWritten
  split at hWritten
  · obtain ⟨byte, -, hByte⟩ := List.mem_flatMap.1 hWritten
    rcases mem_encodeByte hByte with hIs | hIs
    · exact hSign hIs
    · rw [hDigit] at hIs
      exact Bool.false_ne_true hIs
  · rename_i hFree
    rw [List.mem_singleton.1 hWritten] at hReserved
    exact hFree hReserved

end Percent

end Converge
