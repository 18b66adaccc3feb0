import Converge.Json.Pointer
import Converge.Proofs.Result

/-
  Written pointers.

  Whatever its tokens are, a pointer is read back from its
  text: slashes and tildes inside a token are escaped, and an
  empty token is two slashes in a row. Nothing but this text
  is read as the pointer.

  Main declarations:
    * `Pointer.read?_text`
    * `Pointer.read?_eq_some_iff`
-/

namespace Converge

namespace Pointer

------------------------------------------------------------
-- Tokens
------------------------------------------------------------

theorem unescapeChars?_escapeChars (token : List Char) :
    unescapeChars? (escapeChars token) = some token := by
  induction token with
  | nil => rfl
  | cons c rest ih =>
      rw [escapeChars] at ih
      simp only [escapeChars, List.flatMap_cons, escapeChar]
      by_cases hTilde : c = '~'
      · simp [hTilde, unescapeChars?, ih]
      · by_cases hSlash : c = '/'
        · simp [hSlash, unescapeChars?, ih]
        · simp [hTilde, hSlash, unescapeChars?, ih]

theorem map_unescapeChars?_escapeChars (token : String) :
    (unescapeChars? (escapeChars token.toList)).map
        String.ofList =
      some token := by
  rw [unescapeChars?_escapeChars, Option.map_some,
    String.ofList_toList]

/- No slash is left in an escaped token. -/
theorem slash_not_mem_escapeChars (token : List Char) :
    '/' ∉ escapeChars token := by
  simp only [escapeChars, List.mem_flatMap, not_exists,
    not_and]
  intro c _ hSlash
  by_cases hTilde : c = '~'
  · simp [escapeChar, hTilde] at hSlash
  · by_cases hIsSlash : c = '/'
    · simp [escapeChar, hIsSlash] at hSlash
    · simp [escapeChar, hTilde, hIsSlash] at hSlash
      exact hIsSlash hSlash.symm

/- Only the escaped form of a token is read as that token. -/
theorem eq_escapeChars_of_unescapeChars?
    {written token : List Char}
    (hSlash : '/' ∉ written)
    (h : unescapeChars? written = some token) :
    written = escapeChars token := by
  fun_induction unescapeChars? written generalizing token with
  | case1 =>
      cases h
      rfl
  | case2 rest ih =>
      simp only [List.mem_cons, not_or] at hSlash
      rcases Option.map_eq_some_iff.1 h with
        ⟨inner, hInner, rfl⟩
      rw [ih hSlash.2.2 hInner]
      simp [escapeChars, escapeChar]
  | case3 rest ih =>
      simp only [List.mem_cons, not_or] at hSlash
      rcases Option.map_eq_some_iff.1 h with
        ⟨inner, hInner, rfl⟩
      rw [ih hSlash.2.2 hInner]
      simp [escapeChars, escapeChar]
  | case4 => cases h
  | case5 c rest hZero hOne hTilde ih =>
      simp only [List.mem_cons, not_or] at hSlash
      rcases Option.map_eq_some_iff.1 h with
        ⟨inner, hInner, rfl⟩
      rw [ih hSlash.2 hInner]
      simp [escapeChars, escapeChar, hTilde,
        Ne.symm hSlash.1]

------------------------------------------------------------
-- Splitting
------------------------------------------------------------

theorem splitSlashes_ne_nil (text : List Char) :
    splitSlashes text ≠ [] := by
  cases text with
  | nil => simp [splitSlashes]
  | cons c rest =>
      simp only [splitSlashes]
      split
      · simp
      · split <;> simp

theorem splitSlashes_slash (text : List Char) :
    splitSlashes ('/' :: text) = [] :: splitSlashes text := by
  cases h : splitSlashes text with
  | nil => exact absurd h (splitSlashes_ne_nil text)
  | cons first others => simp [splitSlashes, h]

/- What has no slash belongs to the first piece. -/
theorem splitSlashes_append
    {front : List Char}
    (hFront : '/' ∉ front)
    {text first : List Char}
    {others : List (List Char)}
    (hText : splitSlashes text = first :: others) :
    splitSlashes (front ++ text) =
      (front ++ first) :: others := by
  induction front with
  | nil => exact hText
  | cons c rest ih =>
      simp only [List.mem_cons, not_or] at hFront
      have hRest := ih hFront.2
      simp [splitSlashes, hRest, Ne.symm hFront.1]

@[simp] theorem chars_cons
    (token : String)
    (rest : Pointer) :
    chars (token :: rest) =
      '/' :: (escapeChars token.toList ++ chars rest) := by
  simp [chars]

@[simp] theorem toList_text (pointer : Pointer) :
    (text pointer).toList = chars pointer := by
  rw [text, String.toList_ofList]

/- The pieces of a pointer after its first slash. -/
theorem splitSlashes_chars
    (token : String)
    (rest : Pointer) :
    splitSlashes (escapeChars token.toList ++ chars rest) =
      (token :: rest).map fun token =>
        escapeChars token.toList := by
  induction rest generalizing token with
  | nil =>
      have hEmpty : splitSlashes (chars []) = [[]] := rfl
      rw [splitSlashes_append
        (slash_not_mem_escapeChars token.toList) hEmpty]
      simp
  | cons next rest ih =>
      have hSplit :
          splitSlashes (chars (next :: rest)) =
            [] :: (next :: rest).map fun token =>
              escapeChars token.toList := by
        rw [chars_cons, splitSlashes_slash, ih next]
      rw [splitSlashes_append
        (slash_not_mem_escapeChars token.toList) hSplit]
      simp

/- The pieces have no slash, and slashes join them. -/
theorem exists_of_splitSlashes
    (written : List Char) :
    ∃ first others,
      splitSlashes written = first :: others ∧
        (∀ piece ∈ first :: others, '/' ∉ piece) ∧
        written =
          first ++ others.flatMap fun piece => '/' :: piece := by
  induction written with
  | nil => exact ⟨[], [], rfl, by simp, rfl⟩
  | cons c rest ih =>
      rcases ih with
        ⟨first, others, hSplit, hPieces, hRest⟩
      by_cases hSlash : c = '/'
      · subst hSlash
        refine ⟨[], first :: others, ?_, ?_, ?_⟩
        · simp [splitSlashes, hSplit]
        · simpa using hPieces
        · simp [hRest]
      · refine ⟨c :: first, others, ?_, ?_, ?_⟩
        · simp [splitSlashes, hSplit, hSlash]
        · rw [List.forall_mem_cons] at hPieces ⊢
          refine ⟨?_, hPieces.2⟩
          simpa [Ne.symm hSlash] using hPieces.1
        · simp [hRest]

------------------------------------------------------------
-- Pointers
------------------------------------------------------------

/- A pointer is read back from its text. -/
@[simp] theorem read?_text (pointer : Pointer) :
    read? pointer.text = some pointer := by
  cases pointer with
  | nil => rfl
  | cons token rest =>
      rw [read?, toList_text, chars_cons, readChars?,
        splitSlashes_chars]
      have hRead :
          ((token :: rest).map fun token =>
              escapeChars token.toList).mapM
            (fun piece =>
              (unescapeChars? piece).map String.ofList) =
            some ((token :: rest).map id) :=
        Result.mapM_map_eq_some _ fun token _ =>
          map_unescapeChars?_escapeChars token
      rw [hRead, List.map_id]

/- Pieces of which each is read as a token are joined to the
   text of the tokens. -/
theorem flatMap_eq_chars
    {pieces : List (List Char)}
    (hPieces : ∀ piece ∈ pieces, '/' ∉ piece)
    {pointer : Pointer}
    (h :
      pieces.mapM (fun piece =>
          (unescapeChars? piece).map String.ofList) =
        some pointer) :
    pieces.flatMap (fun piece => '/' :: piece) =
      chars pointer := by
  rw [Result.mapM_eq_some_iff] at h
  induction pieces generalizing pointer with
  | nil =>
      cases pointer with
      | nil => rfl
      | cons => cases h
  | cons piece pieces ih =>
      simp only [List.forall_mem_cons] at hPieces
      cases pointer with
      | nil => cases h
      | cons token pointer =>
          simp only [List.map_cons, List.cons.injEq] at h
          rcases Option.map_eq_some_iff.1 h.1 with
            ⟨inner, hInner, rfl⟩
          have hPiece :=
            eq_escapeChars_of_unescapeChars? hPieces.1 hInner
          rw [List.flatMap_cons, ih hPieces.2 h.2, hPiece,
            chars_cons, String.toList_ofList]
          rfl

/- A pointer has one written form. -/
theorem eq_text_of_read?
    {written : String}
    {pointer : Pointer}
    (h : read? written = some pointer) :
    written = pointer.text := by
  have hChars : written.toList = chars pointer := by
    rw [read?] at h
    cases hWritten : written.toList with
    | nil =>
        rw [hWritten] at h
        cases h
        rfl
    | cons c rest =>
        rw [hWritten] at h
        by_cases hSlash : c = '/'
        · subst hSlash
          rcases exists_of_splitSlashes rest with
            ⟨first, others, hSplit, hPieces, hRest⟩
          rw [readChars?, hSplit] at h
          rw [← flatMap_eq_chars hPieces h, hRest,
            List.flatMap_cons]
          rfl
        · unfold readChars? at h
          split at h
          · rename_i hNil
            cases hNil
          · rename_i hCons
            exact absurd (List.cons.inj hCons).1 hSlash
          · cases h
  rw [text, ← hChars, String.ofList_toList]

/- What is read as a pointer is its text. -/
theorem read?_eq_some_iff
    {written : String}
    {pointer : Pointer} :
    read? written = some pointer ↔ written = pointer.text := by
  constructor
  · exact eq_text_of_read?
  · intro h
    rw [h, read?_text]

/- Pointers are told apart by their texts. -/
theorem text_injective
    {left right : Pointer}
    (h : left.text = right.text) :
    left = right := by
  have hRead := read?_text left
  rw [h, read?_text] at hRead
  exact (Option.some.inj hRead).symm

end Pointer

end Converge
