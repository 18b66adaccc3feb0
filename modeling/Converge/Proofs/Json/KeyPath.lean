import Converge.Proofs.Json.Frame
import Converge.Proofs.Json.Pointer

/-
  Pointers that are made of member keys.

  The written form of tokens is given by two substitutions in
  a row, and read by undoing them in the reverse order: when
  slashes come back, a tilde is still written in two
  characters, so that no escape sequence inside a key is
  taken for one of its own. The pointer of any keys leads
  where these keys lead, as long as it meets no list.

  Key definitions:
    * `Pointer.substituted`: both substitutions
    * `Pointer.tokens`: a written pointer, split and with the
      substitutions undone
    * `Pointer.MeetsNoList`: only objects on the way

  Main declarations:
    * `Pointer.escape_eq_substituted`: one pass does what the
      two substitutions do
    * `Pointer.tokens_text`: written keys come back
    * `Pointer.text_follows_keys`: pointers of keys
-/

namespace Converge

namespace Pointer

------------------------------------------------------------
-- Substitutions in a Row
------------------------------------------------------------

/- The written form of a token, first without tildes of its
   own, then without slashes. -/
def substituted (token : String) : String :=
  String.ofList
    (Text.replaceChar '/' ['~', '1']
      (Text.replaceChar '~' ['~', '0'] token.toList))

/- Replaces two characters in a row by a single one, from
   left to right. -/
def replacePair
    (first : Char)
    (second : Char)
    (replacement : Char) :
    List Char → List Char
  | [] => []
  | [c] => [c]
  | c :: next :: rest =>
      if c = first && next = second then
        replacement ::
          replacePair first second replacement rest
      else
        c ::
          replacePair first second replacement (next :: rest)

/- Undoes the substitution of slashes, then that of
   tildes. -/
def resubstituted (written : List Char) : List Char :=
  replacePair '~' '0' '~' (replacePair '~' '1' '/' written)

/- What stands behind each slash of a written pointer, with
   the substitutions undone. -/
def tokens (written : String) : List String :=
  (splitSlashes written.toList).tail.map fun piece =>
    String.ofList (resubstituted piece)

/- One pass over a token does what the substitutions do one
   after the other: the second one meets no slash that the
   first one wrote. -/
theorem escape_eq_substituted (token : String) :
    escape token = substituted token := by
  rw [escape, substituted]
  congr 1
  induction token.toList with
  | nil => rfl
  | cons c rest ih =>
      simp only [escapeChars, Text.replaceChar] at ih
      by_cases hTilde : c = '~'
      · simp [escapeChars, escapeChar, Text.replaceChar,
          hTilde, ih]
      · by_cases hSlash : c = '/'
        · simp [escapeChars, escapeChar, Text.replaceChar,
            hSlash, ih]
        · simp [escapeChars, escapeChar, Text.replaceChar,
            hTilde, hSlash, ih]

section Pairs

variable {first second replacement c next : Char}

theorem replacePair_of_pair (rest : List Char) :
    replacePair first second replacement
        (first :: second :: rest) =
      replacement ::
        replacePair first second replacement rest := by
  simp [replacePair]

theorem replacePair_of_ne
    (h : c ≠ first)
    (rest : List Char) :
    replacePair first second replacement (c :: rest) =
      c :: replacePair first second replacement rest := by
  cases rest with
  | nil => rfl
  | cons next rest => simp [replacePair, h]

theorem replacePair_of_other
    (h : next ≠ second)
    (rest : List Char) :
    replacePair first second replacement
        (c :: next :: rest) =
      c :: replacePair first second replacement
        (next :: rest) := by
  simp [replacePair, h]

end Pairs

/- When slashes are back, a tilde still takes two characters,
   and the second of them is no one. -/
theorem replacePair_escapeChars (token : List Char) :
    replacePair '~' '1' '/' (escapeChars token) =
      Text.replaceChar '~' ['~', '0'] token := by
  induction token with
  | nil => rfl
  | cons c rest ih =>
      simp only [escapeChars, Text.replaceChar] at ih
      simp only [escapeChars, Text.replaceChar,
        List.flatMap_cons, escapeChar]
      by_cases hTilde : c = '~'
      · simp only [hTilde, if_true, List.cons_append,
          List.nil_append]
        rw [replacePair_of_other (by decide),
          replacePair_of_ne (by decide), ih]
      · by_cases hSlash : c = '/'
        · have hWritten : ('/' : Char) ≠ '~' := by decide
          simp only [hSlash, if_neg hWritten, if_true,
            List.cons_append, List.nil_append]
          rw [replacePair_of_pair, ih]
        · simp only [hTilde, hSlash, if_false,
            List.cons_append, List.nil_append]
          rw [replacePair_of_ne hTilde, ih]

theorem replacePair_replaceChar (token : List Char) :
    replacePair '~' '0' '~'
        (Text.replaceChar '~' ['~', '0'] token) =
      token := by
  induction token with
  | nil => rfl
  | cons c rest ih =>
      simp only [Text.replaceChar] at ih
      simp only [Text.replaceChar, List.flatMap_cons]
      by_cases hTilde : c = '~'
      · simp only [hTilde, if_true, List.cons_append,
          List.nil_append]
        rw [replacePair_of_pair, ih]
      · simp only [hTilde, if_false, List.cons_append,
          List.nil_append]
        rw [replacePair_of_ne hTilde, ih]

theorem resubstituted_escapeChars (token : List Char) :
    resubstituted (escapeChars token) = token := by
  rw [resubstituted, replacePair_escapeChars,
    replacePair_replaceChar]

------------------------------------------------------------
-- Pointers of Keys
------------------------------------------------------------

/- Keys are written one after the other, each behind a
   slash. -/
theorem text_eq_join (keys : List String) :
    text keys =
      String.join
        (keys.map fun key => "/" ++ substituted key) := by
  have hKey :
      ∀ key : String,
        ("/" ++ substituted key).toList =
          '/' :: escapeChars key.toList := by
    intro key
    simp [← escape_eq_substituted, escape]
  apply String.toList_injective
  rw [String.toList_join, List.flatMap_map, toList_text,
    chars]
  simp only [hKey]

/- The pieces of a written pointer are its keys. -/
theorem tokens_text (keys : List String) :
    tokens (text keys) = keys := by
  cases keys with
  | nil => rfl
  | cons key keys =>
      have hToken :
          ∀ token : String,
            String.ofList
                (resubstituted (escapeChars token.toList)) =
              token := by
        intro token
        rw [resubstituted_escapeChars, String.ofList_toList]
      rw [tokens, toList_text, chars_cons, splitSlashes_slash,
        List.tail_cons, splitSlashes_chars, List.map_map]
      exact List.map_id'' hToken (key :: keys)

------------------------------------------------------------
-- Members
------------------------------------------------------------

/- On the way along keys there is no list, whose items would
   be counted by tokens. -/
def MeetsNoList : List String → Json → Prop
  | [], _ => True
  | key :: keys, value =>
      (∀ items, value ≠ .arr items) ∧
        ∀ inner, value.member? key = some inner →
          MeetsNoList keys inner

/- Keys that lead to a member meet objects only. -/
theorem meetsNoList_of_at?
    {keys : List String}
    {value found : Json}
    (h : value.at? keys = some found) :
    MeetsNoList keys value := by
  induction keys generalizing value with
  | nil => trivial
  | cons key keys ih =>
      rcases Option.bind_eq_some_iff.1 h with
        ⟨next, hNext, hFound⟩
      constructor
      · rintro items rfl
        cases hNext
      · intro inner hInner
        rw [hNext] at hInner
        cases hInner
        exact ih hFound

theorem resolve?_eq_at?
    {keys : List String}
    {value : Json}
    (h : MeetsNoList keys value) :
    resolve? keys value = value.at? keys := by
  induction keys generalizing value with
  | nil => rfl
  | cons key keys ih =>
      have hChild : child? value key = value.member? key := by
        cases value with
        | arr items => exact absurd rfl (h.1 items)
        | _ => rfl
      simp only [resolve?, Json.at?, hChild]
      cases hInner : value.member? key with
      | none => rfl
      | some inner => exact ih (h.2 inner hInner)

/-
  Any keys, joined by slashes and escaped, make a pointer
  that splits into just these keys. It is the only text that
  is read as them, and the text of no others. Where no list
  is met it leads to the member that the keys lead to, and a
  change made there shows at no other place.
-/
theorem text_follows_keys (keys : List String) :
    text keys =
        String.join
          (keys.map fun key => "/" ++ substituted key) ∧
      tokens (text keys) = keys ∧
      (∀ written,
        read? written = some keys ↔ written = text keys) ∧
      (∀ others, text others = text keys → others = keys) ∧
      ∀ value, MeetsNoList keys value →
        (read? (text keys)).bind
            (fun pointer => resolve? pointer value) =
          value.at? keys ∧
        ∀ change changed,
          (read? (text keys)).bind
              (fun pointer => modify? change pointer value) =
            some changed →
          ∀ others, Apart keys others →
            changed.at? others = value.at? others := by
  refine ⟨text_eq_join keys, tokens_text keys,
    fun _ => read?_eq_some_iff, fun _ h => text_injective h, ?_⟩
  intro value hValue
  simp only [read?_text, Option.bind_some]
  refine ⟨resolve?_eq_at? hValue, ?_⟩
  intro change changed hChanged others hApart
  refine at?_of_modify? hApart.2 ?_ hChanged
  rintro rest _ _ rfl
  exact absurd (List.prefix_append keys rest) hApart.1

/- Keys that look like separators, escape sequences and
   positions, each inside of the one before. -/
def escapedKeys : List String :=
  ["", "a/b", "~1", "~01", "0", "-"]

def escapedValue : Json :=
  .obj
    [("items", .arr [.null]),
      ("", .obj [("a/b", .obj [("~1", .obj [("~01",
        .obj [("0", .obj [("-", .str "reached")])])])])])]

theorem text_follows_keys_escaped :
    text escapedKeys = "//a~1b/~01/~001/0/-" ∧
      MeetsNoList escapedKeys escapedValue ∧
      (read? "//a~1b/~01/~001/0/-").bind
          (fun pointer => resolve? pointer escapedValue) =
        some (.str "reached") := by
  have hText : text escapedKeys = "//a~1b/~01/~001/0/-" := by
    decide
  have hFound :
      escapedValue.at? escapedKeys = some (.str "reached") := by
    decide
  have hValue := meetsNoList_of_at? hFound
  have hLeads :=
    (text_follows_keys escapedKeys).2.2.2.2 escapedValue
      hValue
  refine ⟨hText, hValue, ?_⟩
  rw [← hText, hLeads.1, hFound]

end Pointer

end Converge
