import Converge.Json.Lexeme
import Converge.Proofs.Json.Number

/-
  Tokens survive their written form.

  A token is read from its text whatever comes after it, save
  that a numeral or a word has to be followed by something
  that cannot belong to it. Between the tokens of a value
  this is always so.

  Numbers are integers here: what a floating point number is
  written as is a matter of its own.

  Key definitions:
    * `Lexeme.resume?`: what is left of the pass
    * `Token.IsIntegral`: no floating point number
    * `Token.Spaced`: open-ended tokens are delimited

  Main declarations:
    * `Lexeme.split?_text`: tokens are read back
-/

namespace Converge

namespace Json

namespace Lexeme

------------------------------------------------------------
-- The Rest of the Pass
------------------------------------------------------------

/- The units of a text whose front was read already. -/
def resume?
    (pass : Pass)
    (chars : List Char) :
    Option (List Lexeme) :=
  (chars.foldlM step? pass).bind finish?

theorem resume?_cons
    (pass : Pass)
    (c : Char)
    (rest : List Char) :
    resume? pass (c :: rest) =
      (step? pass c).bind fun next => resume? next rest := by
  simp only [resume?, List.foldlM_cons, Option.bind_eq_bind,
    Option.bind_assoc]

theorem resume?_of_step
    {pass next : Pass}
    {c : Char}
    (hStep : step? pass c = some next)
    (rest : List Char) :
    resume? pass (c :: rest) = resume? next rest := by
  rw [resume?_cons, hStep, Option.bind_some]

------------------------------------------------------------
-- Strings
------------------------------------------------------------

theorem hexValue?_hexDigit :
    ∀ place, place < 16 →
      Text.hexValue? (Token.hexDigit place) = some place := by
  decide

theorem resume?_digit
    {found : List Lexeme}
    {seen : Option (List Char)}
    {high : Option Nat}
    (value : Nat)
    {count : Nat}
    {c : Char}
    {digit : Nat}
    (hDigit : Text.hexValue? c = some digit)
    (hCount : count ≠ 3)
    (rest : List Char) :
    resume? ⟨.unicode seen high value count, found⟩
        (c :: rest) =
      resume?
        ⟨.unicode seen high (value * 16 + digit) (count + 1),
          found⟩ rest := by
  apply resume?_of_step
  simp only [step?, hDigit, Option.map_some, hCount, if_false]

theorem resume?_lastDigit
    {found : List Lexeme}
    {seen : Option (List Char)}
    {high : Option Nat}
    (value : Nat)
    {c : Char}
    {digit : Nat}
    (hDigit : Text.hexValue? c = some digit)
    (rest : List Char) :
    resume? ⟨.unicode seen high value 3, found⟩ (c :: rest) =
      resume?
        ⟨afterUnicode seen high (value * 16 + digit), found⟩
        rest := by
  apply resume?_of_step
  simp only [step?, hDigit, Option.map_some, if_true]

/- A control character is read from its four digits. -/
theorem resume?_control
    (found : List Lexeme)
    (seen : List Char)
    {c : Char}
    (hControl : c.toNat < 32)
    (rest : List Char) :
    resume? ⟨.string (some seen), found⟩
        ('\\' :: 'u' :: '0' :: '0' ::
          Token.hexDigit (c.toNat / 16) ::
          Token.hexDigit (c.toNat % 16) :: rest) =
      resume? ⟨.string (some (c :: seen)), found⟩ rest := by
  have hZero : Text.hexValue? '0' = some 0 := by decide
  have hHigh := hexValue?_hexDigit (c.toNat / 16) (by omega)
  have hLow := hexValue?_hexDigit (c.toNat % 16) (by omega)
  have hValue :
      ((0 * 16 + 0) * 16 + 0) * 16 + c.toNat / 16 =
        c.toNat / 16 := by omega
  have hUnit :
      c.toNat / 16 * 16 + c.toNat % 16 = c.toNat := by omega
  have hMode :
      afterUnicode (some seen) none c.toNat =
        .string (some (c :: seen)) := by
    have hNotHigh : ¬0xd800 ≤ c.toNat := by omega
    have hNotLow : ¬0xdc00 ≤ c.toNat := by omega
    simp [afterUnicode, hNotHigh, hNotLow, add,
      Char.ofNat_toNat]
  have hBackslash :
      step? ⟨.string (some seen), found⟩ '\\' =
        some ⟨.escape (some seen), found⟩ := rfl
  have hMark :
      step? ⟨.escape (some seen), found⟩ 'u' =
        some ⟨.unicode (some seen) none 0 0, found⟩ := rfl
  rw [resume?_of_step hBackslash, resume?_of_step hMark,
    resume?_digit 0 hZero (by decide),
    resume?_digit _ hZero (by decide),
    resume?_digit _ hHigh (by decide), hValue,
    resume?_lastDigit _ hLow, hUnit, hMode]

/- A character is read from its form in a string. -/
theorem resume?_escaped
    (found : List Lexeme)
    (seen : List Char)
    (c : Char)
    (rest : List Char) :
    resume? ⟨.string (some seen), found⟩
        (Token.escaped c ++ rest) =
      resume? ⟨.string (some (c :: seen)), found⟩ rest := by
  have hBackslash :
      step? ⟨.string (some seen), found⟩ '\\' =
        some ⟨.escape (some seen), found⟩ := rfl
  have hPlain :
      ∀ letter, unescape? letter = some c → letter ≠ 'u' →
        resume? ⟨.string (some seen), found⟩
            ('\\' :: letter :: rest) =
          resume? ⟨.string (some (c :: seen)), found⟩
            rest := by
    intro letter hLetter hNe
    rw [resume?_of_step hBackslash]
    apply resume?_of_step
    simp only [step?, inEscape?, hNe, if_false, hLetter,
      Option.map_some, add]
  unfold Token.escaped
  split
  · rename_i h
    exact hPlain '"' (by rw [h]; rfl) (by decide)
  · split
    · rename_i h
      exact hPlain '\\' (by rw [h]; rfl) (by decide)
    · split
      · rename_i h
        exact hPlain 'b' (by rw [h]; rfl) (by decide)
      · split
        · rename_i h
          exact hPlain 'f' (by rw [h]; rfl) (by decide)
        · split
          · rename_i h
            exact hPlain 'n' (by rw [h]; rfl) (by decide)
          · split
            · rename_i h
              exact hPlain 'r' (by rw [h]; rfl) (by decide)
            · split
              · rename_i h
                exact hPlain 't' (by rw [h]; rfl) (by decide)
              · split
                · rename_i hControl
                  exact resume?_control found seen hControl rest
                · rename_i hQuote hSlash _ _ _ _ _ hControl
                  apply resume?_of_step
                  simp only [step?, inString?, hQuote, hSlash,
                    hControl, if_false, add, Option.map_some]

/- A string is read up to its closing quote. -/
theorem resume?_string
    (found : List Lexeme)
    (text rest : List Char) :
    ∀ seen : List Char,
      resume? ⟨.string (some seen), found⟩
          (text.flatMap Token.escaped ++ '"' :: rest) =
        resume?
          ⟨.blank,
            .token (.str (seen.reverse ++ text)) :: found⟩
          rest := by
  induction text with
  | nil =>
      intro seen
      apply resume?_of_step
      simp [step?, inString?, ofString]
  | cons c text ih =>
      intro seen
      rw [List.flatMap_cons, List.append_assoc,
        resume?_escaped, ih (c :: seen)]
      simp

theorem resume?_quoted
    (found : List Lexeme)
    (text rest : List Char) :
    resume? ⟨.blank, found⟩ (Token.quoted text ++ rest) =
      resume? ⟨.blank, .token (.str text) :: found⟩ rest := by
  have hQuote :
      step? ⟨.blank, found⟩ '"' =
        some ⟨.string (some []), found⟩ := rfl
  have hQuoted :
      Token.quoted text ++ rest =
        '"' :: (text.flatMap Token.escaped ++ '"' :: rest) := by
    simp [Token.quoted]
  rw [hQuoted, resume?_of_step hQuote, resume?_string]
  rfl

------------------------------------------------------------
-- Words and Numerals
------------------------------------------------------------

/- A text starts with nothing that belongs to a word or to a
   numeral. -/
def Delimits (chars : List Char) : Prop :=
  ∀ c rest, chars = c :: rest →
    c.isLower = false ∧ Number.isNumeralChar c = false

/- A word is complete when a delimiter comes. -/
theorem resume?_word
    (found : List Lexeme)
    {seen : List Char}
    {unit : Lexeme}
    (hUnit : ofWord? seen.reverse = some unit)
    {rest : List Char}
    (hRest : Delimits rest) :
    resume? ⟨.word seen, found⟩ rest =
      resume? ⟨.blank, unit :: found⟩ rest := by
  cases rest with
  | nil =>
      simp [resume?, finish?, hUnit]
  | cons c rest =>
      have hLower := (hRest c rest rfl).1
      simp [resume?_cons, step?, hLower, hUnit]

/- A numeral is complete when a delimiter comes. -/
theorem resume?_numeral
    (found : List Lexeme)
    {seen : List Char}
    {unit : Lexeme}
    (hUnit : ofNumeral? seen.reverse = some unit)
    {rest : List Char}
    (hRest : Delimits rest) :
    resume? ⟨.numeral seen, found⟩ rest =
      resume? ⟨.blank, unit :: found⟩ rest := by
  cases rest with
  | nil =>
      simp [resume?, finish?, hUnit]
  | cons c rest =>
      have hNumeral := (hRest c rest rfl).2
      simp [resume?_cons, step?, hNumeral, hUnit]

/- Characters of a numeral are collected. -/
theorem resume?_numeralChars
    (found : List Lexeme)
    (chars rest : List Char) :
    ∀ seen : List Char,
      (∀ c, c ∈ chars → Number.isNumeralChar c = true) →
        resume? ⟨.numeral seen, found⟩ (chars ++ rest) =
          resume? ⟨.numeral (chars.reverse ++ seen), found⟩
            rest := by
  induction chars with
  | nil =>
      intro seen _
      rfl
  | cons c chars ih =>
      intro seen hChars
      have hFirst := hChars c List.mem_cons_self
      have hStep :
          step? ⟨.numeral seen, found⟩ c =
            some ⟨.numeral (c :: seen), found⟩ := by
        simp [step?, hFirst]
      rw [List.cons_append, resume?_of_step hStep,
        ih (c :: seen) fun other hOther =>
          hChars other (List.mem_cons_of_mem _ hOther)]
      simp

/- What starts a numeral is a digit or a minus. -/
theorem start?_numeral
    (found : List Lexeme)
    {c : Char}
    (hStart : c.isDigit = true ∨ c = '-') :
    start? found c = some ⟨.numeral [c], found⟩ := by
  rcases hStart with hDigit | rfl
  · have hOther : ∀ d : Char, d.isDigit = false → c ≠ d := by
      rintro d hNot rfl
      rw [hDigit] at hNot
      cases hNot
    have hLower : c.isLower = false := by
      simp only [Char.isDigit, ge_iff_le,
        UInt32.le_iff_toNat_le, Bool.and_eq_true,
        decide_eq_true_eq] at hDigit
      have hUpper : c.val.toNat ≤ 57 := hDigit.2
      have hBelow : ¬97 ≤ c.val := by
        rw [UInt32.le_iff_toNat_le]
        show ¬97 ≤ c.val.toNat
        omega
      change (decide (97 ≤ c.val) && _) = false
      rw [decide_eq_false hBelow, Bool.false_and]
    simp [start?, isBlank, Number.isNumeralChar, hDigit,
      hLower, hOther ' ' rfl, hOther '\t' rfl,
      hOther '\n' rfl, hOther '\r' rfl, hOther '"' rfl]
  · rfl

/- The first character of an integer, and all others. -/
theorem exists_cons_text_int
    {value : Int}
    (lower : -9223372036854775808 ≤ value)
    (upper : value < 18446744073709551616) :
    ∃ first rest,
      (Number.int value lower upper).text = first :: rest ∧
        (first.isDigit = true ∨ first = '-') ∧
        ∀ c, c ∈ rest → Number.isNumeralChar c = true := by
  have hDigits :
      ∀ c, c ∈ Nat.toDigits 10 value.natAbs →
        c.isDigit = true :=
    fun c hC => Text.isDigit_of_mem_toDigits hC
  have hNumeral :
      ∀ c : Char, c.isDigit = true →
        Number.isNumeralChar c = true := by
    intro c hC
    simp [Number.isNumeralChar, hC]
  rw [Number.text_int]
  by_cases hNegative : value < 0
  · refine ⟨'-', Nat.toDigits 10 value.natAbs, ?_, Or.inr rfl,
      fun c hC => hNumeral c (hDigits c hC)⟩
    rw [if_pos hNegative]
  · rw [if_neg hNegative]
    cases hText : Nat.toDigits 10 value.natAbs with
    | nil => exact absurd hText Nat.toDigits_ne_nil
    | cons first rest =>
        rw [hText] at hDigits
        exact ⟨first, rest, rfl,
          Or.inl (hDigits first List.mem_cons_self),
          fun c hC => hNumeral c
            (hDigits c (List.mem_cons_of_mem _ hC))⟩

/- An integer is read up to a delimiter. -/
theorem resume?_int
    (found : List Lexeme)
    {value : Int}
    (lower : -9223372036854775808 ≤ value)
    (upper : value < 18446744073709551616)
    {rest : List Char}
    (hRest : Delimits rest) :
    resume? ⟨.blank, found⟩
        ((Number.int value lower upper).text ++ rest) =
      resume?
        ⟨.blank, .token (.num (.int value lower upper)) :: found⟩
        rest := by
  rcases exists_cons_text_int lower upper with
    ⟨first, others, hText, hFirst, hOthers⟩
  have hStart :
      step? ⟨.blank, found⟩ first =
        some ⟨.numeral [first], found⟩ :=
    start?_numeral found hFirst
  have hUnit := ofNumeral?_int lower upper
  rw [hText] at hUnit
  rw [hText, List.cons_append, resume?_of_step hStart,
    resume?_numeralChars found others rest [first] hOthers]
  refine resume?_numeral found ?_ hRest
  simpa using hUnit

------------------------------------------------------------
-- Tokens
------------------------------------------------------------

end Lexeme

namespace Token

/- A token that holds no floating point number. -/
def IsIntegral : Token → Prop
  | .num (.real _) => False
  | _ => True

/- A token that ends before anything that follows it. -/
def isClosed : Token → Bool
  | .null => false
  | .bool _ => false
  | .num _ => false
  | _ => true

/- A token in front of which any other one ends. -/
def delimits : Token → Bool
  | .comma => true
  | .closeArray => true
  | .closeObject => true
  | _ => false

/- Words and numerals are followed by a delimiter. -/
def Spaced : List Token → Prop
  | [] => True
  | [_] => True
  | first :: second :: rest =>
      (first.isClosed = true ∨ second.delimits = true) ∧
        Spaced (second :: rest)

/- The text of a delimiter delimits. -/
theorem delimits_text
    {token : Token}
    (hToken : token.delimits = true)
    (rest : List Char) :
    Lexeme.Delimits (token.text ++ rest) := by
  intro c others hText
  cases token <;> cases hToken <;> cases hText <;> decide

end Token

namespace Lexeme

/- A word is read up to a delimiter. -/
theorem resume?_letters
    (found : List Lexeme)
    {token : Token}
    {seen : List Char}
    (hToken : ofWord? seen.reverse = some (.token token))
    {rest : List Char}
    (hRest : Delimits rest)
    (hSeen :
      resume? ⟨.blank, found⟩ (token.text ++ rest) =
        resume? ⟨.word seen, found⟩ rest) :
    resume? ⟨.blank, found⟩ (token.text ++ rest) =
      resume? ⟨.blank, .token token :: found⟩ rest := by
  rw [hSeen]
  exact resume?_word found hToken hRest

/- A token is read from its text. -/
theorem resume?_text
    (found : List Lexeme) :
    ∀ {token : Token}, token.IsIntegral →
      ∀ {rest : List Char},
        (token.isClosed = true ∨ Delimits rest) →
          resume? ⟨.blank, found⟩ (token.text ++ rest) =
            resume? ⟨.blank, .token token :: found⟩ rest
  | .openArray, _, _, _ => rfl
  | .closeArray, _, _, _ => rfl
  | .openObject, _, _, _ => rfl
  | .closeObject, _, _, _ => rfl
  | .comma, _, _, _ => rfl
  | .colon, _, _, _ => rfl
  | .str text, _, rest, _ => resume?_quoted found text rest
  | .num (.int _ lower upper), _, _, hRest =>
      resume?_int found lower upper (hRest.resolve_left nofun)
  | .num (.real _), hToken, _, _ => nomatch hToken
  | .null, _, _, hRest => by
      have hWord :
          ofWord? ['l', 'l', 'u', 'n'].reverse =
            some (.token .null) := rfl
      exact resume?_letters found hWord
        (hRest.resolve_left nofun) rfl
  | .bool true, _, _, hRest => by
      have hWord :
          ofWord? ['e', 'u', 'r', 't'].reverse =
            some (.token (.bool true)) := rfl
      exact resume?_letters found hWord
        (hRest.resolve_left nofun) rfl
  | .bool false, _, _, hRest => by
      have hWord :
          ofWord? ['e', 's', 'l', 'a', 'f'].reverse =
            some (.token (.bool false)) := rfl
      exact resume?_letters found hWord
        (hRest.resolve_left nofun) rfl

/- Tokens are read one after the other. -/
theorem resume?_tokens
    (tokens : List Token) :
    ∀ found : List Lexeme,
      (∀ token, token ∈ tokens → token.IsIntegral) →
        Token.Spaced tokens →
          resume? ⟨.blank, found⟩ (tokens.flatMap Token.text) =
            some (found.reverse ++ tokens.map .token) := by
  induction tokens with
  | nil =>
      intro found _ _
      simp [resume?, finish?]
  | cons first rest ih =>
      intro found hTokens hSpaced
      have hFirst := hTokens first List.mem_cons_self
      have hRest :
          ∀ token, token ∈ rest → token.IsIntegral :=
        fun token hToken =>
          hTokens token (List.mem_cons_of_mem _ hToken)
      have hDelimited :
          (first.isClosed = true ∨
            Delimits (rest.flatMap Token.text)) ∧
              Token.Spaced rest := by
        cases rest with
        | nil => exact ⟨Or.inr nofun, trivial⟩
        | cons second others =>
            exact ⟨hSpaced.1.imp_right fun hSecond =>
              Token.delimits_text hSecond _, hSpaced.2⟩
      rw [List.flatMap_cons,
        resume?_text found hFirst hDelimited.1,
        ih _ hRest hDelimited.2]
      simp

/- Tokens are read back from their text. -/
theorem split?_text
    {tokens : List Token}
    (hTokens : ∀ token, token ∈ tokens → token.IsIntegral)
    (hSpaced : Token.Spaced tokens) :
    split? (tokens.flatMap Token.text) =
      some (tokens.map .token) :=
  resume?_tokens tokens [] hTokens hSpaced

end Lexeme

end Json

end Converge
