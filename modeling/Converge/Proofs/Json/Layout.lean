import Converge.Proofs.Json.Reader

/-
  Values survive their form with one item or member a line.

  A layout puts white space after tokens that end by
  themselves and in front of tokens that delimit, so that the
  same tokens are found in it as in the form without white
  space.

  Main declarations:
    * `Lexeme.split?_layout`: the tokens of a layout
    * `Json.readWithin?_pretty`: a value is read back
-/

namespace Converge

namespace Json

namespace Lexeme

------------------------------------------------------------
-- White Space
------------------------------------------------------------

/- There is nothing but white space. -/
def Blank (chars : List Char) : Prop :=
  ∀ c, c ∈ chars → isBlank c = true

theorem blank_newLine (level : Nat) :
    Blank (newLine level) := by
  intro c hC
  rcases List.mem_cons.1 hC with rfl | hSpace
  · rfl
  · rw [List.eq_of_mem_replicate hSpace]
    rfl

/- White space between tokens is passed over. -/
theorem resume?_blank
    (found : List Lexeme)
    {front : List Char}
    (hFront : Blank front)
    (rest : List Char) :
    resume? ⟨.blank, found⟩ (front ++ rest) =
      resume? ⟨.blank, found⟩ rest := by
  induction front with
  | nil => rfl
  | cons c front ih =>
      have hStep :
          step? ⟨.blank, found⟩ c = some ⟨.blank, found⟩ := by
        have hC := hFront c List.mem_cons_self
        simp only [step?, start?, hC, if_true]
      rw [List.cons_append, resume?_of_step hStep]
      exact ih fun other hOther =>
        hFront other (List.mem_cons_of_mem _ hOther)

/- White space belongs to no word and to no numeral. -/
theorem delimits_blank
    {chars : List Char}
    (hChars : Blank chars) :
    Delimits chars := by
  rintro c rest rfl
  have hC := hChars c List.mem_cons_self
  simp only [isBlank, Bool.or_eq_true, decide_eq_true_eq]
    at hC
  rcases hC with ((rfl | rfl) | rfl) | rfl <;> decide

theorem delimits_newLine
    (level : Nat)
    (rest : List Char) :
    Delimits (newLine level ++ rest) := by
  intro c others hText
  cases hText
  decide

------------------------------------------------------------
-- Layouts
------------------------------------------------------------

/- A layout that starts with a delimiter delimits. -/
theorem delimits_layout
    {first : Token}
    (hFirst : first.delimits = true)
    (level : Nat)
    (others : List Token)
    (rest : List Char) :
    Delimits (layout level (first :: others) ++ rest) := by
  cases first with
  | comma =>
      rw [layout]
      intro c more hText
      cases hText
      decide
  | closeArray | closeObject =>
      rw [layout, List.append_assoc]
      exact delimits_newLine _ _
  | openArray | openObject | colon | null | bool | num
  | str => cases hFirst

end Lexeme

/- What follows a token is spaced as well. -/
theorem Token.Spaced.tail
    {first : Token}
    {rest : List Token}
    (hSpaced : Token.Spaced (first :: rest)) :
    Token.Spaced rest := by
  cases rest with
  | nil => trivial
  | cons second others => exact hSpaced.2

namespace Lexeme

/- A punctuation mark is read by itself. -/
theorem resume?_mark
    (found : List Lexeme)
    {c : Char}
    {token : Token}
    (hMark :
      step? ⟨.blank, found⟩ c =
        some ⟨.blank, .token token :: found⟩)
    {tokens : List Token}
    {rest : List Char}
    (hRest :
      resume? ⟨.blank, .token token :: found⟩ rest =
        some ((Lexeme.token token :: found).reverse ++
          tokens.map .token)) :
    resume? ⟨.blank, found⟩ (c :: rest) =
      some (found.reverse ++
        (token :: tokens).map .token) := by
  rw [resume?_of_step hMark, hRest]
  simp

/- The tokens of a layout are read one after the other,
   whatever white space comes after them. -/
theorem resume?_layout
    (level : Nat)
    (tokens : List Token)
    (found : List Lexeme)
    {space : List Char}
    (hSpace : Blank space)
    (hTokens : ∀ token, token ∈ tokens → token.IsIntegral)
    (hSpaced : Token.Spaced tokens) :
    resume? ⟨.blank, found⟩ (layout level tokens ++ space) =
      some (found.reverse ++ tokens.map .token) := by
  fun_induction layout level tokens generalizing found with
  | case1 level =>
      have hEnd := resume?_blank found hSpace []
      rw [List.append_nil] at hEnd
      rw [List.nil_append, hEnd]
      simp [resume?, finish?]
  | case2 level rest ih | case3 level rest ih =>
      simp only [List.forall_mem_cons] at hTokens
      refine resume?_mark _ rfl (resume?_mark _ rfl ?_)
      exact ih _ hTokens.2.2 hSpaced.tail.tail
  | case4 level rest _ ih | case5 level rest _ ih =>
      rw [List.forall_mem_cons] at hTokens
      simp only [List.cons_append, List.append_assoc]
      refine resume?_mark _ rfl ?_
      rw [resume?_blank _ (blank_newLine _)]
      exact ih _ hTokens.2 hSpaced.tail
  | case6 level rest ih | case7 level rest ih =>
      rw [List.forall_mem_cons] at hTokens
      rw [List.append_assoc, resume?_blank _
        (blank_newLine _)]
      refine resume?_mark _ rfl ?_
      exact ih _ hTokens.2 hSpaced.tail
  | case8 level rest ih =>
      rw [List.forall_mem_cons] at hTokens
      simp only [List.cons_append, List.append_assoc]
      refine resume?_mark _ rfl ?_
      rw [resume?_blank _ (blank_newLine _)]
      exact ih _ hTokens.2 hSpaced.tail
  | case9 level rest ih =>
      rw [List.forall_mem_cons] at hTokens
      refine resume?_mark _ rfl ?_
      exact ih _ hTokens.2 hSpaced.tail
  | case10 level token rest _ _ _ _ _ _ _ _ ih =>
      rw [List.forall_mem_cons] at hTokens
      have hRest := ih (.token token :: found) hTokens.2
        hSpaced.tail
      have hAfter :
          token.isClosed = true ∨
            Delimits (layout level rest ++ space) := by
        cases rest with
        | nil => exact .inr (delimits_blank hSpace)
        | cons second others =>
            exact hSpaced.1.imp_right fun hSecond =>
              delimits_layout hSecond level others space
      rw [List.append_assoc,
        resume?_text found hTokens.1 hAfter, hRest]
      simp

theorem split?_layout
    {tokens : List Token}
    (hTokens : ∀ token, token ∈ tokens → token.IsIntegral)
    (hSpaced : Token.Spaced tokens)
    {space : List Char}
    (hSpace : Blank space) :
    split? (layout 0 tokens ++ space) =
      some (tokens.map .token) :=
  resume?_layout 0 tokens [] hSpace hTokens hSpaced

end Lexeme

/- A value is read back from its text with one item or member
   a line, and from the file that ends with a new line. -/
theorem readWithin?_pretty
    {limit : Nat}
    {value : Json}
    (hFits : Fits limit value)
    {space : String}
    (hSpace : Lexeme.Blank space.toList) :
    readWithin? limit (value.pretty ++ space) =
      some value := by
  have hWritable := writable_tokens limit value hFits
  apply readWithin?_of_split hFits
  rw [String.toList_append, pretty, String.toList_ofList]
  exact Lexeme.split?_layout hWritable.integral
    hWritable.spacedAlone hSpace

end Json

end Converge
