import Converge.Json.Printer
import Converge.Json.Reader
import Converge.Proofs.Json.Canonical
import Converge.Proofs.Json.Lexeme

/-
  Values survive their written form.

  A value without floating point numbers is read back from
  its text by any reader whose limit of nesting it keeps.

  Key definitions:
    * `Json.Fits`: no floating point number, and no deeper
      nesting than a limit

  Main declarations:
    * `Json.readWithin?_compact`: a value is read back
    * `Json.fits_canonical`: the canonical form fits as well
-/

namespace Converge

namespace Json

/- A value has no floating point number in it, and nests no
   deeper than a limit. -/
def Fits : Nat → Json → Prop
  | _, .null => True
  | _, .bool _ => True
  | _, .str _ => True
  | _, .num (.int _ _ _) => True
  | _, .num (.real _) => False
  | 0, .arr _ => False
  | 0, .obj _ => False
  | limit + 1, .arr items =>
      ∀ item, item ∈ items → Fits limit item
  | limit + 1, .obj members =>
      ∀ member, member ∈ members → Fits limit member.2

theorem not_fits_real
    (limit : Nat)
    {bits : Nat} :
    ¬Fits limit (.num (.real bits)) := by
  cases limit <;> rw [Fits] <;> exact id

------------------------------------------------------------
-- Tokens
------------------------------------------------------------

/- What follows a value in its text delimits it. -/
def Follows (rest : List Token) : Prop :=
  Token.Spaced rest ∧
    ∀ first others, rest = first :: others →
      first.delimits = true

theorem follows_nil : Follows [] := by
  constructor
  · trivial
  · intro first others hRest
    cases hRest

/- Tokens that may stand in the text of a value. -/
structure Writable (front : List Token) : Prop where
  integral : ∀ token, token ∈ front → token.IsIntegral
  spaced :
    ∀ rest, Follows rest → Token.Spaced (front ++ rest)

/- Nothing has to follow them. -/
theorem Writable.spacedAlone
    {front : List Token}
    (hFront : Writable front) :
    Token.Spaced front := by
  have hSpaced := hFront.spaced [] follows_nil
  rwa [List.append_nil] at hSpaced

theorem spaced_cons
    {first : Token}
    (hFirst : first.isClosed = true)
    {rest : List Token}
    (hRest : Token.Spaced rest) :
    Token.Spaced (first :: rest) := by
  cases rest with
  | nil => trivial
  | cons second others => exact ⟨Or.inl hFirst, hRest⟩

/- A single token. -/
theorem writable_singleton
    {token : Token}
    (hToken : token.IsIntegral) :
    Writable [token] := by
  constructor
  · intro other hOther
    rw [List.mem_singleton.1 hOther]
    exact hToken
  · rintro rest ⟨hSpaced, hDelimits⟩
    cases rest with
    | nil => trivial
    | cons second others =>
        exact ⟨Or.inr (hDelimits second others rfl), hSpaced⟩

/- Punctuation or a string, and more tokens. -/
theorem Writable.cons
    {front : List Token}
    (hFront : Writable front)
    (first : Token)
    (hClosed : first.isClosed = true)
    (hFirst : first.IsIntegral) :
    Writable (first :: front) := by
  constructor
  · intro token hToken
    rcases List.mem_cons.1 hToken with rfl | hToken
    · exact hFirst
    · exact hFront.integral token hToken
  · intro rest hRest
    exact spaced_cons hClosed (hFront.spaced rest hRest)

/- Tokens that are followed by a delimiter and others. -/
theorem Writable.append
    {front back : List Token}
    (hFront : Writable front)
    (hBack : Writable back)
    (hDelimits :
      ∃ first others,
        back = first :: others ∧ first.delimits = true) :
    Writable (front ++ back) := by
  constructor
  · intro token hToken
    rcases List.mem_append.1 hToken with hToken | hToken
    · exact hFront.integral token hToken
    · exact hBack.integral token hToken
  · intro rest hRest
    rw [List.append_assoc]
    refine hFront.spaced _ ⟨hBack.spaced rest hRest, ?_⟩
    rcases hDelimits with ⟨first, others, rfl, hFirst⟩
    intro other more hMore
    cases hMore
    exact hFirst

/- After an item there is a delimiter. -/
theorem delimits_itemTokens (items : List Json) :
    ∃ first others,
      itemTokens items = first :: others ∧
        first.delimits = true := by
  cases items <;> exact ⟨_, _, by rw [itemTokens], rfl⟩

/- After a member there is a delimiter. -/
theorem delimits_memberTokens
    (members : List (String × Json)) :
    ∃ first others,
      memberTokens members = first :: others ∧
        first.delimits = true := by
  cases members <;> exact ⟨_, _, by rw [memberTokens], rfl⟩

theorem writable_itemTokens
    {items : List Json}
    (hItems :
      ∀ item, item ∈ items → Writable item.tokens) :
    Writable (itemTokens items) := by
  induction items with
  | nil =>
      rw [itemTokens]
      exact writable_singleton trivial
  | cons item rest ih =>
      have hRest := ih fun other hOther =>
        hItems other (List.mem_cons_of_mem _ hOther)
      rw [itemTokens]
      exact ((hItems item List.mem_cons_self).append hRest
        (delimits_itemTokens rest)).cons .comma rfl trivial

theorem writable_memberTokens
    {members : List (String × Json)}
    (hMembers :
      ∀ member, member ∈ members →
        Writable member.2.tokens) :
    Writable (memberTokens members) := by
  induction members with
  | nil =>
      rw [memberTokens]
      exact writable_singleton trivial
  | cons member rest ih =>
      obtain ⟨key, value⟩ := member
      have hRest := ih fun other hOther =>
        hMembers other (List.mem_cons_of_mem _ hOther)
      have hValue := hMembers (key, value) List.mem_cons_self
      have hBoth := hValue.append hRest
        (delimits_memberTokens rest)
      rw [memberTokens]
      exact ((hBoth.cons .colon rfl trivial).cons
        (.str key.toList) rfl trivial).cons .comma rfl trivial

/- The tokens of a value can be told apart. -/
theorem writable_tokens :
    ∀ (limit : Nat) (value : Json), Fits limit value →
      Writable value.tokens
  | _, .null, _ => by
      rw [tokens]
      exact writable_singleton trivial
  | _, .bool _, _ => by
      rw [tokens]
      exact writable_singleton trivial
  | _, .str _, _ => by
      rw [tokens]
      exact writable_singleton trivial
  | _, .num (.int _ _ _), _ => by
      rw [tokens]
      exact writable_singleton trivial
  | limit, .num (.real _), h => (not_fits_real limit h).elim
  | 0, .arr _, h => nomatch h
  | 0, .obj _, h => nomatch h
  | limit + 1, .arr [], _ => by
      have hClose : Writable [Token.closeArray] :=
        writable_singleton trivial
      rw [tokens]
      exact hClose.cons .openArray rfl trivial
  | limit + 1, .arr (item :: items), h => by
      rw [Fits, List.forall_mem_cons] at h
      have hItem := writable_tokens limit item h.1
      have hItems := writable_itemTokens fun other hOther =>
        writable_tokens limit other (h.2 other hOther)
      rw [tokens]
      exact (hItem.append hItems
        (delimits_itemTokens items)).cons .openArray rfl
          trivial
  | limit + 1, .obj [], _ => by
      have hClose : Writable [Token.closeObject] :=
        writable_singleton trivial
      rw [tokens]
      exact hClose.cons .openObject rfl trivial
  | limit + 1, .obj ((key, value) :: members), h => by
      rw [Fits, List.forall_mem_cons] at h
      have hValue := writable_tokens limit value h.1
      have hMembers :=
        writable_memberTokens fun other hOther =>
          writable_tokens limit other.2 (h.2 other hOther)
      have hBoth := hValue.append hMembers
        (delimits_memberTokens members)
      rw [tokens]
      exact ((hBoth.cons .colon rfl trivial).cons
        (.str key.toList) rfl trivial).cons .openObject rfl
          trivial

------------------------------------------------------------
-- Spelled Values
------------------------------------------------------------

namespace Written

/- What a reader makes of tokens. -/
def Reader.advance?
    (reader : Reader)
    (tokens : List Token) :
    Option Reader :=
  (tokens.map Lexeme.token).foldlM Reader.step? reader

theorem Reader.advance?_cons
    (reader : Reader)
    (token : Token)
    (rest : List Token) :
    reader.advance? (token :: rest) =
      (reader.step? (.token token)).bind fun next =>
        next.advance? rest := by
  simp only [advance?, List.map_cons, List.foldlM_cons,
    Option.bind_eq_bind]

/- Tokens are read as a value, whatever is open around it
   and whatever comes next. -/
def ReadsAs
    (front : List Token)
    (spelled : Written) :
    Prop :=
  ∀ frames rest,
    Reader.advance? ⟨frames, .value⟩ (front ++ rest) =
      (Reader.complete spelled frames).advance? rest

/- No value starts like the end of an array. -/
theorem exists_cons_tokens (value : Json) :
    ∃ first others,
      value.tokens = first :: others ∧
        first ≠ .closeArray := by
  unfold tokens
  split <;> exact ⟨_, _, rfl, nofun⟩

/- The first item of an array is read like any value. -/
theorem advance?_firstItem
    (value : Json)
    (frames : List Frame)
    (rest : List Token) :
    Reader.advance? ⟨frames, .firstItem⟩
        (value.tokens ++ rest) =
      Reader.advance? ⟨.array [] :: frames, .value⟩
        (value.tokens ++ rest) := by
  rcases exists_cons_tokens value with
    ⟨first, others, hTokens, hFirst⟩
  rw [hTokens, List.cons_append, Reader.advance?_cons,
    Reader.advance?_cons]
  cases first <;> first | rfl | exact absurd rfl hFirst

/- Items are read up to the end of their array. -/
theorem advance?_itemTokens
    {limit : Nat}
    {items : List Json}
    (hItems :
      ∀ item, item ∈ items →
        ∃ spelled, ReadsAs item.tokens spelled ∧
          spelled.value? limit = some item) :
    ∃ spelled : List Written,
      spelled.mapM (value? limit) = some items ∧
        ∀ seen frames rest,
          Reader.advance? ⟨frames, .afterItem seen⟩
              (itemTokens items ++ rest) =
            (Reader.complete (.arr (seen.reverse ++ spelled))
              frames).advance? rest := by
  induction items with
  | nil =>
      refine ⟨[], rfl, ?_⟩
      intro seen frames rest
      rw [itemTokens, List.append_nil]
      rfl
  | cons item items ih =>
      rcases hItems item List.mem_cons_self with
        ⟨first, hReads, hFirst⟩
      rcases ih fun other hOther =>
          hItems other (List.mem_cons_of_mem _ hOther) with
        ⟨others, hOthers, hTokens⟩
      refine ⟨first :: others, ?_, ?_⟩
      · rw [List.mapM_cons, hFirst, hOthers]
        rfl
      · intro seen frames rest
        have hComma :
            Reader.step? ⟨frames, .afterItem seen⟩
                (.token .comma) =
              some ⟨.array seen :: frames, .value⟩ := rfl
        have hSeen :
            seen.reverse ++ first :: others =
              (first :: seen).reverse ++ others := by
          simp
        rw [itemTokens, List.cons_append,
          Reader.advance?_cons, hComma, Option.bind_some,
          List.append_assoc, hReads, hSeen]
        exact hTokens (first :: seen) frames rest

/- Members are read up to the end of their object. -/
theorem advance?_memberTokens
    {limit : Nat}
    {members : List (String × Json)}
    (hMembers :
      ∀ member, member ∈ members →
        ∃ spelled, ReadsAs member.2.tokens spelled ∧
          spelled.value? limit = some member.2) :
    ∃ spelled : List (Option String × Written),
      (spelled.mapM
        fun (member : Option String × Written) => do
          return (← member.1, ← value? limit member.2)) =
        some members ∧
        ∀ seen frames rest,
          Reader.advance? ⟨frames, .afterMember seen⟩
              (memberTokens members ++ rest) =
            (Reader.complete (.obj (seen.reverse ++ spelled))
              frames).advance? rest := by
  induction members with
  | nil =>
      refine ⟨[], rfl, ?_⟩
      intro seen frames rest
      rw [memberTokens, List.append_nil]
      rfl
  | cons member members ih =>
      obtain ⟨key, value⟩ := member
      rcases hMembers (key, value) List.mem_cons_self with
        ⟨first, hReads, hFirst⟩
      rcases ih fun other hOther =>
          hMembers other (List.mem_cons_of_mem _ hOther) with
        ⟨others, hOthers, hTokens⟩
      refine ⟨(some key, first) :: others, ?_, ?_⟩
      · rw [List.mapM_cons, hFirst, hOthers]
        rfl
      · intro seen frames rest
        have hSeen :
            seen.reverse ++ (some key, first) :: others =
              ((some key, first) :: seen).reverse ++ others := by
          simp
        have hKey :
            Reader.advance? ⟨frames, .afterMember seen⟩
                (.comma :: .str key.toList :: .colon ::
                  (value.tokens ++
                    (memberTokens members ++ rest))) =
              Reader.advance?
                ⟨.object seen
                    (some (String.ofList key.toList)) ::
                  frames, .value⟩
                (value.tokens ++
                  (memberTokens members ++ rest)) := rfl
        rw [memberTokens, List.cons_append, List.cons_append,
          List.cons_append, List.append_assoc, hKey,
          String.ofList_toList, hReads, hSeen]
        exact hTokens ((some key, first) :: seen) frames rest

/- A value is read from its tokens. -/
theorem exists_readsAs :
    ∀ (limit : Nat) (value : Json), Fits limit value →
      ∃ spelled, ReadsAs value.tokens spelled ∧
        spelled.value? limit = some value
  | _, .null, _ => ⟨.null, fun _ _ => rfl, by rw [value?]⟩
  | _, .bool held, _ =>
      ⟨.bool held, fun _ _ => rfl, by rw [value?]⟩
  | _, .str text, _ => by
      refine ⟨.str text, ?_, by rw [value?]⟩
      intro frames rest
      rw [tokens]
      show
        (Reader.complete (.str (String.ofList text.toList))
          frames).advance? rest = _
      rw [String.ofList_toList]
  | _, .num (.int value lower upper), _ =>
      ⟨.num (.int value lower upper), fun _ _ => rfl,
        by rw [value?]⟩
  | limit, .num (.real _), h => (not_fits_real limit h).elim
  | 0, .arr _, h => nomatch h
  | 0, .obj _, h => nomatch h
  | limit + 1, .arr [], _ => by
      refine ⟨.arr [], ?_, by simp [value?]⟩
      intro frames rest
      rw [tokens]
      rfl
  | limit + 1, .arr (item :: items), h => by
      rw [Fits, List.forall_mem_cons] at h
      rcases exists_readsAs limit item h.1 with
        ⟨first, hReads, hFirst⟩
      rcases advance?_itemTokens fun other hOther =>
          exists_readsAs limit other (h.2 other hOther) with
        ⟨others, hOthers, hTokens⟩
      refine ⟨.arr (first :: others), ?_, ?_⟩
      · intro frames rest
        rw [tokens, List.cons_append, Reader.advance?_cons]
        show
          Reader.advance? ⟨frames, .firstItem⟩
              ((item.tokens ++ itemTokens items) ++ rest) =
            _
        rw [List.append_assoc, advance?_firstItem, hReads]
        exact hTokens [first] frames rest
      · rw [value?, List.mapM_cons, hFirst, hOthers]
        rfl
  | limit + 1, .obj [], _ => by
      refine ⟨.obj [], ?_, by simp [value?]⟩
      intro frames rest
      rw [tokens]
      rfl
  | limit + 1, .obj ((key, value) :: members), h => by
      rw [Fits, List.forall_mem_cons] at h
      rcases exists_readsAs limit value h.1 with
        ⟨first, hReads, hFirst⟩
      rcases advance?_memberTokens fun other hOther =>
          exists_readsAs limit other.2 (h.2 other hOther) with
        ⟨others, hOthers, hTokens⟩
      refine ⟨.obj ((some key, first) :: others), ?_, ?_⟩
      · intro frames rest
        rw [tokens]
        show
          Reader.advance?
              ⟨.object [] (some (String.ofList key.toList)) ::
                frames, .value⟩
              ((value.tokens ++ memberTokens members) ++ rest) =
            _
        rw [List.append_assoc, hReads, String.ofList_toList]
        exact hTokens [(some key, first)] frames rest
      · rw [value?, List.mapM_cons, hFirst, hOthers]
        rfl

end Written

------------------------------------------------------------
-- Reading Back
------------------------------------------------------------

/- A text that has the tokens of a value spells the value,
   within any limit that the value keeps. -/
theorem exists_read?_of_split
    {limit : Nat}
    {value : Json}
    (hFits : Fits limit value)
    {text : String}
    (hSplit :
      Lexeme.split? text.toList =
        some (value.tokens.map .token)) :
    ∃ spelled, Written.read? text = some spelled ∧
      spelled.value? limit = some value := by
  rcases Written.exists_readsAs limit value hFits with
    ⟨spelled, hReads, hValue⟩
  have hAll := hReads [] []
  rw [List.append_nil] at hAll
  refine ⟨spelled, ?_, hValue⟩
  rw [Written.read?, hSplit, Option.bind_some]
  change
    (Written.Reader.advance? ⟨[], .value⟩ value.tokens).bind
      Written.Reader.result? = _
  rw [hAll]
  rfl

/- A value is read from any text that has its tokens, within
   any limit that the value keeps. -/
theorem readWithin?_of_split
    {limit : Nat}
    {value : Json}
    (hFits : Fits limit value)
    {text : String}
    (hSplit :
      Lexeme.split? text.toList =
        some (value.tokens.map .token)) :
    readWithin? limit text = some value := by
  rcases exists_read?_of_split hFits hSplit with
    ⟨spelled, hSpelled, hValue⟩
  rw [readWithin?, hSpelled, Option.bind_some, hValue]

/- The text of a value has its tokens. -/
theorem split?_compact
    {limit : Nat}
    {value : Json}
    (hFits : Fits limit value) :
    Lexeme.split? value.compact.toList =
      some (value.tokens.map .token) := by
  have hWritable := writable_tokens limit value hFits
  rw [compact, String.toList_ofList, compactChars]
  exact Lexeme.split?_text hWritable.integral
    hWritable.spacedAlone

/- A value is read back from its text, within any limit that
   it keeps. -/
theorem readWithin?_compact
    {limit : Nat}
    {value : Json}
    (hFits : Fits limit value) :
    readWithin? limit value.compact = some value :=
  readWithin?_of_split hFits (split?_compact hFits)

/- A value that keeps a limit keeps any higher one. -/
theorem Fits.mono :
    ∀ {limit : Nat} {value : Json}, Fits limit value →
      ∀ {higher : Nat}, limit ≤ higher → Fits higher value
  | _, .null, _, _, _ => by simp [Fits]
  | _, .bool _, _, _, _ => by simp [Fits]
  | _, .str _, _, _, _ => by simp [Fits]
  | _, .num (.int _ _ _), _, _, _ => by simp [Fits]
  | limit, .num (.real _), h, _, _ =>
      (not_fits_real limit h).elim
  | 0, .arr _, h, _, _ => nomatch h
  | 0, .obj _, h, _, _ => nomatch h
  | limit + 1, .arr items, h, higher, hLimit => by
      cases higher with
      | zero => cases hLimit
      | succ higher =>
          rw [Fits] at h ⊢
          intro item hItem
          exact (h item hItem).mono (Nat.le_of_succ_le_succ
            hLimit)
  | limit + 1, .obj members, h, higher, hLimit => by
      cases higher with
      | zero => cases hLimit
      | succ higher =>
          rw [Fits] at h ⊢
          intro member hMember
          exact (h member hMember).mono
            (Nat.le_of_succ_le_succ hLimit)

/- The members of a value keep any limit that it keeps. -/
theorem inherited_fits (limit : Nat) :
    Inherited (Fits limit) := by
  intro members h member hMember
  cases limit with
  | zero => cases h
  | succ limit =>
      rw [Fits] at h
      exact (h member hMember).mono (Nat.le_succ limit)

/- The canonical form of a value keeps the limits that the
   value keeps. -/
theorem fits_canonical :
    ∀ (limit : Nat) (value : Json), Fits limit value →
      Fits limit value.canonical
  | _, .null, _ => by simp [Fits, canonical]
  | _, .bool _, _ => by simp [Fits, canonical]
  | _, .str _, _ => by simp [Fits, canonical]
  | _, .num (.int _ _ _), _ => by simp [Fits, canonical]
  | limit, .num (.real _), h =>
      (not_fits_real limit h).elim
  | 0, .arr _, h => nomatch h
  | 0, .obj _, h => nomatch h
  | limit + 1, .arr items, h => by
      rw [Fits] at h
      rw [canonical, canonicalItems_eq_map, Fits]
      intro item hItem
      rcases List.mem_map.1 hItem with ⟨other, hOther, rfl⟩
      exact fits_canonical limit other (h other hOther)
  | limit + 1, .obj members, h => by
      rw [Fits] at h
      rw [canonical, Fits]
      intro member hMember
      rcases mem_canonicalMembers hMember with
        ⟨other, hOther, hValue⟩
      rw [hValue]
      exact fits_canonical limit other.2 (h other hOther)

end Json

end Converge
