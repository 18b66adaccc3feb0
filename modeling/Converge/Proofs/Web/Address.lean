import Converge.Proofs.Web.Percent
import Converge.Web.Address

/-
  What extending an address does to its path.

  A part that is pushed becomes one segment, unless it
  moves, and stands for that part, unless some of its
  characters are passed over. Longer paths keep what they
  start with. Segments without slashes are told from their
  text.

  Key definitions:
    * `Address.IsPlain`: parts that neither move nor lose a
      character
    * `Address.Spells`: segments that stand for a part

  Main declarations:
    * `Address.push_plain`: what is pushed of a plain part
    * `Address.push_spells_iff`: only plain parts are spelled
    * `Address.pushAll_append`: what a path starts with stays
    * `Address.pathText_injective`: segments are read back
-/

namespace Converge

namespace Address

------------------------------------------------------------
-- Parts and Segments
------------------------------------------------------------

/- Parts that do not move and of which every character
   counts. -/
def IsPlain (part : String) : Prop :=
  part ≠ "." ∧ part ≠ ".." ∧
    part.toList.any isSkipped = false

instance (part : String) : Decidable (IsPlain part) :=
  inferInstanceAs (Decidable (_ ∧ _ ∧ _))

/- What counts of a part. -/
def kept (part : String) : String :=
  String.ofList (part.toList.filter fun c => !isSkipped c)

/- The segment that is written for a text. -/
def written (text : String) : String :=
  String.ofList
    (Percent.encode Percent.reservedInSegment text.toList)

/- A segment stands for a part: it is a single segment, and
   its bytes are those of the part. -/
def Spells (segment part : String) : Prop :=
  '/' ∉ segment.toList ∧
    (Percent.decode segment.toList).toByteArray =
      part.toByteArray

/- Segments stand for parts, one for each. -/
def SpellAll : List String → List String → Prop
  | [], [] => True
  | segment :: segments, part :: parts =>
      Spells segment part ∧ SpellAll segments parts
  | _, _ => False

theorem kept_of_isPlain
    {part : String}
    (hPlain : IsPlain part) :
    kept part = part := by
  have hAll :
      part.toList.filter (fun c => !isSkipped c) =
        part.toList := by
    apply List.filter_eq_self.2
    intro c hMem
    simpa using List.any_eq_false.1 hPlain.2.2 c hMem
  rw [kept, hAll, String.ofList_toList]

/- Nothing of what counts is passed over. -/
theorem any_isSkipped_kept (part : String) :
    (kept part).toList.any isSkipped = false := by
  simp [kept]

/- What is written for a text stands for it. -/
theorem spells_written (text : String) :
    Spells (written text) text := by
  constructor
  · rw [written, String.toList_ofList]
    exact Percent.not_mem_encode
      (by decide) (by decide) (by decide) text.toList
  · rw [written, String.toList_ofList,
      Percent.decode_encode (by decide)]
    exact congrArg String.toByteArray
      (String.ofList_toList (s := text))

/- A segment stands for one part only. -/
theorem Spells.unique
    {segment part other : String}
    (hPart : Spells segment part)
    (hOther : Spells segment other) :
    part = other :=
  String.toByteArray_inj.1 (hPart.2.symm.trans hOther.2)

theorem written_injective
    {text other : String}
    (hSame : written text = written other) :
    text = other := by
  have hText := spells_written text
  rw [hSame] at hText
  exact hText.unique (spells_written other)

------------------------------------------------------------
-- Pushing One Part
------------------------------------------------------------

/- The segments that others are pushed onto: those of a root
   give way. -/
def opened (segments : List String) : List String :=
  if segments = [""] then [] else segments

theorem push_dot (segments : List String) :
    push segments "." = segments :=
  rfl

theorem push_dots (segments : List String) :
    push segments ".." = segments :=
  rfl

/- What is pushed depends on what counts of a part. -/
theorem push_eq
    {part : String}
    (hSelf : part ≠ ".")
    (hParent : part ≠ "..")
    (segments : List String) :
    push segments part =
      if kept part = ".." then
        (opened segments).dropLast ++ [""]
      else if kept part = "." then opened segments ++ [""]
      else opened segments ++ [written (kept part)] := by
  have hKept :
      String.ofList
          (Percent.encode Percent.reservedInSegment
            (part.toList.filter fun c => !isSkipped c)) =
        written (kept part) := by
    rw [written, kept, String.toList_ofList]
  have hTwo : written (kept part) = ".." ↔ kept part = ".." :=
    ⟨fun h => written_injective (h.trans (by decide)),
      fun h => by rw [h]; decide⟩
  have hOne : written (kept part) = "." ↔ kept part = "." :=
    ⟨fun h => written_injective (h.trans (by decide)),
      fun h => by rw [h]; decide⟩
  unfold push
  simp only [hSelf, hParent, decide_false, Bool.or_self,
    Bool.false_eq_true, if_false, hKept, hTwo, hOne, opened]

/- A plain part is one more segment, which stands for it. -/
theorem push_plain
    {part : String}
    (hPlain : IsPlain part)
    (segments : List String) :
    push segments part =
      opened segments ++ [written part] := by
  rw [push_eq hPlain.1 hPlain.2.1, kept_of_isPlain hPlain,
    if_neg hPlain.2.1, if_neg hPlain.1]

/- A part is pushed as what counts of it, if that is plain. -/
theorem push_kept
    {part : String}
    (hPlain : IsPlain (kept part))
    (segments : List String) :
    push segments part = push segments (kept part) := by
  have hSelf : part ≠ "." := by
    rintro rfl
    exact hPlain.1 (by decide)
  have hParent : part ≠ ".." := by
    rintro rfl
    exact hPlain.2.1 (by decide)
  rw [push_plain hPlain, push_eq hSelf hParent,
    if_neg hPlain.2.1, if_neg hPlain.1]

/- Parts that are written as they are. -/
def IsOwn (part : String) : Prop :=
  IsPlain part ∧ written part = part ∧ part ≠ ""

instance (part : String) : Decidable (IsOwn part) :=
  inferInstanceAs (Decidable (_ ∧ _ ∧ _))

theorem IsOwn.spells
    {part : String}
    (hOwn : IsOwn part) :
    Spells part part := by
  have hSpells := spells_written part
  rwa [hOwn.2.1] at hSpells

theorem opened_append_own
    {part : String}
    (hOwn : IsOwn part)
    (segments : List String) :
    opened (segments ++ [part]) = segments ++ [part] := by
  unfold opened
  rw [if_neg]
  intro hRoot
  have hLast := congrArg List.getLast? hRoot
  exact hOwn.2.2 (by simpa using hLast)

/- Such parts are added as segments. -/
theorem pushAll_own
    {part : String}
    {parts : List String}
    (hOwn : ∀ each ∈ part :: parts, IsOwn each)
    (segments : List String) :
    pushAll segments (part :: parts) =
      opened segments ++ part :: parts := by
  induction parts generalizing part segments with
  | nil =>
      have hFirst := hOwn part List.mem_cons_self
      have hPush := push_plain hFirst.1 segments
      rwa [hFirst.2.1] at hPush
  | cons next parts ih =>
      obtain ⟨hFirst, hRest⟩ := List.forall_mem_cons.1 hOwn
      have hPush := push_plain hFirst.1 segments
      rw [hFirst.2.1] at hPush
      have hSplit :
          pushAll segments (part :: next :: parts) =
            pushAll (push segments part) (next :: parts) :=
        rfl
      rw [hSplit, hPush, ih hRest,
        opened_append_own hFirst, List.append_assoc]
      rfl

------------------------------------------------------------
-- Paths of Two Segments or More
------------------------------------------------------------

theorem opened_of_two_le
    {segments : List String}
    (hLong : 2 ≤ segments.length) :
    opened segments = segments := by
  unfold opened
  rw [if_neg]
  rintro rfl
  simp at hLong

/- All that a part can do to such a path. -/
theorem push_cases
    {segments : List String}
    (hLong : 2 ≤ segments.length)
    (part : String) :
    push segments part = segments ∨
      push segments part = segments.dropLast ++ [""] ∨
      push segments part = segments ++ [""] ∨
      push segments part =
        segments ++ [written (kept part)] := by
  by_cases hSelf : part = "."
  · exact .inl (by rw [hSelf, push_dot])
  by_cases hParent : part = ".."
  · exact .inl (by rw [hParent, push_dots])
  have hPush := push_eq hSelf hParent segments
  rw [opened_of_two_le hLong] at hPush
  by_cases hTwo : kept part = ".."
  · rw [if_pos hTwo] at hPush
    exact .inr (.inl hPush)
  by_cases hOne : kept part = "."
  · rw [if_neg hTwo, if_pos hOne] at hPush
    exact .inr (.inr (.inl hPush))
  · rw [if_neg hTwo, if_neg hOne] at hPush
    exact .inr (.inr (.inr hPush))

/- A path stays as long, or is longer by one segment, and
   then starts with what it was. -/
theorem length_push
    {segments : List String}
    (hLong : 2 ≤ segments.length)
    (part : String) :
    (push segments part).length = segments.length ∨
      ∃ segment,
        push segments part = segments ++ [segment] := by
  rcases push_cases hLong part with
    hPush | hPush | hPush | hPush
  · exact .inl (by rw [hPush])
  · refine .inl ?_
    rw [hPush]
    simp
    omega
  · exact .inr ⟨_, hPush⟩
  · exact .inr ⟨_, hPush⟩

theorem two_le_length_push
    {segments : List String}
    (hLong : 2 ≤ segments.length)
    (part : String) :
    2 ≤ (push segments part).length := by
  rcases length_push hLong part with hSame | ⟨_, hMore⟩
  · rw [hSame]
    exact hLong
  · rw [hMore]
    simp
    omega

/- What stands before such a path has no part in it. -/
theorem push_append
    {segments : List String}
    (hLong : 2 ≤ segments.length)
    (root : List String)
    (part : String) :
    push (root ++ segments) part =
      root ++ push segments part := by
  by_cases hSelf : part = "."
  · rw [hSelf, push_dot, push_dot]
  by_cases hParent : part = ".."
  · rw [hParent, push_dots, push_dots]
  have hWhole : 2 ≤ (root ++ segments).length := by
    rw [List.length_append]
    omega
  have hSome : segments ≠ [] := by
    rintro rfl
    simp at hLong
  rw [push_eq hSelf hParent, push_eq hSelf hParent,
    opened_of_two_le hWhole, opened_of_two_le hLong,
    List.dropLast_append_of_ne_nil hSome]
  split
  · rw [List.append_assoc]
  · split <;> rw [List.append_assoc]

/- One more segment stands for the part that was pushed just
   when that part is plain. -/
theorem push_spells_iff
    {segments : List String}
    (hLong : 2 ≤ segments.length)
    (part : String) :
    (∃ segment,
        push segments part = segments ++ [segment] ∧
          Spells segment part) ↔
      IsPlain part := by
  constructor
  · rintro ⟨segment, hPush, hSpells⟩
    have hKept : part = kept part := by
      rcases push_cases hLong part with
        hCase | hCase | hCase | hCase
      · have hLength := congrArg List.length
          (hPush.symm.trans hCase)
        simp at hLength
      · have hLength := congrArg List.length
          (hPush.symm.trans hCase)
        simp at hLength
        omega
      · have hEmpty : segment = written "" := by
          simpa [written, Percent.encode] using
            List.append_cancel_left (hPush.symm.trans hCase)
        rw [hEmpty] at hSpells
        rw [hSpells.unique (spells_written "")]
        rfl
      · have hSegment : segment = written (kept part) := by
          simpa using
            List.append_cancel_left (hPush.symm.trans hCase)
        rw [hSegment] at hSpells
        exact hSpells.unique (spells_written (kept part))
    have hGrows : push segments part ≠ segments := by
      rw [hPush]
      simp
    refine ⟨?_, ?_, ?_⟩
    · rintro rfl
      exact hGrows (push_dot segments)
    · rintro rfl
      exact hGrows (push_dots segments)
    · rw [hKept]
      exact any_isSkipped_kept part
  · intro hPlain
    refine ⟨written part, ?_, spells_written part⟩
    rw [push_plain hPlain, opened_of_two_le hLong]

------------------------------------------------------------
-- Pushing Several Parts
------------------------------------------------------------

theorem pushAll_append
    {segments : List String}
    (hLong : 2 ≤ segments.length)
    (root : List String)
    (parts : List String) :
    pushAll (root ++ segments) parts =
      root ++ pushAll segments parts := by
  induction parts generalizing segments with
  | nil => rfl
  | cons part parts ih =>
      simp only [pushAll, List.foldl_cons,
        push_append hLong]
      exact ih (two_le_length_push hLong part)

theorem length_pushAll_le
    {segments : List String}
    (hLong : 2 ≤ segments.length)
    (parts : List String) :
    (pushAll segments parts).length ≤
      segments.length + parts.length := by
  induction parts generalizing segments with
  | nil => exact Nat.le_refl _
  | cons part parts ih =>
      have hRest := ih (two_le_length_push hLong part)
      have hFirst :
          (push segments part).length ≤
            segments.length + 1 := by
        rcases length_push hLong part with
          hSame | ⟨_, hMore⟩
        · omega
        · simp [hMore]
      simp only [pushAll, List.foldl_cons,
        List.length_cons] at hRest ⊢
      omega

/- A path that is longer by a segment for each part starts
   with what it was. -/
theorem exists_pushAll_of_length
    {segments : List String}
    (hLong : 2 ≤ segments.length)
    (parts : List String)
    (hLength :
      (pushAll segments parts).length =
        segments.length + parts.length) :
    ∃ added, pushAll segments parts = segments ++ added := by
  induction parts generalizing segments with
  | nil => exact ⟨[], by simp [pushAll]⟩
  | cons part parts ih =>
      have hStep := two_le_length_push hLong part
      have hBound := length_pushAll_le hStep parts
      have hSplit :
          pushAll segments (part :: parts) =
            pushAll (push segments part) parts :=
        rfl
      rw [hSplit, List.length_cons] at hLength
      rcases length_push hLong part with
        hSame | ⟨segment, hMore⟩
      · omega
      · have hRest :
            (pushAll (push segments part) parts).length =
              (push segments part).length +
                parts.length := by
          rw [hLength, hMore, List.length_append]
          simp
          omega
        obtain ⟨added, hAdded⟩ := ih hStep hRest
        refine ⟨segment :: added, ?_⟩
        rw [hSplit, hAdded, hMore, List.append_assoc]
        rfl

theorem SpellAll.length_eq :
    ∀ {segments parts : List String},
      SpellAll segments parts →
        segments.length = parts.length
  | [], [], _ => rfl
  | _ :: _, _ :: _, hSpells =>
      congrArg Nat.succ (SpellAll.length_eq hSpells.2)

/- Segments stand for one list of parts only. -/
theorem SpellAll.unique :
    ∀ {segments parts others : List String},
      SpellAll segments parts →
        SpellAll segments others → parts = others
  | [], [], [], _, _ => rfl
  | _ :: _, _ :: _, _ :: _, hParts, hOthers => by
      rw [hParts.1.unique hOthers.1,
        SpellAll.unique hParts.2 hOthers.2]

/- Segments that stand for the parts are added just when all
   parts are plain. -/
theorem pushAll_spellAll_iff
    {segments : List String}
    (hLong : 2 ≤ segments.length)
    (parts : List String) :
    (∃ added,
        pushAll segments parts = segments ++ added ∧
          SpellAll added parts) ↔
      ∀ part ∈ parts, IsPlain part := by
  induction parts generalizing segments with
  | nil =>
      simp only [List.not_mem_nil, false_implies,
        implies_true, iff_true]
      exact ⟨[], by simp [pushAll], trivial⟩
  | cons part parts ih =>
      have hStep := two_le_length_push hLong part
      have hSplit :
          pushAll segments (part :: parts) =
            pushAll (push segments part) parts :=
        rfl
      rw [List.forall_mem_cons, ← push_spells_iff hLong,
        ← ih hStep, hSplit]
      constructor
      · rintro ⟨_ | ⟨segment, added⟩, hPush, hSpells⟩
        · exact hSpells.elim
        · have hCount := SpellAll.length_eq hSpells.2
          have hTotal := congrArg List.length hPush
          have hBound := length_pushAll_le hStep parts
          rw [List.length_append, List.length_cons] at hTotal
          rcases length_push hLong part with
            hSame | ⟨first, hFirst⟩
          · omega
          · have hGrown := congrArg List.length hFirst
            rw [List.length_append, List.length_singleton]
              at hGrown
            obtain ⟨rest, hRest⟩ :=
              exists_pushAll_of_length hStep parts (by omega)
            have hWhole :
                segments ++ first :: rest =
                  segments ++ segment :: added := by
              rw [← hPush, hRest, hFirst, List.append_assoc]
              rfl
            obtain ⟨rfl, rfl⟩ := List.cons.inj
              (List.append_cancel_left hWhole)
            exact ⟨⟨first, hFirst, hSpells.1⟩,
              rest, hRest, hSpells.2⟩
      · rintro ⟨⟨segment, hFirst, hSpells⟩,
          added, hRest, hSpellAll⟩
        refine ⟨segment :: added, ?_, hSpells, hSpellAll⟩
        rw [hRest, hFirst, List.append_assoc]
        rfl

------------------------------------------------------------
-- Texts of Paths
------------------------------------------------------------

/- Each of some segments is a single one. -/
def AllSingle (segments : List String) : Prop :=
  ∀ segment ∈ segments, '/' ∉ segment.toList

theorem SpellAll.allSingle :
    ∀ {segments parts : List String},
      SpellAll segments parts → AllSingle segments
  | [], [], _ => by simp [AllSingle]
  | _ :: _, _ :: _, hSpells =>
      List.forall_mem_cons.2
        ⟨hSpells.1.1, SpellAll.allSingle hSpells.2⟩

/- What is pushed is a single segment. -/
theorem push_allSingle
    {segments : List String}
    (hLong : 2 ≤ segments.length)
    (hSingle : AllSingle segments)
    (part : String) :
    AllSingle (push segments part) := by
  have hEmpty : '/' ∉ "".toList := by simp
  rcases push_cases hLong part with
    hPush | hPush | hPush | hPush
  · rw [hPush]
    exact hSingle
  · rw [hPush]
    refine List.forall_mem_append.2
      ⟨fun segment hMem => ?_,
        List.forall_mem_singleton.2 hEmpty⟩
    exact hSingle segment (List.dropLast_subset _ hMem)
  · rw [hPush]
    exact List.forall_mem_append.2
      ⟨hSingle, List.forall_mem_singleton.2 hEmpty⟩
  · rw [hPush]
    exact List.forall_mem_append.2
      ⟨hSingle,
        List.forall_mem_singleton.2
          (spells_written (kept part)).1⟩

theorem pushAll_allSingle
    {segments : List String}
    (hLong : 2 ≤ segments.length)
    (hSingle : AllSingle segments)
    (parts : List String) :
    AllSingle (pushAll segments parts) := by
  induction parts generalizing segments with
  | nil => exact hSingle
  | cons part parts ih =>
      exact ih (two_le_length_push hLong part)
        (push_allSingle hLong hSingle part)

theorem pathText_cons
    (segment : String)
    (segments : List String) :
    pathText (segment :: segments) =
      "/" ++ segment ++ pathText segments := by
  simp [pathText, String.join_cons]

theorem pathText_append
    (front back : List String) :
    pathText (front ++ back) =
      pathText front ++ pathText back := by
  induction front with
  | nil => simp [pathText]
  | cons segment front ih =>
      rw [List.cons_append, pathText_cons, pathText_cons, ih,
        String.append_assoc, String.append_assoc,
        String.append_assoc]

/- Characters before the first slash belong to the first
   part. -/
theorem splitPath_append
    {segment : List Char}
    (hSingle : '/' ∉ segment)
    {rest part : List Char}
    {parts : List (List Char)}
    (hRest : splitPath false rest = part :: parts) :
    splitPath false (segment ++ rest) =
      (segment ++ part) :: parts := by
  induction segment with
  | nil => exact hRest
  | cons c segment ih =>
      simp only [List.mem_cons, not_or] at hSingle
      have hOther : isSlash false c = false := by
        simpa [isSlash] using Ne.symm hSingle.1
      rw [List.cons_append, splitPath, hOther, ih hSingle.2]
      rfl

/- Segments are read back from the text of their path. -/
theorem splitPath_pathText
    {segments : List String}
    (hSingle : AllSingle segments) :
    splitPath false (pathText segments).toList =
      [] :: segments.map String.toList := by
  induction segments with
  | nil => rfl
  | cons segment segments ih =>
      obtain ⟨hFirst, hRest⟩ := List.forall_mem_cons.1 hSingle
      have hText :
          (pathText (segment :: segments)).toList =
            '/' :: (segment.toList ++
              (pathText segments).toList) := by
        rw [pathText_cons]
        simp
      rw [hText, splitPath, splitPath_append hFirst (ih hRest),
        List.append_nil]
      rfl

theorem pathText_injective
    {segments others : List String}
    (hSingle : AllSingle segments)
    (hOthers : AllSingle others)
    (hSame : pathText segments = pathText others) :
    segments = others := by
  have hRead := splitPath_pathText hSingle
  rw [hSame, splitPath_pathText hOthers] at hRead
  exact ((List.map_inj_right fun _ _ hTexts =>
    String.toList_injective hTexts).1
      (List.cons.inj hRead).2).symm

/- A request is told from others by the path that it
   names. -/
theorem target_injective
    {address : Address}
    {segments others : List String}
    (hSame : address.target segments = address.target others) :
    pathText segments = pathText others := by
  unfold target at hSame
  cases hQuery : address.query with
  | none => simpa [hQuery] using hSame
  | some query => simpa [hQuery] using hSame

end Address

end Converge
