import Mathlib.Data.List.TakeWhile
import Converge.Object.Identity

/-
  Written identities are read back as themselves, or not at
  all.

  Main declarations:
    * `ObjectId.parse_split`: what is read around the first
      separator
    * `ObjectId.parse_text_eq_ok_iff`: when an identity is
      read back
    * `ObjectId.eq_of_parse_text`: no other identity is read
    * `ObjectId.text_of_parse`: what is read is written back
    * `ObjectId.isParseError_of_parse`: what is not read is
      blamed
-/

namespace Converge

namespace ObjectId

/- The parts of a text around its first separator. -/
theorem span_separator
    {before : List Char}
    (hBefore : separator ∉ before)
    (after : List Char) :
    (before ++ separator :: after).takeWhile
          (· ≠ separator) = before ∧
      (before ++ separator :: after).dropWhile
          (· ≠ separator) = separator :: after := by
  induction before with
  | nil => simp
  | cons c rest ih =>
      simp only [List.mem_cons, not_or] at hBefore
      have hFirst : c ≠ separator := Ne.symm hBefore.1
      have hRest := ih hBefore.2
      simpa [hFirst] using hRest

/- What is read of a text with a separator, by what stands
   around the first one. -/
theorem parse_split
    {before : List Char}
    (hBefore : separator ∉ before)
    (after : List Char)
    (id : ObjectId) :
    parse (String.ofList (before ++ separator :: after)) =
        .ok id ↔
      before ≠ [] ∧ after ≠ [] ∧ separator ∉ after ∧
        id = ⟨String.ofList before, String.ofList after⟩ := by
  have hSpan := span_separator hBefore after
  unfold parse
  simp only [String.toList_ofList, hSpan.1, hSpan.2]
  by_cases hNamespace : before = []
  · simp [hNamespace]
  · by_cases hName : after = []
    · simp [hNamespace, hName]
    · by_cases hOther : separator ∈ after
      · simp [hNamespace, hName, hOther]
      · simp only [List.isEmpty_iff, hNamespace, hName,
          List.contains_iff_mem, hOther, if_false,
          Except.ok.injEq, ne_eq, not_false_eq_true, true_and]
        exact eq_comm

theorem text_eq (id : ObjectId) :
    id.text =
      String.ofList
        (id.namespaceName.toList ++
          separator :: id.name.toList) := by
  apply String.toList_injective
  simp [text]

/- The text of an identity is read as that identity if both
   parts can be told apart, and not at all otherwise. -/
theorem parse_text_eq_ok_iff
    {id other : ObjectId} :
    parse id.text = .ok other ↔
      id.namespaceName ≠ "" ∧ id.name ≠ "" ∧
        separator ∉ id.namespaceName.toList ∧
        separator ∉ id.name.toList ∧ other = id := by
  rw [text_eq]
  by_cases hNamespace : separator ∈ id.namespaceName.toList
  · rcases List.eq_append_cons_of_mem hNamespace with
      ⟨before, between, hParts, hBefore⟩
    have hOther :
        separator ∈ between ++ separator :: id.name.toList :=
      List.mem_append_right between List.mem_cons_self
    rw [hParts, List.append_assoc, List.cons_append,
      parse_split hBefore, ← hParts]
    simp only [hOther, hNamespace, not_true, false_and,
      and_false]
  · rw [parse_split hNamespace]
    simp only [hNamespace, String.ofList_toList, ne_eq,
      String.toList_eq_nil_iff, not_false_eq_true, true_and]

/- The text of an identity is read as no other identity. -/
theorem eq_of_parse_text
    {id other : ObjectId}
    (hParse : parse id.text = .ok other) :
    other = id :=
  (parse_text_eq_ok_iff.1 hParse).2.2.2.2

/- A text without a separator is not read. -/
theorem parse_ne_ok
    {written : String}
    (hAbsent : separator ∉ written.toList)
    (id : ObjectId) :
    parse written ≠ .ok id := by
  have hRest :
      written.toList.dropWhile (· ≠ separator) = [] := by
    rw [List.dropWhile_eq_nil_iff]
    intro c hChar
    have hOther : c ≠ separator :=
      ne_of_mem_of_not_mem hChar hAbsent
    simpa using hOther
  unfold parse
  simp only [hRest]
  exact nofun

/- What is read of a text is written as that text again. -/
theorem text_of_parse
    {written : String}
    {id : ObjectId}
    (hParse : parse written = .ok id) :
    id.text = written := by
  by_cases hSeparator : separator ∈ written.toList
  · rcases List.eq_append_cons_of_mem hSeparator with
      ⟨before, after, hParts, hBefore⟩
    have hWritten :
        written =
          String.ofList (before ++ separator :: after) := by
      rw [← hParts, String.ofList_toList]
    rw [hWritten, parse_split hBefore] at hParse
    rw [hParse.2.2.2, text_eq, hWritten,
      String.toList_ofList, String.toList_ofList]
  · exact absurd hParse (parse_ne_ok hSeparator id)

/- So no other identity is written as that text. -/
theorem eq_of_text
    {written : String}
    {id other : ObjectId}
    (hParse : parse written = .ok id)
    (hOther : other.text = written) :
    other = id := by
  rw [← hOther] at hParse
  exact (eq_of_parse_text hParse).symm

/- A text that is not read is blamed for it. -/
theorem isParseError_of_parse
    {written : String}
    {fault : ObjectError}
    (hParse : parse written = .error fault) :
    fault.isParseError = true := by
  unfold parse at hParse
  simp only at hParse
  split at hParse
  · cases hParse
    rfl
  · split at hParse
    · cases hParse
      rfl
    · split at hParse
      · cases hParse
        rfl
      · split at hParse
        · cases hParse
          rfl
        · cases hParse

end ObjectId

end Converge
