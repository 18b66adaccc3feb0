import Converge.Json.Pointer
import Converge.Proofs.Text.Digits
import Converge.Proofs.Tree.Same
import Converge.Tree.Path

/-
  Values inside a tree, by the segments that lead to them.

  A segment is the key of an entry where it is taken in a
  map, and the position of an item where it is taken in a
  list. Nothing is inside a scalar.

  Key definitions:
    * `Tree.child?`: the value that a segment leads to
    * `Tree.at?`: the value that several segments lead to

  Main declarations:
    * `Tree.at?_append`: one part of the way after the other
    * `Tree.at?_entry`, `Tree.at?_item`: one step further
    * `Tree.hasDistinctKeys_of_at?`
-/

namespace Converge

/- A position is read back from its digits. -/
theorem Pointer.position?_toString (position : Nat) :
    Pointer.position? (toString position) =
      some position := by
  have hText : toString position = position.repr := rfl
  have hDigits := Text.all_isDigit_toDigits position
  have hNotEmpty :
      (Nat.toDigits 10 position).isEmpty = false := by
    simp [Nat.toDigits_ne_nil]
  have hNoZero :
      (decide (1 < (Nat.toDigits 10 position).length) &&
        decide ((Nat.toDigits 10 position).head? =
          some '0')) = false := by
    by_cases hPos : 0 < position
    · simp [Text.head?_toDigits_ne_zero hPos]
    · have hZero : position = 0 := by omega
      subst hZero
      rfl
  rw [hText, Nat.repr_eq_ofList_toDigits]
  simp only [position?, String.toList_ofList, hNotEmpty,
    hDigits, hNoZero, Text.digitsValue_toDigits]
  rfl

namespace Tree

------------------------------------------------------------
-- Places
------------------------------------------------------------

/- The value that a segment leads to. -/
def child? (segment : String) : Tree → Option Tree
  | .map entries => entries.lookup segment
  | .list items =>
      (Pointer.position? segment).bind fun position =>
        items[position]?
  | _ => none

/- The value that several segments lead to. -/
def at? : List String → Tree → Option Tree
  | [], tree => some tree
  | segment :: rest, tree =>
      (tree.child? segment).bind (at? rest)

/- One part of the way after the other. -/
theorem at?_append
    (front back : List String)
    (tree : Tree) :
    tree.at? (front ++ back) =
      (tree.at? front).bind fun inner => inner.at? back := by
  induction front generalizing tree with
  | nil => rfl
  | cons segment rest ih =>
      simp only [List.cons_append, at?]
      cases tree.child? segment with
      | none => rfl
      | some inner => exact ih inner

/- The last step of a way. -/
theorem at?_append_singleton
    (front : List String)
    (segment : String)
    (tree : Tree) :
    tree.at? (front ++ [segment]) =
      (tree.at? front).bind fun inner =>
        inner.child? segment := by
  rw [at?_append]
  congr 1
  funext inner
  simp only [at?]
  cases inner.child? segment <;> rfl

section Steps

variable {whole : Tree}
variable {path : FieldPath}

/- From a map to one of its entries. -/
theorem at?_entry
    {entries : ConfigMap}
    (hMap : whole.at? path.segments = some (.map entries))
    (key : String) :
    whole.at? (path.entry key).segments =
      entries.lookup key := by
  simp only [FieldPath.entry, at?_append_singleton, hMap,
    Option.bind_some, child?]

/- From a list to one of its items. -/
theorem at?_item
    {items : List Tree}
    (hList : whole.at? path.segments = some (.list items))
    (position : Nat) :
    whole.at? (path.item position).segments =
      items[position]? := by
  simp only [FieldPath.item, FieldPath.entry,
    at?_append_singleton, hList, Option.bind_some, child?,
    Pointer.position?_toString]

end Steps

------------------------------------------------------------
-- Distinct Keys
------------------------------------------------------------

theorem hasDistinctKeys_of_child?
    {tree inner : Tree}
    {segment : String}
    (hKeys : tree.HasDistinctKeys)
    (hChild : tree.child? segment = some inner) :
    inner.HasDistinctKeys := by
  cases tree with
  | map entries =>
      exact hasDistinctKeys_of_mem_entries hKeys.2
        (Keyed.mem_of_lookup hChild)
  | list items =>
      rcases Option.bind_eq_some_iff.1 hChild with
        ⟨position, _, hItem⟩
      exact hasDistinctKeys_of_mem hKeys
        (List.mem_of_getElem? hItem)
  | null | bool | int | str => cases hChild

/- Where no map of a tree repeats a key, none inside of it
   does. -/
theorem hasDistinctKeys_of_at?
    {path : List String}
    {tree inner : Tree}
    (hKeys : tree.HasDistinctKeys)
    (hFound : tree.at? path = some inner) :
    inner.HasDistinctKeys := by
  induction path generalizing tree with
  | nil =>
      cases hFound
      exact hKeys
  | cons segment rest ih =>
      rcases Option.bind_eq_some_iff.1 hFound with
        ⟨child, hChild, hRest⟩
      exact ih (hasDistinctKeys_of_child? hKeys hChild) hRest

end Tree

end Converge
