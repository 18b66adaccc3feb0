import Converge.Json.Basic
import Converge.Proofs.Keyed

/-
  Canonical values.

  Each object of a canonical value has its keys in order, so
  a value is determined by what its lookups answer. Making a
  value canonical is final, and every change of a canonical
  object by keys leaves it canonical.

  Main declarations:
    * `Json.isCanonical_canonical`
    * `Json.canonical_eq_self`
    * `Json.lookup_canonicalMembers`
    * `Json.IsCanonical.member`: members are canonical
-/

namespace Converge

namespace Json

------------------------------------------------------------
-- Members
------------------------------------------------------------

theorem membersAreCanonical_iff
    {members : List (String × Json)} :
    MembersAreCanonical members ↔
      ∀ member, member ∈ members → IsCanonical member.2 := by
  induction members with
  | nil => simp [MembersAreCanonical]
  | cons member rest ih =>
      obtain ⟨key, value⟩ := member
      simp only [MembersAreCanonical, ih, List.mem_cons,
        forall_eq_or_imp]

theorem areCanonical_iff
    {items : List Json} :
    AreCanonical items ↔
      ∀ item, item ∈ items → IsCanonical item := by
  induction items with
  | nil => simp [AreCanonical]
  | cons item rest ih =>
      simp only [AreCanonical, ih, List.mem_cons,
        forall_eq_or_imp]

/- An array is canonical when its items are. -/
theorem isCanonical_arr_iff
    {items : List Json} :
    IsCanonical (.arr items) ↔
      ∀ item, item ∈ items → IsCanonical item := by
  rw [IsCanonical, areCanonical_iff]

/- The members of a canonical object are in order. -/
theorem IsCanonical.sorted
    {members : List (String × Json)}
    (h : IsCanonical (.obj members)) :
    Keyed.Sorted members := by
  simp only [IsCanonical] at h
  exact h.1

/- What a canonical object holds is canonical. -/
theorem IsCanonical.member
    {members : List (String × Json)}
    (h : IsCanonical (.obj members))
    {key : String}
    {value : Json}
    (hFound : members.lookup key = some value) :
    IsCanonical value := by
  simp only [IsCanonical] at h
  exact membersAreCanonical_iff.1 h.2 _
    (Keyed.mem_of_lookup hFound)

/- An object is canonical when its members are in order and
   what is found in it is canonical. -/
theorem isCanonical_obj
    {members : List (String × Json)}
    (hSorted : Keyed.Sorted members)
    (hMembers :
      ∀ key value, members.lookup key = some value →
        IsCanonical value) :
    IsCanonical (.obj members) := by
  simp only [IsCanonical]
  refine ⟨hSorted, membersAreCanonical_iff.2 ?_⟩
  intro member hMember
  exact hMembers member.1 member.2 (hSorted.lookup_of_mem hMember)

/- A property of a value that its members have as well. -/
def Inherited (holds : Json → Prop) : Prop :=
  ∀ members, holds (.obj members) →
    ∀ member, member ∈ members → holds member.2

/- What a value holds at member keys has the property. -/
theorem Inherited.at?
    {holds : Json → Prop}
    (hHolds : Inherited holds)
    {root : List String} :
    ∀ {value found : Json},
      holds value → value.at? root = some found →
        holds found := by
  induction root with
  | nil =>
      intro value found h hFound
      simp only [Json.at?, Option.some.injEq] at hFound
      exact hFound ▸ h
  | cons key rest ih =>
      intro value found h hFound
      simp only [Json.at?] at hFound
      rcases Option.bind_eq_some_iff.1 hFound with
        ⟨inner, hInner, hRest⟩
      cases value with
      | obj members =>
          have hMember := Keyed.mem_of_lookup hInner
          exact ih (hHolds members h _ hMember) hRest
      | _ => cases hInner

theorem inherited_isCanonical : Inherited IsCanonical := by
  intro members h member hMember
  simp only [IsCanonical] at h
  exact membersAreCanonical_iff.1 h.2 member hMember

/- What a canonical value holds at member keys is
   canonical. -/
theorem IsCanonical.at?
    {root : List String}
    {value found : Json}
    (h : IsCanonical value)
    (hFound : value.at? root = some found) :
    IsCanonical found :=
  inherited_isCanonical.at? h hFound

/- An object stays canonical when a member is set to a
   canonical value. -/
theorem IsCanonical.insert
    {members : List (String × Json)}
    (h : IsCanonical (.obj members))
    (key : String)
    {value : Json}
    (hValue : IsCanonical value) :
    IsCanonical (.obj (Keyed.insert key value members)) := by
  refine isCanonical_obj (h.sorted.insert key value) ?_
  intro query found hFound
  rw [Keyed.lookup_insert] at hFound
  split at hFound
  · cases hFound
    exact hValue
  · exact h.member hFound

theorem IsCanonical.erase
    {members : List (String × Json)}
    (h : IsCanonical (.obj members))
    (key : String) :
    IsCanonical (.obj (Keyed.erase key members)) := by
  refine isCanonical_obj (h.sorted.erase key) ?_
  intro query found hFound
  rw [Keyed.lookup_erase] at hFound
  split at hFound
  · cases hFound
  · exact h.member hFound

/- Setting or removing a member keeps an object canonical. -/
theorem IsCanonical.assign
    {members : List (String × Json)}
    (h : IsCanonical (.obj members))
    (key : String)
    {slot : Option Json}
    (hSlot :
      ∀ value, slot = some value → IsCanonical value) :
    IsCanonical (.obj (Keyed.assign key slot members)) := by
  cases slot with
  | none => exact h.erase key
  | some value => exact h.insert key (hSlot value rfl)

/- The same for a member of any value. -/
theorem IsCanonical.setMember
    {target : Json}
    (h : target.IsCanonical)
    (key : String)
    {value : Json}
    (hValue : IsCanonical value) :
    IsCanonical (target.setMember key value) := by
  cases target with
  | obj members => exact h.insert key hValue
  | _ => exact h

------------------------------------------------------------
-- Canonical Form
------------------------------------------------------------

/- The canonical form of an object has its values, in
   canonical form. -/
theorem lookup_canonicalMembers
    (members : List (String × Json))
    (hNodup : (members.map Prod.fst).Nodup)
    (key : String) :
    (canonicalMembers members).lookup key =
      (members.lookup key).map canonical := by
  induction members with
  | nil => rfl
  | cons member rest ih =>
      obtain ⟨first, value⟩ := member
      simp only [List.map_cons, List.nodup_cons] at hNodup
      have hAbsent : Keyed.has first rest = false := by
        apply Keyed.has_eq_false_iff.2
        apply Keyed.lookup_eq_none_of_forall_ne
        intro entry hEntry hEq
        exact hNodup.1
          (List.mem_map.2 ⟨entry, hEntry, hEq⟩)
      have hRest := ih hNodup.2
      simp only [canonicalMembers, hAbsent]
      by_cases h : key = first
      · subst h
        simp
      · have h' : (key == first) = false := by simpa using h
        simpa [List.lookup_cons, h, h'] using hRest

theorem canonicalItems_eq_map (items : List Json) :
    canonicalItems items = items.map canonical := by
  induction items with
  | nil => rfl
  | cons item rest ih =>
      rw [canonicalItems, ih, List.map_cons]

/- The canonical form of an object holds what the object
   does, in canonical form. -/
theorem mem_canonicalMembers
    {member : String × Json}
    {members : List (String × Json)}
    (hMember : member ∈ canonicalMembers members) :
    ∃ other, other ∈ members ∧
      member.2 = other.2.canonical := by
  induction members with
  | nil => cases hMember
  | cons first rest ih =>
      obtain ⟨key, value⟩ := first
      have hRest :
          member ∈ canonicalMembers rest →
            ∃ other, other ∈ (key, value) :: rest ∧
              member.2 = other.2.canonical := by
        intro hIn
        rcases ih hIn with ⟨other, hOther, hValue⟩
        exact ⟨other, List.mem_cons_of_mem _ hOther, hValue⟩
      rw [canonicalMembers] at hMember
      split at hMember
      · exact hRest hMember
      · rcases Keyed.mem_insert hMember with rfl | hIn
        · exact ⟨(key, value), List.mem_cons_self, rfl⟩
        · exact hRest hIn

mutual

/- The canonical form is canonical. -/
theorem isCanonical_canonical :
    ∀ value : Json, IsCanonical value.canonical
  | .null => by simp only [canonical, IsCanonical]
  | .bool _ => by simp only [canonical, IsCanonical]
  | .num _ => by simp only [canonical, IsCanonical]
  | .str _ => by simp only [canonical, IsCanonical]
  | .arr items => by
      simp only [canonical, IsCanonical]
      exact areCanonical_canonicalItems items
  | .obj members => by
      simp only [canonical]
      exact isCanonical_canonicalMembers members

theorem areCanonical_canonicalItems :
    ∀ items : List Json, AreCanonical (canonicalItems items)
  | [] => by simp only [canonicalItems, AreCanonical]
  | item :: rest => by
      simp only [canonicalItems, AreCanonical]
      exact ⟨isCanonical_canonical item,
        areCanonical_canonicalItems rest⟩

theorem isCanonical_canonicalMembers :
    ∀ members : List (String × Json),
      IsCanonical (.obj (canonicalMembers members))
  | [] => by
      simp only [canonicalMembers, IsCanonical,
        MembersAreCanonical]
      exact ⟨List.Pairwise.nil, trivial⟩
  | (key, value) :: rest => by
      have hRest := isCanonical_canonicalMembers rest
      simp only [canonicalMembers]
      split
      · exact hRest
      · exact hRest.insert key (isCanonical_canonical value)

end

mutual

/- A canonical value is its own canonical form. -/
theorem canonical_eq_self :
    ∀ value : Json, IsCanonical value → value.canonical = value
  | .null, _ => by simp only [canonical]
  | .bool _, _ => by simp only [canonical]
  | .num _, _ => by simp only [canonical]
  | .str _, _ => by simp only [canonical]
  | .arr items, h => by
      simp only [IsCanonical] at h
      simp only [canonical, canonicalItems_eq_self items h]
  | .obj members, h => by
      simp only [IsCanonical] at h
      simp only [canonical,
        canonicalMembers_eq_self members h.1 h.2]

theorem canonicalItems_eq_self :
    ∀ items : List Json, AreCanonical items →
      canonicalItems items = items
  | [], _ => by simp only [canonicalItems]
  | item :: rest, h => by
      simp only [AreCanonical] at h
      simp only [canonicalItems, canonical_eq_self item h.1,
        canonicalItems_eq_self rest h.2]

theorem canonicalMembers_eq_self :
    ∀ members : List (String × Json),
      Keyed.Sorted members → MembersAreCanonical members →
        canonicalMembers members = members
  | [], _, _ => by simp only [canonicalMembers]
  | (key, value) :: rest, hSorted, h => by
      simp only [MembersAreCanonical] at h
      have hAbsent : Keyed.has key rest = false :=
        Keyed.has_eq_false_iff.2 hSorted.lookup_tail_eq_none
      have hRest :=
        canonicalMembers_eq_self rest hSorted.tail h.2
      simp only [canonicalMembers, hAbsent,
        canonical_eq_self value h.1, hRest]
      exact hSorted.insert_eq_cons

end

/- Members that are in order keep their places. -/
theorem canonicalMembers_of_sorted
    {members : List (String × Json)}
    (hSorted : Keyed.Sorted members) :
    canonicalMembers members =
      Keyed.mapValues canonical members := by
  have hCanonical := isCanonical_canonicalMembers members
  apply hCanonical.sorted.ext (hSorted.mapValues canonical)
  intro key
  rw [lookup_canonicalMembers members hSorted.nodup,
    Keyed.lookup_mapValues]

end Json

end Converge
