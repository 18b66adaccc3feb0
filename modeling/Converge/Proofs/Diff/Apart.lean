import Mathlib.Data.List.Pairwise
import Converge.Proofs.Diff.Ground
import Converge.Proofs.Diff.Order

/-
  Edits that keep apart, on a document of anybody's.

  Where the way to each edit leads through objects, an edit
  does to its own place what its change says, and nothing to
  the places apart from it. So edits that keep apart do not
  see each other: their order has no effect, and together
  they can be carried out exactly when each of them can.

  Key definitions:
    * `Edit.Lands`: the way to an edit leads through objects
    * `Diff.Separate`: such edits that keep apart

  Main declarations:
    * `Diff.Separate.at?_of_mem`,
      `Diff.Separate.at?_of_apart`: what edits do
    * `Diff.Separate.exists_carry?_iff`: when they succeed
    * `Diff.Separate.unordered`: they can be reordered
-/

namespace Converge

namespace Edit

------------------------------------------------------------
-- The Way to an Edit
------------------------------------------------------------

/- Edits of one member keep apart as edits below it do. -/
theorem Apart.of_under
    {key : String}
    {left right : Edit}
    (h : (left.under key).Apart (right.under key)) :
    left.Apart right :=
  h.imp (mt (List.prefix_cons_inj key).2)
    (mt (List.prefix_cons_inj key).2)

theorem Apart.symm
    {left right : Edit}
    (h : left.Apart right) :
    right.Apart left :=
  And.symm h

instance : Std.Symm Apart := ⟨fun _ _ h => h.symm⟩

/- The way to the place of an edit leads through objects,
   whose members are in order. -/
inductive Lands : Edit → Option Json → Prop
  | whole
      (change : Change)
      (slot : Option Json) :
      Lands ⟨[], change⟩ slot
  | member
      {key : String}
      {inner : Edit}
      {members : List (String × Json)} :
      Keyed.Sorted members →
        Lands inner (members.lookup key) →
          Lands (inner.under key) (some (.obj members))

/- So it does where an edit finds its ground. -/
theorem lands_of_grounded
    {edit : Edit}
    {slot : Option Json}
    (hSlot : ∀ value, slot = some value → value.IsCanonical)
    (hGrounded : edit.Grounded slot) :
    edit.Lands slot := by
  obtain ⟨path, change⟩ := edit
  induction path generalizing slot with
  | nil => exact .whole change slot
  | cons key path ih =>
      let inner : Edit := ⟨path, change⟩
      have hObject :
          ∃ members, slot = some (.obj members) := by
        by_contra hNone
        exact not_grounded_of_not_obj
          (fun members hEq => hNone ⟨members, hEq⟩) rfl
          hGrounded
      rcases hObject with ⟨members, rfl⟩
      have hMembers := hSlot _ rfl
      have hInner : inner.Grounded (members.lookup key) :=
        grounded_under_iff.1 hGrounded
      exact .member hMembers.sorted
        (ih (fun _ hFound => hMembers.member hFound) hInner)

section Place

variable {edit other : Edit}
variable {slot made : Option Json}

/- Below a member of an object, an edit makes the object with
   what it makes of the member. -/
theorem onSlot?_under_eq_some_iff
    {key : String}
    {inner : Edit}
    {members : List (String × Json)}
    (hSorted : Keyed.Sorted members) :
    (inner.under key).onSlot? (some (.obj members)) =
        some made ↔
      ∃ place,
        inner.onSlot? (members.lookup key) = some place ∧
          some (.obj (Keyed.assign key place members)) =
            made := by
  rw [inner.onSlot?_under key hSorted,
    Option.map_eq_some_iff]

/- A place holds itself at the empty path. -/
theorem bind_at?_nil (place : Option Json) :
    place.bind (Json.at? []) = place := by
  cases place <;> rfl

/- What a member that was set holds below it. -/
theorem at?_assign
    (key token : String)
    (path : List String)
    (place : Option Json)
    (members : List (String × Json)) :
    (some (Json.obj (Keyed.assign key place members))).bind
        (Json.at? (token :: path)) =
      (if token = key then place
        else members.lookup token).bind (Json.at? path) := by
  rw [← Keyed.lookup_assign]
  rfl

/- An edit does to its own place what its change says. -/
theorem Lands.map_at?_onSlot?
    (hLands : edit.Lands slot) :
    (edit.onSlot? slot).map
        (fun made => made.bind (Json.at? edit.path)) =
      edit.change.onSlot? (slot.bind (Json.at? edit.path)) := by
  induction hLands with
  | whole change slot =>
      simp only [onSlot?, bind_at?_nil, Option.map_id']
  | @member key inner members hSorted hInner ih =>
      rw [inner.onSlot?_under key hSorted, Option.map_map]
      refine Eq.trans ?_ ih
      congr 1
      funext place
      exact (at?_assign key key inner.path place members).trans
        (by rw [if_pos rfl])

/- It does nothing to the places apart from it. -/
theorem Lands.at?_of_apart
    (hLands : edit.Lands slot)
    (hMade : edit.onSlot? slot = some made)
    {path : List String}
    (hApart : ¬edit.path <+: path ∧ ¬path <+: edit.path) :
    made.bind (Json.at? path) = slot.bind (Json.at? path) := by
  induction hLands generalizing made path with
  | whole change slot => exact absurd (List.nil_prefix) hApart.1
  | @member key inner members hSorted hInner ih =>
      rcases (onSlot?_under_eq_some_iff hSorted).1 hMade with
        ⟨place, hPlace, rfl⟩
      cases path with
      | nil => exact absurd (List.nil_prefix) hApart.2
      | cons token path =>
          rw [at?_assign]
          by_cases hKey : token = key
          · subst hKey
            rw [if_pos rfl]
            exact ih hPlace
              (hApart.imp (mt (List.prefix_cons_inj _).2)
                (mt (List.prefix_cons_inj _).2))
          · rw [if_neg hKey]
            rfl

/- The places above it are objects. -/
theorem Lands.exists_obj_above
    (hLands : edit.Lands slot)
    {path : List String}
    (hAbove : path <+: edit.path)
    (hNe : path ≠ edit.path) :
    ∃ members,
      slot.bind (Json.at? path) = some (.obj members) := by
  induction hLands generalizing path with
  | whole change slot =>
      exact absurd (List.prefix_nil.1 hAbove) hNe
  | @member key inner members hSorted hInner ih =>
      cases path with
      | nil => exact ⟨_, rfl⟩
      | cons token path =>
          rcases List.cons_prefix_cons.1 hAbove with
            ⟨rfl, hInside⟩
          exact ih hInside
            fun hEq => hNe (congrArg (List.cons token) hEq)

/- The way to an edit stays, whatever an edit does that does
   not lie on it. -/
theorem Lands.after
    (hLands : edit.Lands slot)
    (hBeside :
      other.path <+: edit.path → other.path = edit.path)
    (hMade : other.onSlot? slot = some made) :
    edit.Lands made := by
  induction hLands generalizing made other with
  | whole change slot => exact .whole change made
  | @member key inner members hSorted hInner ih =>
      have hPath : other.path ≠ [] := fun hNil => by
        rw [hNil] at hBeside
        cases hBeside List.nil_prefix
      rcases exists_eq_under hPath with ⟨token, outer, rfl⟩
      rcases (onSlot?_under_eq_some_iff hSorted).1 hMade with
        ⟨place, hPlace, rfl⟩
      refine .member (hSorted.assign token place) ?_
      rw [Keyed.lookup_assign]
      by_cases hKey : key = token
      · subst hKey
        rw [if_pos rfl]
        refine ih (fun hPrefix => ?_) hPlace
        exact (List.cons.inj (hBeside
          ((List.prefix_cons_inj key).2 hPrefix))).2
      · rw [if_neg hKey]
        exact hInner

/- An edit that puts what is there changes nothing. -/
theorem Lands.onSlot?_eq_self
    (hLands : edit.Lands slot)
    (hThere :
      edit.change.onSlot? (slot.bind (Json.at? edit.path)) =
        some (slot.bind (Json.at? edit.path))) :
    edit.onSlot? slot = some slot := by
  induction hLands with
  | whole change slot =>
      rw [bind_at?_nil] at hThere
      exact hThere
  | @member key inner members hSorted hInner ih =>
      rw [inner.onSlot?_under key hSorted, ih hThere,
        Option.map_some, hSorted.assign_lookup key]

end Place

/- Edits that keep apart, on their way through objects, can
   change places. -/
theorem Lands.unordered_pair
    {first second : Edit}
    {slot : Option Json}
    (hFirst : first.Lands slot)
    (hSecond : second.Lands slot)
    (hApart : first.Apart second) :
    Diff.Unordered [first, second] slot := by
  induction hFirst generalizing second with
  | whole change slot => exact absurd List.nil_prefix hApart.1
  | @member key inner members hSorted hInner ih =>
      cases hSecond with
      | whole change =>
          exact absurd List.nil_prefix hApart.2
      | @member token outer _ _ hOuter =>
          by_cases hKey : key = token
          · subst hKey
            have hInside := ih hOuter hApart.of_under
            let plan : List (String × List Edit) :=
              [(key, [inner, outer])]
            have hNodup :
                (plan.map fun entry => entry.1).Nodup := by
              simp [plan]
            refine Diff.Unordered.planned hNodup hSorted ?_
            intro entry hEntry
            rw [List.mem_singleton.1 hEntry]
            exact hInside
          · have hOne :
                ∀ edit place, Diff.Unordered [edit] place :=
              fun _ _ =>
                Diff.unordered_of_length_le (by simp) _
            exact Diff.Unordered.pair hKey hSorted (hOne _ _)
              (hOne _ _)

end Edit

namespace Diff

------------------------------------------------------------
-- Several Edits
------------------------------------------------------------

/- Edits that keep apart, and whose ways lead through
   objects. -/
structure Separate
    (edits : List Edit)
    (slot : Option Json) : Prop where
  apart : edits.Pairwise Edit.Apart
  lands : ∀ edit, edit ∈ edits → edit.Lands slot

namespace Separate

variable {edits others : List Edit}
variable {slot made : Option Json}

/- Once the first of several edits is carried out, the others
   are such edits still. -/
theorem tail
    {edit : Edit}
    (h : Separate (edit :: edits) slot)
    (hMade : edit.onSlot? slot = some made) :
    Separate edits made := by
  rcases List.pairwise_cons.1 h.apart with ⟨hFirst, hRest⟩
  refine ⟨hRest, fun other hOther => ?_⟩
  exact (h.lands other (List.mem_cons_of_mem _ hOther)).after
    (fun hAbove => absurd hAbove (hFirst other hOther).1) hMade

theorem perm
    (h : Separate edits slot)
    (hOrder : List.Perm others edits) :
    Separate others slot := by
  refine ⟨?_, fun edit hEdit => ?_⟩
  · exact h.apart.perm hOrder.symm fun hApart => hApart.symm
  · exact h.lands edit (hOrder.mem_iff.1 hEdit)

theorem sublist
    (h : Separate edits slot)
    (hSome : others.Sublist edits) :
    Separate others slot :=
  ⟨h.apart.sublist hSome,
    fun edit hEdit => h.lands edit (hSome.subset hEdit)⟩

/- The edits do nothing to a place apart from all of them. -/
theorem at?_of_apart
    (h : Separate edits slot)
    (hMade : carry? edits slot = some made)
    {path : List String}
    (hApart :
      ∀ edit, edit ∈ edits →
        ¬edit.path <+: path ∧ ¬path <+: edit.path) :
    made.bind (Json.at? path) = slot.bind (Json.at? path) := by
  induction edits generalizing slot with
  | nil =>
      cases hMade
      rfl
  | cons edit rest ih =>
      rcases Option.bind_eq_some_iff.1 hMade with
        ⟨between, hBetween, hRest⟩
      have hFirst :=
        (h.lands edit List.mem_cons_self).at?_of_apart hBetween
          (hApart edit List.mem_cons_self)
      refine (ih (h.tail hBetween) hRest ?_).trans hFirst
      exact fun other hOther =>
        hApart other (List.mem_cons_of_mem _ hOther)

/- Each edit does to its place what its change says. -/
theorem at?_of_mem
    (h : Separate edits slot)
    (hMade : carry? edits slot = some made)
    {edit : Edit}
    (hEdit : edit ∈ edits) :
    edit.change.onSlot? (slot.bind (Json.at? edit.path)) =
      some (made.bind (Json.at? edit.path)) := by
  induction edits generalizing slot with
  | nil => cases hEdit
  | cons first rest ih =>
      rcases Option.bind_eq_some_iff.1 hMade with
        ⟨between, hBetween, hRest⟩
      have hLands := h.lands first List.mem_cons_self
      have hTail := h.tail hBetween
      have hFirst := (List.pairwise_cons.1 h.apart).1
      rcases List.mem_cons.1 hEdit with rfl | hLater
      · have hSame := hTail.at?_of_apart hRest
          fun other hOther => (hFirst other hOther).symm
        rw [hSame, ← hLands.map_at?_onSlot?, hBetween]
        rfl
      · rw [← ih hTail hRest hLater,
          hLands.at?_of_apart hBetween (hFirst edit hLater)]

/- The way to each edit stays. -/
theorem lands_after
    (h : Separate edits slot)
    (hMade : carry? edits slot = some made)
    {edit : Edit}
    (hEdit : edit ∈ edits) :
    edit.Lands made := by
  have hBeside :
      ∀ other, other ∈ edits →
        other.path <+: edit.path →
          other.path = edit.path := by
    intro other hOther hPrefix
    by_cases hSame : other = edit
    · rw [hSame]
    · have hApart := h.apart.forall hOther hEdit hSame
      exact absurd hPrefix hApart.1
  have hLands := h.lands edit hEdit
  clear hEdit
  induction edits generalizing slot with
  | nil =>
      cases hMade
      exact hLands
  | cons first rest ih =>
      rcases Option.bind_eq_some_iff.1 hMade with
        ⟨between, hBetween, hRest⟩
      refine ih (h.tail hBetween) hRest ?_ ?_
      · exact fun other hOther =>
          hBeside other (List.mem_cons_of_mem _ hOther)
      · exact hLands.after (hBeside first List.mem_cons_self)
          hBetween

/- Together edits can be carried out exactly when the change
   of each one fits its place. -/
theorem exists_carry?_iff
    (h : Separate edits slot) :
    (∃ made, carry? edits slot = some made) ↔
      ∀ edit, edit ∈ edits →
        ∃ place,
          edit.change.onSlot?
              (slot.bind (Json.at? edit.path)) =
            some place := by
  constructor
  · rintro ⟨made, hMade⟩ edit hEdit
    exact ⟨_, h.at?_of_mem hMade hEdit⟩
  · intro hFits
    induction edits generalizing slot with
    | nil => exact ⟨slot, rfl⟩
    | cons edit rest ih =>
        have hLands := h.lands edit List.mem_cons_self
        rcases hFits edit List.mem_cons_self with
          ⟨place, hPlace⟩
        rw [← hLands.map_at?_onSlot?] at hPlace
        rcases Option.map_eq_some_iff.1 hPlace with
          ⟨between, hBetween, -⟩
        have hFirst := (List.pairwise_cons.1 h.apart).1
        have hRest :
            ∃ made, carry? rest between = some made := by
          apply ih (h.tail hBetween)
          intro other hOther
          rw [hLands.at?_of_apart hBetween
            (hFirst other hOther)]
          exact hFits other (List.mem_cons_of_mem _ hOther)
        rcases hRest with ⟨made, hMade⟩
        exact ⟨made, Option.bind_eq_some_iff.2
          ⟨between, hBetween, hMade⟩⟩

/- Edits that put what is there change nothing. -/
theorem carry?_eq_self
    (h : Separate edits slot)
    (hThere :
      ∀ edit, edit ∈ edits →
        edit.change.onSlot?
            (slot.bind (Json.at? edit.path)) =
          some (slot.bind (Json.at? edit.path))) :
    carry? edits slot = some slot := by
  induction edits with
  | nil => rfl
  | cons edit rest ih =>
      have hLands := h.lands edit List.mem_cons_self
      rw [carry?, hLands.onSlot?_eq_self
        (hThere edit List.mem_cons_self), Option.bind_some]
      exact ih (h.sublist (List.sublist_cons_self _ _))
        fun other hOther =>
          hThere other (List.mem_cons_of_mem _ hOther)

/- The order of the edits has no effect. The induction is on
   the permutation; only two neighbours that change places
   make a difference. -/
theorem unordered
    (h : Separate edits slot) :
    Unordered edits slot := by
  intro order hOrder
  induction hOrder generalizing slot with
  | nil => rfl
  | cons edit hRest ih =>
      simp only [carry?]
      cases hBetween : edit.onSlot? slot with
      | none => rfl
      | some between =>
          exact ih (h.tail hBetween)
  | swap first second rest =>
      have hFirst := h.lands first List.mem_cons_self
      have hSecond := h.lands second
        (List.mem_cons_of_mem _ List.mem_cons_self)
      have hApart := (List.pairwise_cons.1 h.apart).1 second
        List.mem_cons_self
      have hPair :=
        hFirst.unordered_pair hSecond hApart _
          (List.Perm.swap first second [])
      have hSplit :
          ∀ left right,
            carry? (left :: right :: rest) slot =
              (carry? [left, right] slot).bind
                (carry? rest) :=
        fun left right => carry?_append [left, right] rest slot
      rw [hSplit, hSplit, hPair]
  | trans hFirst hSecond ihFirst ihSecond =>
      exact (ihFirst (h.perm hSecond)).trans (ihSecond h)

end Separate

end Diff

end Converge
