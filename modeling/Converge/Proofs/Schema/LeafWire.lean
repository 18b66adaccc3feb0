import Converge.Proofs.Json.Canonical
import Converge.Proofs.Result
import Converge.Proofs.Schema.LeafForm
import Converge.Schema.Wire

/-
  Leaves and parameter values survive their wire form.

  What is written is canonical, and read back as the value it
  was written for.

  Main declarations:
    * `Leaf.isCanonical_encode`, `Leaf.decode?_encode`
    * `ParamValue.isCanonical_encode`,
      `ParamValue.decode?_encode`
-/

namespace Converge

open Json (IsCanonical)

namespace Leaf

------------------------------------------------------------
-- Lists and Maps of Strings
------------------------------------------------------------

/- A list of strings is canonical. -/
theorem isCanonical_texts (contents : List String) :
    IsCanonical (.arr (contents.map .str)) := by
  apply Json.isCanonical_arr_iff.2
  intro item hItem
  rcases List.mem_map.1 hItem with ⟨content, _, rfl⟩
  trivial

theorem decodeTexts?_map_str (contents : List String) :
    decodeTexts? (.arr (contents.map .str)) =
      some contents := by
  have hRead :
      (contents.map .str).mapM Json.asString? =
        some (contents.map id) :=
    Result.mapM_map_eq_some contents fun _ _ => rfl
  rw [decodeTexts?, hRead, List.map_id]

/- A map of strings is canonical. -/
theorem isCanonical_encodeTextMap (map : SortedMap String) :
    IsCanonical (encodeTextMap map) := by
  refine Json.isCanonical_obj
    (map.sorted.mapValues Json.str) ?_
  intro key value hFound
  rw [Keyed.lookup_mapValues] at hFound
  rcases Option.map_eq_some_iff.1 hFound with ⟨_, _, rfl⟩
  trivial

theorem decodeTextMap?_encodeTextMap
    (map : SortedMap String) :
    decodeTextMap? (encodeTextMap map) = some map := by
  have hRead :
      (Keyed.mapValues Json.str map.entries).mapM
          (fun (member : String × Json) =>
            member.2.asString?.map fun content =>
              (member.1, content)) =
        some (map.entries.map id) :=
    Result.mapM_map_eq_some map.entries fun _ _ => rfl
  simp only [encodeTextMap, decodeTextMap?]
  rw [hRead, List.map_id, Option.map_some, ofList_entries]

------------------------------------------------------------
-- Leaves
------------------------------------------------------------

/- What a leaf is written as is canonical. -/
theorem isCanonical_encode :
    ∀ (leaf : Leaf) (held : leaf.Val) {json : Json},
      leaf.encode held = some json → json.IsCanonical
  | .text, (content : String), _, h => by
      simp only [encode] at h
      split at h <;> cases h
      trivial
  | .requiredText, (content : String), _, h => by
      cases h
      trivial
  | .flag, (held : Bool), _, h => by
      simp only [encode] at h
      split at h <;> cases h
      trivial
  | .integer, (held : Int64), _, h => by
      simp only [encode] at h
      split at h <;> cases h
      trivial
  | .timestamp, (time : Option Timestamp), _, h => by
      rcases Option.map_eq_some_iff.1 h with ⟨_, _, rfl⟩
      trivial
  | .choice choices, (selected : Option (Choice choices)), _,
      h => by
      rcases Option.map_eq_some_iff.1 h with ⟨_, _, rfl⟩
      trivial
  | .requiredChoice choices, (selected : Choice choices), _,
      h => by
      cases h
      trivial
  | .texts, (contents : List String), _, h => by
      simp only [encode] at h
      split at h <;> cases h
      exact isCanonical_texts contents
  | .textMap, (map : SortedMap String), _, h => by
      simp only [encode] at h
      split at h <;> cases h
      exact isCanonical_encodeTextMap map

/- A leaf is read back from what it is written as. -/
theorem decode?_encode :
    ∀ (leaf : Leaf) (held : leaf.Val),
      leaf.decode? (leaf.encode held) = some held
  | .text, (content : String) => by
      by_cases h : content = ""
      · simp only [encode, h, if_true]
        rfl
      · simp only [encode, h, if_false]
        rfl
  | .requiredText, (content : String) => rfl
  | .flag, (held : Bool) => by
      cases held <;> rfl
  | .integer, (held : Int64) => by
      by_cases h : held = 0
      · simp only [encode, h, if_true]
        rfl
      · simp only [encode, h, if_false]
        exact Number.toInt64?_ofInt64 held
  | .timestamp, (time : Option Timestamp) => by
      cases time with
      | none => rfl
      | some time =>
          simp only [encode, Option.map_some, decode?,
            decodePresent?, decodeTimestamp?,
            Timestamp.read?_text]
          rfl
  | .choice choices, (selected : Option (Choice choices)) => by
      cases selected with
      | none => rfl
      | some member =>
          simp only [encode, Option.map_some, decode?,
            decodePresent?, Choice.decode?, parse?_val]
          rfl
  | .requiredChoice choices, (selected : Choice choices) =>
      parse?_val selected
  | .texts, (contents : List String) => by
      cases contents with
      | nil => rfl
      | cons content rest =>
          exact decodeTexts?_map_str (content :: rest)
  | .textMap, (map : SortedMap String) => by
      by_cases h : map.isEmpty
      · simp only [encode, h, if_true]
        rw [eq_empty_of_isEmpty h]
        rfl
      · simp only [encode, h]
        exact decodeTextMap?_encodeTextMap map

end Leaf

------------------------------------------------------------
-- Parameter Values
------------------------------------------------------------

namespace ParamValue

theorem isCanonical_encode (content : ParamValue) :
    content.encode.IsCanonical := by
  cases content with
  | string text => trivial
  | array items => exact Leaf.isCanonical_texts items
  | object map => exact Leaf.isCanonical_encodeTextMap map

/- A parameter value is read back from what it is written
   as. -/
theorem decode?_encode (content : ParamValue) :
    decode? content.encode = some content := by
  cases content with
  | string text => rfl
  | array items =>
      simp only [encode, decode?, Leaf.decodeTexts?_map_str,
        Option.map_some]
  | object map =>
      have hRead := Leaf.decodeTextMap?_encodeTextMap map
      simp only [encode, Leaf.encodeTextMap, decode?]
        at hRead ⊢
      rw [hRead, Option.map_some]

end ParamValue

theorem Need.isCanonical_encode :
    ∀ (need : Need) (held : need.Val) {json : Json},
      need.encode held = some json → json.IsCanonical
  | .optional, (held : Option ParamValue), _, h => by
      rcases Option.map_eq_some_iff.1 h with ⟨content, _, rfl⟩
      exact content.isCanonical_encode
  | .required, (held : ParamValue), _, h => by
      cases h
      exact held.isCanonical_encode
  | .assumed, (held : ParamValue), _, h => by
      cases h
      exact held.isCanonical_encode

theorem Need.decode?_encode :
    ∀ (need : Need) (held : need.Val),
      need.decode? (need.encode held) = some held
  | .optional, (held : Option ParamValue) => by
      cases held with
      | none => rfl
      | some content =>
          have hRead := content.decode?_encode
          cases content <;>
            simp only [Need.encode, Option.map_some] <;>
            exact congrArg (Option.map some) hRead
  | .required, (held : ParamValue) => held.decode?_encode
  | .assumed, (held : ParamValue) => held.decode?_encode

end Converge
