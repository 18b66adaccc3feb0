import Converge.Proofs.Keyed
import Converge.Proofs.Schema.Check
import Converge.Proofs.Schema.Declared
import Converge.Proofs.Tree.Place

/-
  What a declaration says of the places in a tree.

  A declaration is walked by the same segments as a tree. It
  says which shape is asked for at a place, by what name that
  shape is reported, and which places hold the elements of a
  larger value.

  Key definitions:
    * `Shape.child?`, `Shape.at?`: the shape at a place
    * `Shape.expected`: how a shape is reported
    * `Shape.IsElement`: places inside lists and free maps
    * `Shape.Stands`: a shape and a tree at a place
    * `Shape.Governs`: a shape that asks for a tree

  Main declarations:
    * `Shape.at?_append`, `Shape.at?_entry`
    * `Shape.Governs.present`, `Shape.Governs.item`,
      `Shape.Governs.member`
-/

namespace Converge

------------------------------------------------------------
-- Declared Places
------------------------------------------------------------

/- The shape of a field in a block. -/
def Fields.shape? : Fields → String → Option Shape
  | .nil, _ => none
  | .field key _ shape rest, name =>
      if name = key then some shape else rest.shape? name
  | .wireOnly _ _ rest, name => rest.shape? name

/- Leaves that hold strings at places of their own. -/
def Leaf.isCollection : Leaf → Bool
  | .texts => true
  | .textMap => true
  | _ => false

namespace Shape

/- The shape that a segment leads to. -/
def child? (segment : String) : Shape → Option Shape
  | .leaf type =>
      if type.isCollection then some (.leaf .text) else none
  | .value _ => (ParamValue.leaves.lookup segment).map .leaf
  | .block fields => fields.shape? segment
  | .blocks fields => some (.block fields)
  | .blockMap fields => some (.block fields)
  | .part fields => fields.shape? segment
  | .observed fields => fields.shape? segment

/- The shape that several segments lead to. -/
def at? : List String → Shape → Option Shape
  | [], shape => some shape
  | segment :: rest, shape =>
      (shape.child? segment).bind (at? rest)

/- The keys that a map of the shape may have; there are none
   to choose from in a list or a free map. -/
def keys? : Shape → Option (List String)
  | .value _ =>
      some (ParamValue.leaves.map fun member => member.1)
  | .block fields => some fields.keys
  | .part fields => some fields.keys
  | .observed fields => some fields.keys
  | _ => none

/- The name by which a shape is asked for. -/
def expected : Shape → String
  | .leaf .flag => "bool"
  | .leaf .integer => "int"
  | .leaf .texts => "list"
  | .leaf .textMap => "map"
  | .leaf _ => "string"
  | .blocks _ => "list"
  | _ => "map"

/- Lists and free maps: what they hold are elements. -/
def isCollection : Shape → Bool
  | .leaf type => type.isCollection
  | .blocks _ => true
  | .blockMap _ => true
  | _ => false

/- A place that an element of a larger value has. -/
def IsElement (root : Shape) (path : List String) : Prop :=
  ∃ parent segment inner,
    path = parent ++ [segment] ∧
      root.at? parent = some inner ∧
      inner.isCollection = true

------------------------------------------------------------
-- Ways into a Declaration
------------------------------------------------------------

/- One part of the way after the other. -/
theorem at?_append
    (front back : List String)
    (shape : Shape) :
    shape.at? (front ++ back) =
      (shape.at? front).bind fun inner => inner.at? back := by
  induction front generalizing shape with
  | nil => rfl
  | cons segment rest ih =>
      simp only [List.cons_append, at?]
      cases shape.child? segment with
      | none => rfl
      | some inner => exact ih inner

/- One step further. -/
theorem at?_entry
    {root shape : Shape}
    {path : FieldPath}
    (hShape : root.at? path.segments = some shape)
    (key : String) :
    root.at? (path.entry key).segments = shape.child? key := by
  rw [FieldPath.entry, at?_append, hShape, Option.bind_some]
  simp only [at?]
  cases shape.child? key <;> rfl

end Shape

/- The leaves of a parameter value stand under its keys. -/
theorem ParamValue.child?_of_mem
    {need : Need}
    {key : String}
    {leaf : Leaf}
    (hLeaf : (key, leaf) ∈ leaves) :
    (Shape.value need).child? key = some (.leaf leaf) := by
  have hKeys : (leaves.map fun member => member.1).Nodup := by
    decide
  simp only [Shape.child?, Keyed.lookup_of_mem hKeys hLeaf,
    Option.map_some]

/- A field that has a shape has a key. -/
theorem Fields.mem_keys_of_shape?
    {fields : Fields}
    {name : String}
    {shape : Shape}
    (hShape : fields.shape? name = some shape) :
    name ∈ fields.keys := by
  match fields with
  | .nil => cases hShape
  | .field key _ _ rest =>
      simp only [shape?] at hShape
      simp only [keys, List.mem_cons]
      split at hShape
      · exact Or.inl ‹_›
      · exact Or.inr (mem_keys_of_shape? hShape)
  | .wireOnly _ _ rest =>
      simp only [shape?] at hShape
      simp only [keys]
      exact mem_keys_of_shape? hShape

/- A field that has a key has a shape. -/
theorem Fields.exists_shape?
    {fields : Fields}
    {name : String}
    (hKey : name ∈ fields.keys) :
    ∃ shape, fields.shape? name = some shape := by
  match fields with
  | .nil => cases hKey
  | .field key _ shape rest =>
      simp only [keys, List.mem_cons] at hKey
      by_cases hName : name = key
      · exact ⟨shape, if_pos hName⟩
      · rcases exists_shape? (hKey.resolve_left hName) with
          ⟨inner, hInner⟩
        exact ⟨inner, (if_neg hName).trans hInner⟩
  | .wireOnly _ _ rest =>
      simp only [keys] at hKey
      have hRest : ∃ shape, rest.shape? name = some shape :=
        exists_shape? hKey
      exact hRest

/- Later fields keep their shapes, since no key repeats. -/
theorem Fields.shape?_of_rest
    {key wire name : String}
    {first shape : Shape}
    {rest : Fields}
    (hKey : key ∉ rest.keys)
    (hShape : rest.shape? name = some shape) :
    (Fields.field key wire first rest).shape? name =
      some shape := by
  have hOther : name ≠ key := fun hSame =>
    hKey (hSame ▸ mem_keys_of_shape? hShape)
  rw [Fields.shape?, if_neg hOther]
  exact hShape

------------------------------------------------------------
-- Places of a Tree
------------------------------------------------------------

/- A place at which a shape is declared and a tree is set. -/
structure Shape.Stands
    (root : Shape)
    (whole : Tree)
    (path : FieldPath)
    (shape : Shape)
    (tree : Tree) : Prop where
  declared : root.at? path.segments = some shape
  found : whole.at? path.segments = some tree

namespace Shape.Stands

variable {root shape : Shape}
variable {whole : Tree}
variable {path : FieldPath}

/- The root of a tree stands where its shape does. -/
theorem self
    (shape : Shape)
    (tree : Tree) :
    shape.Stands tree .root shape tree :=
  ⟨rfl, rfl⟩

/- An entry of a map. -/
theorem entry
    {entries : ConfigMap}
    (hMap : root.Stands whole path shape (.map entries))
    {key : String}
    {inner : Shape}
    {tree : Tree}
    (hShape : shape.child? key = some inner)
    (hTree : entries.lookup key = some tree) :
    root.Stands whole (path.entry key) inner tree :=
  ⟨(Shape.at?_entry hMap.declared key).trans hShape,
    (Tree.at?_entry hMap.found key).trans hTree⟩

/- An item of a list. -/
theorem item
    {items : List Tree}
    (hList : root.Stands whole path shape (.list items))
    {position : Nat}
    {inner : Shape}
    {tree : Tree}
    (hShape :
      shape.child? (toString position) = some inner)
    (hTree : items[position]? = some tree) :
    root.Stands whole (path.item position) inner tree :=
  ⟨(Shape.at?_entry hList.declared _).trans hShape,
    (Tree.at?_item hList.found position).trans hTree⟩

/- What stands in a list or a free map is an element. -/
theorem isElement
    {tree : Tree}
    (hStands : root.Stands whole path shape tree)
    (hCollection : shape.isCollection = true)
    (segment : String) :
    root.IsElement (path.entry segment).segments :=
  ⟨path.segments, segment, shape, rfl, hStands.declared,
    hCollection⟩

end Shape.Stands

------------------------------------------------------------
-- Governed Trees
------------------------------------------------------------

/- A shape asks for a tree at its place: the tree is there,
   and is no null that counts as absent. -/
structure Shape.Governs
    (root : Shape)
    (whole : Tree)
    (path : FieldPath)
    (shape : Shape)
    (tree : Tree) : Prop
    extends Shape.Stands root whole path shape tree where
  set : tree.isNull = false ∨ root.IsElement path.segments

/- A list or a free map, and the shape of its elements. -/
structure Shape.Collects (shape inner : Shape) : Prop where
  isCollection : shape.isCollection = true
  child : ∀ segment, shape.child? segment = some inner

/- A map with the fields of a block. -/
structure Shape.HasFields
    (shape : Shape)
    (fields : Fields) : Prop where
  expected : shape.expected = "map"
  keys : shape.keys? = some fields.keys
  child : ∀ name, shape.child? name = fields.shape? name

/- A present entry is not null. -/
theorem ConfigMap.present?_eq_some_iff
    {entries : ConfigMap}
    {key : String}
    {tree : Tree} :
    entries.present? key = some tree ↔
      entries.lookup key = some tree ∧
        tree.isNull = false := by
  simp [ConfigMap.present?, Option.filter_eq_some_iff]

namespace Shape.Governs

variable {root shape : Shape}
variable {whole tree : Tree}
variable {path : FieldPath}

/- The declared field of a map. -/
theorem present
    {entries : ConfigMap}
    (hMap : root.Stands whole path shape (.map entries))
    {key : String}
    {inner : Shape}
    (hShape : shape.child? key = some inner)
    (hFound : entries.present? key = some tree) :
    root.Governs whole (path.entry key) inner tree :=
  have hParts := ConfigMap.present?_eq_some_iff.1 hFound
  ⟨hMap.entry hShape hParts.1, Or.inl hParts.2⟩

/- The item of a list. -/
theorem item
    {items : List Tree}
    {inner : Shape}
    {position : Nat}
    (hList : root.Governs whole path shape (.list items))
    (hCollects : shape.Collects inner)
    (hItem : items[position]? = some tree) :
    root.Governs whole (path.item position) inner tree :=
  ⟨hList.toStands.item (hCollects.child _) hItem,
    Or.inr (hList.isElement hCollects.isCollection _)⟩

/- The value of a free map. -/
theorem member
    {entries : ConfigMap}
    {inner : Shape}
    {entry : String × Tree}
    (hWhole : whole.HasDistinctKeys)
    (hMap : root.Governs whole path shape (.map entries))
    (hCollects : shape.Collects inner)
    (hEntry : entry ∈ entries) :
    root.Governs whole (path.entry entry.1) inner entry.2 :=
  have hKeys := Tree.hasDistinctKeys_of_at? hWhole hMap.found
  ⟨hMap.toStands.entry (hCollects.child _)
      (Keyed.lookup_of_mem hKeys.1 hEntry),
    Or.inr (hMap.isElement hCollects.isCollection _)⟩

end Shape.Governs

end Converge
