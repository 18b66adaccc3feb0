import Converge.Calls
import Converge.Json.Basic
import Converge.Store.Error

/-
  Stores of objects, seen through four calls.

  Objects in a store are untyped values in canonical form.

  Key definitions:
    * `Store`: the four calls
-/

namespace Converge

/- The calls of a store with states of a type. -/
structure Store (σ : Type) where
  name : String
  get : Coordinate → Calls σ StoreError Json
  create :
    ResourceType → String → Json → Calls σ StoreError Json
  patch : Coordinate → String → Calls σ StoreError Json
  delete : Coordinate → Calls σ StoreError Unit

end Converge
