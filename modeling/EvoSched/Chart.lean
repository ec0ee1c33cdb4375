set_option autoImplicit false

namespace EvoSched

/-- Labelled bars, some of them highlighted. -/
structure BarChart (α : Type) where
  title : String
  labels : List String
  bars : List α
  highlighted : List Nat
  deriving Repr

structure Line (α : Type) where
  label : String
  generations : List Int
  values : List α
  deriving Repr

/-- Lines over generations, on one axis. -/
structure LineChart (α : Type) where
  valueLabel : String
  generationLabel : String
  lines : List (Line α)
  deriving Repr

inductive Figure (α : Type) where
  | bars (charts : List (BarChart α))
  | lines (charts : List (LineChart α))
  deriving Repr

end EvoSched
