/-
  Documents of tables, arrays and scalars, and how a program looks things up.

  * `Node`: a node of a document; a scalar is what it converts to;
  * `member`, `stringOr`, `integerOr`, `booleanOr`, `tables`: lookups that fall
    back on a default where a node is missing or of another kind;
  * `mapIntegers`: every integer of a document changed; lookups commute with it.
-/
import Mathlib.Data.List.Basic

namespace Toml

/-- A scalar by its conversions: what a request for a string, an integer or a truth value
    gets, if anything. -/
structure Scalar where
  string : Option String := none
  integer : Option Int := none
  boolean : Option Bool := none
  deriving DecidableEq

inductive Node where
  | scalar (value : Scalar)
  | array (nodes : List Node)
  | table (entries : List (String × Node))

namespace Node

def string (s : String) : Node := .scalar { string := some s }

def integer (n : Int) : Node := .scalar { integer := some n, boolean := some (n != 0) }

def boolean (b : Bool) : Node :=
  .scalar { integer := some (if b then 1 else 0), boolean := some b }

/-- The node under a key; a missing node has none. -/
def member (key : String) : Option Node → Option Node
  | some (.table entries) => entries.lookup key
  | _ => none

def asScalar : Option Node → Scalar
  | some (.scalar value) => value
  | _ => {}

def asInteger (node : Option Node) : Option Int := (asScalar node).integer

def stringOr (default : String) (node : Option Node) : String :=
  (asScalar node).string.getD default

def integerOr (default : Int) (node : Option Node) : Int := (asInteger node).getD default

def booleanOr (default : Bool) (node : Option Node) : Bool :=
  (asScalar node).boolean.getD default

def isTable : Node → Bool
  | .table _ => true
  | _ => false

/-- The tables of an array. -/
def tables : Option Node → List Node
  | some (.array nodes) => nodes.filter isTable
  | _ => []

section
variable {key key' : String} {node : Node} {entries : List (String × Node)}

@[simp] theorem member_nil : member key (some (.table [])) = none := rfl

theorem member_cons :
    member key (some (.table ((key', node) :: entries))) =
      if key = key' then some node else member key (some (.table entries)) := by
  show List.lookup key ((key', node) :: entries) = if _ then _ else List.lookup key entries
  rw [List.lookup_cons]
  by_cases h : key = key'
  · rw [if_pos h, beq_iff_eq.mpr h]
  · rw [if_neg h, beq_eq_false_iff_ne.mpr h]

@[simp] theorem stringOr_string (default s : String) :
    stringOr default (some (string s)) = s := rfl

@[simp] theorem stringOr_none (default : String) : stringOr default none = default := rfl

@[simp] theorem integerOr_integer (default n : Int) :
    integerOr default (some (integer n)) = n := rfl

@[simp] theorem integerOr_none (default : Int) : integerOr default none = default := rfl

@[simp] theorem asInteger_integer (n : Int) : asInteger (some (integer n)) = some n := rfl

@[simp] theorem booleanOr_boolean (default b : Bool) :
    booleanOr default (some (boolean b)) = b := rfl

@[simp] theorem booleanOr_none (default : Bool) : booleanOr default none = default := rfl

/-- An array that a program made of tables has no other elements. -/
theorem tables_map {α : Type*} {f : α → List (String × Node)} (as : List α) :
    tables (some (.array (as.map fun a => .table (f a)))) = as.map fun a => .table (f a) := by
  unfold tables
  refine List.filter_eq_self.mpr fun node h => ?_
  obtain ⟨a, -, rfl⟩ := List.mem_map.mp h
  rfl

end

/-! ## Changed integers -/

mutual

/-- The document with `f` on every integer. -/
def mapIntegers (f : Int → Int) : Node → Node
  | .scalar value => .scalar { value with integer := value.integer.map f }
  | .array nodes => .array (mapNodes f nodes)
  | .table entries => .table (mapEntries f entries)

def mapNodes (f : Int → Int) : List Node → List Node
  | [] => []
  | node :: nodes => mapIntegers f node :: mapNodes f nodes

def mapEntries (f : Int → Int) : List (String × Node) → List (String × Node)
  | [] => []
  | (key, node) :: entries => (key, mapIntegers f node) :: mapEntries f entries

end

section
variable (f : Int → Int)

theorem lookup_mapEntries (key : String) (entries : List (String × Node)) :
    (mapEntries f entries).lookup key = (entries.lookup key).map (mapIntegers f) := by
  induction entries with
  | nil => rfl
  | cons entry entries ih =>
    obtain ⟨key', node⟩ := entry
    rw [mapEntries, List.lookup_cons, List.lookup_cons]
    by_cases h : key = key'
    · rw [beq_iff_eq.mpr h]
      rfl
    · rw [beq_eq_false_iff_ne.mpr h]
      exact ih

theorem member_mapIntegers (key : String) (node : Option Node) :
    member key (node.map (mapIntegers f)) = (member key node).map (mapIntegers f) := by
  cases node with
  | none => rfl
  | some node =>
    cases node with
    | scalar value => rfl
    | array nodes => rfl
    | table entries => exact lookup_mapEntries f key entries

theorem asScalar_mapIntegers (node : Option Node) :
    asScalar (node.map (mapIntegers f)) =
      { asScalar node with integer := (asScalar node).integer.map f } := by
  cases node with
  | none => rfl
  | some node =>
    cases node with
    | scalar value => rfl
    | array nodes => rfl
    | table entries => rfl

theorem stringOr_mapIntegers (default : String) (node : Option Node) :
    stringOr default (node.map (mapIntegers f)) = stringOr default node := by
  unfold stringOr
  rw [asScalar_mapIntegers]

theorem booleanOr_mapIntegers (default : Bool) (node : Option Node) :
    booleanOr default (node.map (mapIntegers f)) = booleanOr default node := by
  unfold booleanOr
  rw [asScalar_mapIntegers]

theorem asInteger_mapIntegers (node : Option Node) :
    asInteger (node.map (mapIntegers f)) = (asInteger node).map f := by
  unfold asInteger
  rw [asScalar_mapIntegers]

/-- An integer that `f` changes, under a function that does not see the change. -/
theorem integerOr_mapIntegers {β : Type*} {g : Int → β} (h : ∀ n, g (f n) = g n) (default : Int)
    (node : Option Node) :
    g (integerOr default (node.map (mapIntegers f))) = g (integerOr default node) := by
  unfold integerOr
  rw [asInteger_mapIntegers]
  cases asInteger node with
  | none => rfl
  | some n => exact h n

theorem filter_mapNodes (nodes : List Node) :
    (mapNodes f nodes).filter isTable = (nodes.filter isTable).map (mapIntegers f) := by
  induction nodes with
  | nil => rfl
  | cons node nodes ih =>
    rw [mapNodes]
    cases node with
    | scalar value => exact ih
    | array nodes' => exact ih
    | table entries => exact congrArg (_ :: ·) ih

theorem tables_mapIntegers (node : Option Node) :
    tables (node.map (mapIntegers f)) = (tables node).map (mapIntegers f) := by
  cases node with
  | none => rfl
  | some node =>
    cases node with
    | scalar value => rfl
    | array nodes => exact filter_mapNodes f nodes
    | table entries => rfl

end

end Node

end Toml
