import Shading.Digest
import Shading.Text.Hex

/-! # Type identities

    A type is identified by a 64-bit word derived from its name, so that
    two types can be compared without a table.  The built-in types form a
    fixed list, and their identities are pairwise distinct. -/

namespace Shading

/-- The identity of a type. -/
structure TypeId where
  word : UInt64
  deriving DecidableEq, Repr, Inhabited

namespace TypeId

/-- The word that separates type identities from other digests. -/
def domain : UInt64 := 0x2fac10b63a6cc57c

/-- The identity that belongs to a type name. -/
def ofName (name : String) : TypeId := ⟨domain ^^^ Digest.ofText name⟩

/-- `0x` and sixteen hexadecimal digits. -/
def text (t : TypeId) : String := Text.hexWord t.word

end TypeId

/-- The built-in types. -/
inductive Builtin where
  | void | bool | int | float
  | float2 | float3 | float4
  | ray | isect
  | light | shaderHandle | contextPtr
  | module
  | dfunc
  deriving DecidableEq, Repr, Inhabited

namespace Builtin

/-- Every built-in type, in the order in which a new table holds them. -/
def all : List Builtin :=
  [void, bool, int, float, float2, float3, float4, ray, isect, light, shaderHandle, contextPtr,
    module, dfunc]

/-- The name of the type in source text. -/
def name : Builtin → String
  | void => "void"
  | bool => "bool"
  | int => "int"
  | float => "float"
  | float2 => "float2"
  | float3 => "float3"
  | float4 => "float4"
  | ray => "ray"
  | isect => "isect"
  | light => "light"
  | shaderHandle => "shader_handle"
  | contextPtr => "context_ptr"
  | module => "module"
  | dfunc => "dfunc"

/-- The identity of the type. -/
def id (b : Builtin) : TypeId := TypeId.ofName b.name

/-- The built-in type with a given name. -/
def ofName? (s : String) : Option Builtin := all.find? (·.name == s)

/-- The number of components of a float vector. -/
def width? : Builtin → Option UInt8
  | float2 => some 2
  | float3 => some 3
  | float4 => some 4
  | _ => none

theorem mem_all (b : Builtin) : b ∈ all := by cases b <;> decide

/-- The fourteen identities differ from one another. -/
theorem ids_nodup : (all.map id).Nodup := by decide +kernel

theorem id_injective {a b : Builtin} (h : a.id = b.id) : a = b := by
  have distinct := List.pairwise_map.mp ids_nodup
  rw [List.pairwise_iff_getElem] at distinct
  obtain ⟨i, hi, rfl⟩ := List.getElem_of_mem (mem_all a)
  obtain ⟨j, hj, rfl⟩ := List.getElem_of_mem (mem_all b)
  rcases Nat.lt_trichotomy i j with hij | rfl | hij
  · exact absurd h (distinct i j hi hj hij)
  · rfl
  · exact absurd h.symm (distinct j i hj hi hij)

end Builtin

namespace TypeId

/-- Is it one of the two scalar number types? -/
def isNumeric (t : TypeId) : Bool := t == Builtin.int.id || t == Builtin.float.id

/-- The number of components, if the type is a built-in float vector. -/
def vectorWidth? (t : TypeId) : Option UInt8 :=
  (Builtin.all.find? fun b => b.width?.isSome && b.id == t).bind Builtin.width?

end TypeId

end Shading
