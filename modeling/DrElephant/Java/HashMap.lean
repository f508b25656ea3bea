import Mathlib.Algebra.Group.Nat.Defs
import Mathlib.Data.Nat.Log
import DrElephant.Java.CodeUnits
import DrElephant.Library.OrderedMap

open collections

namespace java.lang

/-- `String.hashCode` as an unsigned word. -/
def hashCode (text : String) : Nat :=
  (text.toList.flatMap codeUnits).foldl (fun hash unit => (31 * hash + unit) % 2 ^ 32) 0

end java.lang

namespace java.util.HashMap

/-- The table of a map that was filled up from its default capacity with a load
factor of three quarters. -/
def tableSize (size : Nat) : Nat := max 16 (2 ^ Nat.clog 2 ((4 * size + 2) / 3))

/-- The table of a map that was filled up from a capacity that is a power of two. -/
def tableSizeFrom (capacity size : Nat) : Nat := max capacity (2 ^ Nat.clog 2 ((4 * size + 2) / 3))

/-- The bucket of a hash code among the buckets of a table. -/
def indexFor (hash table : Nat) : Nat := (hash ^^^ (hash >>> 16)) % table

/-- The iteration of a map whose buckets are lists. -/
def bucketOrder {κ ν : Type*} (hashCode : κ → Nat) : HashOrder κ ν :=
  .byBucket fun size key => indexFor (hashCode key) (tableSize size)

/-- The same of a map that has been given an initial capacity. -/
def bucketOrderFrom {κ ν : Type*} (capacity : Nat) (hashCode : κ → Nat) : HashOrder κ ν :=
  .byBucket fun size key => indexFor (hashCode key) (tableSizeFrom capacity size)

end java.util.HashMap
