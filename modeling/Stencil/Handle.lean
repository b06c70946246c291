/-!
# Handles

Groups and instances are kept by the engine, iterators and objects by the store. Values and callers
refer to them by handles: the number under which each was issued, from 0 on.
-/

namespace Stencil

/-- A group of an engine. -/
structure GroupId where
  index : Nat
deriving DecidableEq, Repr

/-- An instance of a template. -/
structure InstanceId where
  index : Nat
deriving DecidableEq, Repr

/-- The cursor that all copies of an iterator share. -/
structure CursorId where
  index : Nat
deriving DecidableEq, Repr

/-- An object of the caller. -/
structure ObjectId where
  index : Nat
deriving DecidableEq, Repr

end Stencil
