import Mathlib.Tactic.Common

/-!
# Files that are replaced as a whole

A file is replaced by renaming a complete one over it, and it is removed.  Both are seen at once;
what is kept of the file over a crash may be older until its directory has been synced.
-/

namespace Ben

/-- What reading a file finds. -/
inductive FileRead (α : Type) where
  | absent
  | failed
  | holds (record : α)
  deriving DecidableEq

end Ben
