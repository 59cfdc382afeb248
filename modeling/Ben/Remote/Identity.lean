import Ben.Review.Text

/-!
# Workspaces and processes at the backend

The names that a daemon and the backend share: a workspace by the cycle that owns it, and a process
by the workspace it runs in, the daemon's own name for the dispatch and a digest of what was asked.
-/

namespace Ben.Remote

open Ben.Review (Text txt)

/-- A cycle as the backend is asked for it: by its approval. -/
structure Claim where
  repository : Text
  issue : Text
  epoch : Int
  deriving DecidableEq, Repr

/-- A workspace as the backend knows it. -/
structure Identity where
  claim : Claim := { repository := [], issue := [], epoch := 0 }
  branch : Text := []
  baseSHA : Text := []
  sandboxID : Text := []
  profileRevision : Text := []
  deriving DecidableEq, Repr

end Ben.Remote
