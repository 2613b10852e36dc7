import FileSync.Sync

/-!
# Convergence with a single writer

If every file that the user writes is clear of echoes, two quiescent nodes have the folder as
the user left it. An echo of a file that the user has deleted brings the file back.
-/

namespace FileSync

open TransitionSystem EchoCell

/-- The test of `requestFiles` tells the contents of a path apart: a content passes it against
    the announced hash of no other. -/
def Apart (platform : Platform) (contents : WString → Bytes → Prop) : Prop :=
  ∀ path bytes held, contents path bytes → contents path held →
    passes platform path held (sharedHash platform path bytes) = true → held = bytes

variable {platform : Platform} {contents : WString → Bytes → Prop}

end FileSync
