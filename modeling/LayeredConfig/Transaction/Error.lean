import LayeredConfig.Source.Basic
import LayeredConfig.Transaction.Lifecycle

/-!
# Errors of a writer

A write fails because it is not allowed at the time, or because a source failed; then the error
names the source, the transaction and the cause.

The text says where it failed, and leaves the cause to the error of the source, which is kept as it
is.
-/

set_option autoImplicit false

namespace LayeredConfig

/-- The failure of one source among several. -/
structure SourceFailure where
  source : String
  cause : SourceError
  deriving DecidableEq

/-- Why a write failed. -/
inductive MutationError
  | illegalState (reason : String)
  | invalidTransition (error : TransitionError)
  | start (transaction : TransactionId) (failure : SourceFailure)
  | staging (transaction : TransactionId) (failure : SourceFailure)
  | commit (transaction : TransactionId) (failure : SourceFailure)
  deriving DecidableEq

namespace MutationError

def messageWith (showId : TransactionId → String) : MutationError → String
  | illegalState reason => "illegal state: " ++ reason
  | invalidTransition error => error.message
  | start id failure =>
    "source `" ++ failure.source ++ "` failed to begin transaction " ++ showId id
  | staging id failure =>
    "source `" ++ failure.source ++ "` failed to stage a change in transaction " ++ showId id
  | commit id failure =>
    "source `" ++ failure.source ++ "` failed to commit transaction " ++ showId id

/-- The error of the source behind the error of the writer. -/
def cause? : MutationError → Option SourceError
  | illegalState _ => none
  | invalidTransition _ => none
  | start _ failure => some failure.cause
  | staging _ failure => some failure.cause
  | commit _ failure => some failure.cause

end MutationError

end LayeredConfig
