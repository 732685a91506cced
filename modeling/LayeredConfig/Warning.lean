import LayeredConfig.Lookup.Error
import LayeredConfig.Transaction.Lifecycle

/-!
# Warnings

What a configuration survives (a source that cannot be read, a filter that fails, a transaction
that is given up) is logged as a warning, and the operation goes on without the part that failed.
`Logged` is a result together with the warnings of the way to it, in order.

A step is given the result of the one before it and not its warnings, so what is answered never
depends on what was logged.
-/

set_option autoImplicit false

namespace LayeredConfig

/-- What is logged when an operation goes on without a part of itself. -/
inductive Warning
  | lookupFailed (key source : String) (error : SourceError)
  | sourceSkipped (source : String) (error : SourceError)
  | filterFailed (key filter : String) (error : ConfigError)
  | startFailed (transaction : TransactionId) (source : String) (error : SourceError)
  | commitFailed (transaction : TransactionId) (source : String) (error : SourceError)
  | rollbackFailed (transaction : TransactionId) (source : String) (error : SourceError)
  | releaseFailed (transaction : TransactionId) (error : TransitionError)
  | nothingToCommit
  | nothingToRollBack
  deriving DecidableEq

/-- The line of a warning: what happened, and the fields that say where. -/
def Warning.line (showId : TransactionId → String) : Warning → String
  | lookupFailed key source error =>
    "property lookup failed; key=" ++ key ++ " source=" ++ source ++
      " error=" ++ error.messageWith showId
  | sourceSkipped source error =>
    "skipping source in bulk read; source=" ++ source ++ " error=" ++ error.messageWith showId
  | filterFailed key filter error =>
    "filter failed; key=" ++ key ++ " filter=" ++ filter ++ " error=" ++ error.message
  | startFailed id source error =>
    "failed to begin transaction; id=" ++ showId id ++ " source=" ++ source ++
      " error=" ++ error.messageWith showId
  | commitFailed id source error =>
    "commit failed, rolling back; id=" ++ showId id ++ " source=" ++ source ++
      " error=" ++ error.messageWith showId
  | rollbackFailed id source error =>
    "rollback failed; id=" ++ showId id ++ " source=" ++ source ++
      " error=" ++ error.messageWith showId
  | releaseFailed id error =>
    "transaction release failed; id=" ++ showId id ++ " error=" ++ error.message
  | nothingToCommit => "no open transaction, ignoring commit;"
  | nothingToRollBack => "no open transaction, ignoring rollback;"

/-- A result and the warnings logged on the way to it. -/
structure Logged (α : Type) where
  value : α
  warnings : List Warning

namespace Logged

variable {α β : Type}

def quiet (a : α) : Logged α := ⟨a, []⟩

/-- The result with warnings in front. -/
def after (ws : List Warning) (l : Logged α) : Logged α := ⟨l.value, ws ++ l.warnings⟩

/-- The result of the next step, after the warnings of both. -/
def andThen (l : Logged α) (next : α → Logged β) : Logged β := (next l.value).after l.warnings

def map (f : α → β) (l : Logged α) : Logged β := ⟨f l.value, l.warnings⟩

@[simp] theorem quiet_value (a : α) : (quiet a).value = a := rfl

@[simp] theorem after_value (ws : List Warning) (l : Logged α) : (l.after ws).value = l.value := rfl

@[simp] theorem andThen_value (l : Logged α) (next : α → Logged β) :
    (l.andThen next).value = (next l.value).value := rfl

@[simp] theorem map_value (f : α → β) (l : Logged α) : (l.map f).value = f l.value := rfl

end Logged

end LayeredConfig
