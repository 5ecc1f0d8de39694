import LanguageClient.Status.Indicator

/-!
# `LanguageClient.Status.Run`: an indicator at work

The owner of an indicator asks it for one thing after another, and every call that
the indicator makes reaches its item.

- `Event`: what the owner can do.
- `Indicator.step`, `Indicator.run`: what that makes of the indicator.
- `Indicator.item`: what it makes of a logged item.
-/

set_option autoImplicit false

namespace LanguageClient.Status

/-- What the owner of an indicator can do. -/
inductive Event where
  | showStarting
  | showRunning
  | tearDown
  /-- The owner drops the indicator, which tears it down. -/
  | drop
  deriving DecidableEq, Repr

namespace Indicator

/-- What an event makes of an indicator. -/
def step (i : Indicator) : Event → Indicator
  | .showStarting => i.showStarting
  | .showRunning => i.showRunning.2
  | .tearDown | .drop => i.tearDown

/-- What events make of an indicator, one after another. -/
def run (i : Indicator) (events : List Event) : Indicator := events.foldl step i

/-- The logged item of an indicator, after the calls made on it so far. -/
def item (i : Indicator) (id : String) : LoggedItem := (LoggedItem.new id).applyAll i.calls

end Indicator

end LanguageClient.Status
