import LanguageClient.Proofs.Status.Indicator

/-!
# `LanguageClient.Proofs.Status.Announcement`: the calls on the item of an indicator

An indicator speaks to its item in blocks: one that names the item, shows the start and reveals
it, one that shows that the session is running, and the two calls that put the item away. Whatever
the owner asks for, and however often, the item hears a beginning of these in this order, of
which the first two may be missing (`announced_sublist`, `calls_run`), and the indicator shows
what it has announced last (`current_run`).

* `announced`: what a run announces.
* `announces_iff`: the one event that announces running.
* `spoken`: all of it, for a run that ends with the indicator.
-/

set_option autoImplicit false

namespace LanguageClient.Status

/-- What an indicator tells its user. -/
inductive Announcement where
  | starting
  | running
  deriving DecidableEq, Repr

namespace Announcement

/-- What is shown afterwards. -/
def descriptor : Announcement → Descriptor
  | .starting => .starting
  | .running => .running

/-- The calls that make an announcement. -/
def calls : Announcement → List ItemCall
  | .starting => .name itemName :: Descriptor.starting.calls ++ [.reveal]
  | .running => Descriptor.running.calls

end Announcement

/-- The calls that put an item away. -/
def farewell : List ItemCall := [.hide, .dispose]

/-- What is announced when one thing is asked for after another. -/
def announced (events : List Event) : List Announcement :=
  match shows events with
  | [] => []
  | .showStarting :: later => if .showRunning ∈ later then [.starting, .running] else [.starting]
  | _ :: _ => [.running]

/-- The start is announced before running, and nothing is announced twice. Running may come first;
then the start is not announced any more. -/
theorem announced_sublist (events : List Event) :
    (announced events).Sublist [.starting, .running] := by
  unfold announced
  split
  · simp
  · split
    · simp
    · simp
  · simp

namespace Indicator

/-! ### One run -/

/-- An indicator that has not been torn down has made its announcements and nothing else. There are
four cases, and each is a matter of computation. -/
theorem ofShows_shows (events : List Event) :
    (ofShows (shows events)).calls = (announced events).flatMap Announcement.calls ∧
      (ofShows (shows events)).current =
        (announced events).getLast?.map Announcement.descriptor := by
  unfold announced
  match shows events with
  | [] => exact ⟨rfl, rfl⟩
  | .showStarting :: later =>
    rw [ofShows]
    dsimp only
    split
    · exact ⟨rfl, rfl⟩
    · exact ⟨rfl, rfl⟩
  | .showRunning :: _ | .tearDown :: _ | .drop :: _ => exact ⟨rfl, rfl⟩

/-- The first time an indicator is torn down it says farewell to its item, behind all that it has
said before. -/
theorem calls_tearDown {i : Indicator} (h : i.disposed = false) :
    i.tearDown.calls = i.calls ++ farewell := by
  simp [tearDown, call, farewell, h]

/-- The calls on the item: the announcements, and the farewell once the indicator is torn down. It
comes once, since nothing happens afterwards. -/
theorem calls_run (events : List Event) :
    (run {} events).calls = (announced events).flatMap Announcement.calls ++
      if shows events = events then [] else farewell := by
  have hcalls := (ofShows_shows events).1
  rw [run_eq]
  split
  · rename_i hall
    rw [hall] at hcalls
    rw [hcalls, List.append_nil]
  · rw [calls_tearDown (disposed_ofShows _), hcalls]

/-- What is shown is what has been announced last, also after the indicator was torn down. -/
theorem current_run (events : List Event) :
    (run {} events).current = (announced events).getLast?.map Announcement.descriptor := by
  have hcurrent := (ofShows_shows events).2
  rw [run_eq]
  split
  · rename_i hall
    rwa [hall] at hcurrent
  · rw [current_tearDown, hcurrent]

/-! ### One event -/

/-- What an event adds to the calls on the item. -/
def adds (i : Indicator) : Event → List ItemCall
  | .showStarting => if i.disposed ∨ i.current.isSome then [] else Announcement.starting.calls
  | .showRunning => if i.showRunning.1 then Announcement.running.calls else []
  | .tearDown | .drop => if i.disposed then [] else farewell

/-- An event makes an announcement. -/
def Announces (i : Indicator) (e : Event) (a : Announcement) : Prop :=
  (i.step e).calls = i.calls ++ a.calls

/-- An event adds its own calls to those on the item, and takes none back. So the calls of a run are
those of its events, one after another. -/
theorem calls_step (i : Indicator) (e : Event) : (i.step e).calls = i.calls ++ i.adds e := by
  -- Two events tear down, and say farewell unless it has been said.
  have htearDown : i.tearDown.calls = i.calls ++ if i.disposed then [] else farewell := by
    cases hdisposed : i.disposed with
    | true => simp [tearDown, hdisposed]
    | false => simp [calls_tearDown hdisposed]
  cases e with
  | showStarting =>
    show i.showStarting.calls = _
    unfold showStarting
    split
    · -- It is ignored once something is shown, or the item has been put away.
      rename_i hignored
      simp [adds, hignored]
    · rename_i hheeded
      simp [adds, hheeded, call, display, Announcement.calls]
  | showRunning =>
    show i.showRunning.2.calls = i.calls ++ if i.showRunning.1 then _ else _
    unfold showRunning
    split
    · simp
    · simp [display, Announcement.calls]
  | tearDown => exact htearDown
  | drop => exact htearDown

/-- Running is announced by those events that say so to the owner, and by no others. The calls of
the other events differ from those of this announcement in their number or in the first of them. -/
theorem announces_iff (i : Indicator) (e : Event) :
    Announces i e .running ↔ e = .showRunning ∧ i.showRunning.1 = true := by
  unfold Announces
  rw [calls_step, List.append_right_inj]
  cases e with
  | showStarting =>
    by_cases hignored : i.disposed ∨ i.current.isSome <;>
      simp [adds, hignored, Announcement.calls, Descriptor.calls]
  | showRunning =>
    cases hnews : i.showRunning.1 <;> simp [adds, hnews, Announcement.calls, Descriptor.calls]
  | tearDown =>
    cases hdisposed : i.disposed <;>
      simp [adds, hdisposed, farewell, Announcement.calls, Descriptor.calls]
  | drop =>
    cases hdisposed : i.disposed <;>
      simp [adds, hdisposed, farewell, Announcement.calls, Descriptor.calls]

/-! ### A run that ends -/

/-- Dropping an indicator shows nothing. It comes after all that is shown, or after a teardown. -/
theorem shows_drop (events : List Event) : shows (events ++ [.drop]) = shows events := by
  unfold shows
  rw [List.takeWhile_append]
  split
  · rename_i hall
    rw [(List.takeWhile_prefix _).eq_of_length hall]
    simp [Event.isShow]
  · rfl

/-- What an indicator does for an owner who asks for one thing after another and drops it in the
end:

- `order`: the start is announced before running, each at most once, if at all;
- `calls`: the item hears what is announced, is hidden and disposed of, and hears nothing else;
- `answers`: the owner is told that running is news by the event that announces it;
- `current`: at every moment the indicator shows what it has announced last, and its item has
  heard that much, with the farewell or without it. -/
structure Spoken (events : List Event) : Prop where
  order : (announced events).Sublist [.starting, .running]
  calls : (run {} (events ++ [.drop])).calls =
    (announced events).flatMap Announcement.calls ++ [.hide, .dispose]
  answers : ∀ before e, before ++ [e] <+: events ++ [.drop] →
    (Announces (run {} before) e .running ↔
      e = .showRunning ∧ (run {} before).showRunning.1 = true)
  current : ∀ before, before <+: events ++ [.drop] →
    (run {} before).current = (announced before).getLast?.map Announcement.descriptor ∧
    ((run {} before).calls = (announced before).flatMap Announcement.calls ∨
      (run {} before).calls =
        (announced before).flatMap Announcement.calls ++ [.hide, .dispose])

/-- Whatever its owner asks for, an indicator announces the start at most once, then running at most
once, and in the end it puts its item away. Dropping it is one more event, which shows nothing, so
the announcements are those of the owner's events. -/
theorem spoken (events : List Event) : Spoken events where
  order := announced_sublist events
  calls := by
    have hsame : announced (events ++ [.drop]) = announced events := by
      rw [announced, shows_drop, announced]
    -- The drop is no event that shows something, so not all events are shown.
    have hended : shows (events ++ [.drop]) ≠ events ++ [.drop] := by
      intro hall
      have hlength := congrArg List.length ((shows_drop events).symm.trans hall)
      have hle : (shows events).length ≤ events.length := (List.takeWhile_prefix _).length_le
      rw [List.length_append, List.length_singleton] at hlength
      omega
    rw [calls_run, if_neg hended, hsame]
    rfl
  answers before e _ := announces_iff (run {} before) e
  current before _ := by
    refine ⟨current_run before, ?_⟩
    rw [calls_run]
    split
    · exact .inl (List.append_nil _)
    · exact .inr rfl

/-- An owner who has forgotten the start: the item is never revealed. -/
example : (run {} [.showRunning, .showStarting, .tearDown, .showRunning, .drop]).calls =
    Announcement.running.calls ++ farewell := rfl

end Indicator

end LanguageClient.Status
