import LanguageClient.Status.Run
import Mathlib.Data.List.Induction

/-!
# `LanguageClient.Proofs.Status.Indicator`: where an indicator is led

Whatever its owner does, an indicator is in one of four states, or in one of them and torn down.
What has been shown before it was torn down decides which (`run_eq`). What is done to it
afterwards changes nothing.

* `ofShows`: the states that have not been torn down.
* `step_ofShows`: one show leads from one of them to the next.
* `run_eq`: where a run leads.
-/

set_option autoImplicit false

namespace LanguageClient.Status

/-- Whether an event shows something. The others tear the indicator down. -/
def Event.isShow : Event → Bool
  | .showStarting | .showRunning => true
  | .tearDown | .drop => false

/-- What is shown before the indicator is torn down. -/
def shows (events : List Event) : List Event := events.takeWhile Event.isShow

namespace Indicator

/-- An indicator that shows the start. -/
def starting : Indicator := showStarting {}

/-- An indicator that has gone on from the start to running. -/
def overtaken : Indicator := starting.showRunning.2

/-- An indicator that has been asked for running first. Its item has never been revealed. -/
def unseen : Indicator := ({} : Indicator).showRunning.2

/-- The state of an indicator that has not been torn down, by what has been shown. -/
def ofShows : List Event → Indicator
  | [] => {}
  | .showStarting :: later => if .showRunning ∈ later then overtaken else starting
  | _ :: _ => unseen

/-- A run with one event more is a step after it. -/
theorem run_concat (i : Indicator) (events : List Event) (e : Event) :
    i.run (events ++ [e]) = (i.run events).step e := by
  rw [run, List.foldl_append]
  rfl

/-- Nothing happens to an indicator that has been torn down, whatever is asked for. -/
theorem step_of_disposed {i : Indicator} (h : i.disposed = true) (e : Event) : i.step e = i := by
  cases e with
  | showStarting => exact if_pos (.inl h)
  | showRunning => exact congrArg Prod.snd (if_pos (.inl h))
  | tearDown => exact if_pos h
  | drop => exact if_pos h

/-- Tearing an indicator down disposes of it. -/
theorem disposed_tearDown (i : Indicator) : i.tearDown.disposed = true := by
  unfold tearDown
  split
  · assumption
  · rfl

/-- What is shown is not forgotten when the indicator is torn down. -/
theorem current_tearDown (i : Indicator) : i.tearDown.current = i.current := by
  unfold tearDown
  split
  · rfl
  · rfl

/-- None of the four states has been torn down. So whether an indicator was torn down is told by the
events behind. -/
theorem disposed_ofShows (events : List Event) : (ofShows events).disposed = false := by
  unfold ofShows
  split
  · rfl
  · split
    · rfl
    · rfl
  · rfl

/-- One more show leads from the state before it to the one after it. That running is news matters
once: after it, and for a start that comes too late, nothing changes. -/
theorem step_ofShows (events : List Event) {e : Event} (h : e.isShow = true) :
    (ofShows events).step e = ofShows (events ++ [e]) := by
  cases e with
  | showStarting =>
    match events with
    | [] | .showRunning :: _ | .tearDown :: _ | .drop :: _ => rfl
    | .showStarting :: later =>
      -- Something is shown already, so the indicator ignores the start.
      by_cases hmem : .showRunning ∈ later
      · rw [List.cons_append, ofShows, ofShows, if_pos hmem, if_pos (List.mem_append_left _ hmem)]
        rfl
      · rw [List.cons_append, ofShows, ofShows, if_neg hmem, if_neg (by simp [hmem])]
        rfl
  | showRunning =>
    match events with
    | [] | .showRunning :: _ | .tearDown :: _ | .drop :: _ => rfl
    | .showStarting :: later =>
      -- Running is shown after the start, perhaps not for the first time.
      rw [List.cons_append, ofShows, ofShows, if_pos (List.mem_append_right _ List.mem_cons_self)]
      split
      · rfl
      · rfl
  | tearDown => exact nomatch h
  | drop => exact nomatch h

/-- As long as things are only shown, the state depends on what was shown, by induction on the
shows. -/
theorem run_ofShows (events : List Event) (h : ∀ e ∈ events, e.isShow = true) :
    run {} events = ofShows events := by
  induction events using List.reverseRecOn with
  | nil => rfl
  | append_singleton events e ih =>
    rw [run_concat, ih fun e he => h e (List.mem_append_left _ he),
      step_ofShows events (h e (List.mem_append_right _ List.mem_cons_self))]

/-- Nothing happens to an indicator that was disposed of, in the rest of a run. -/
theorem run_of_disposed {i : Indicator} (h : i.disposed = true) (events : List Event) :
    i.run events = i := by
  induction events with
  | nil => rfl
  | cons e events ih => rw [run, List.foldl_cons, step_of_disposed h]; exact ih

/-- Where a run leads depends on what is shown before the indicator is torn down, and on whether it
is. The shows are the events up to the first that is none; it tears the indicator down, and the rest
does nothing. -/
theorem run_eq (events : List Event) :
    run {} events =
      if shows events = events then ofShows events else (ofShows (shows events)).tearDown := by
  have hshows := run_ofShows (shows events) (List.all_eq_true.mp List.all_takeWhile)
  split
  · rename_i hall
    rwa [hall] at hshows
  · rename_i hnot
    -- The first event that is no show tears the indicator down.
    obtain ⟨e, rest, hsplit, hend⟩ : ∃ e rest, events = shows events ++ e :: rest ∧
        e.isShow = false := by
      have hsplit := List.takeWhile_append_dropWhile (p := Event.isShow) (l := events)
      have hhead := List.head?_dropWhile_not Event.isShow events
      cases hrest : events.dropWhile Event.isShow with
      | nil => rw [hrest, List.append_nil] at hsplit; exact absurd hsplit hnot
      | cons e rest =>
        rw [hrest] at hsplit hhead
        exact ⟨e, rest, hsplit.symm, by simpa using hhead⟩
    have hstep : (ofShows (shows events)).step e = (ofShows (shows events)).tearDown := by
      cases e with
      | showStarting => exact nomatch hend
      | showRunning => exact nomatch hend
      | tearDown => rfl
      | drop => rfl
    -- Up to that event nothing but shows, then the teardown, and then nothing that counts.
    calc run {} events
        = ((run {} (shows events)).step e).run rest := by
          conv_lhs => rw [hsplit, run, List.foldl_append]
          rfl
      _ = (ofShows (shows events)).tearDown := by
          rw [hshows, hstep, run_of_disposed (disposed_tearDown _)]

end Indicator

end LanguageClient.Status
